import Mathlib.Data.List.DropRight

/-!
# The detector of password prompts

It watches the text that is typed into a session and the output behind a command. Text is a
list of UTF-16 code units. Times are the whole milliseconds of the clock.
-/

namespace SavedPassword

/-- UTF-16 code units. -/
abbrev Units := List UInt16

def units (text : String) : Units :=
  text.toList.map fun c => UInt16.ofNat c.toNat

def promptWindowMs : Nat := 30000

def windowUnits : Nat := 512

/-- `\s`. -/
def isSpace (c : UInt16) : Bool :=
  (0x09 ≤ c && c ≤ 0x0d) || c == 0x20 || c == 0xa0 || c == 0x1680 ||
    (0x2000 ≤ c && c ≤ 0x200a) || c == 0x2028 || c == 0x2029 || c == 0x202f ||
    c == 0x205f || c == 0x3000 || c == 0xfeff

def isLineBreak (c : UInt16) : Bool :=
  c == 0x0d || c == 0x0a

/-- Without regard to case; the long s folds to the letter s. -/
def sameLetter (letter c : UInt16) : Bool :=
  c == letter || (0x61 ≤ letter && letter ≤ 0x7a && c + 0x20 == letter) ||
    (letter == 0x73 && c == 0x017f)

def stripLiteral : Units → Units → Option Units
  | [], text => some text
  | _ :: _, [] => none
  | letter :: literal, c :: text =>
    if sameLetter letter c then stripLiteral literal text else none

/-- `:\s*$`. -/
def promptEnd : Units → Bool
  | c :: rest => c == 0x3a && rest.all isSpace
  | [] => false

/-- `[^:\r\n]+:\s*$`. -/
def ownerEnd (text : Units) : Bool :=
  let owner := text.takeWhile fun c => c ≠ 0x3a ∧ ¬ isLineBreak c
  owner ≠ [] && promptEnd (text.drop owner.length)

/-- `\s+[^:\r\n]+:\s*$`. -/
def spacedOwnerEnd (text : Units) : Bool :=
  (List.range (text.length + 1)).any fun spaces =>
    0 < spaces && (text.take spaces).all isSpace && ownerEnd (text.drop spaces)

/-- `(?:\s+for\s+[^:\r\n]+)?:\s*$`. -/
def passwordEnd (text : Units) : Bool :=
  promptEnd text ||
    (text.head?.any isSpace &&
      ((stripLiteral (units "for") (text.dropWhile isSpace)).any spacedOwnerEnd))

/-- `\s*(?:\[sudo\]\s*)?password(?:\s+for\s+[^:\r\n]+)?:\s*$`. -/
def promptLine (text : Units) : Bool :=
  let text := text.dropWhile isSpace
  let text := ((stripLiteral (units "[sudo]") text).map (·.dropWhile isSpace)).getD text
  (stripLiteral (units "password") text).any passwordEnd

def promptAfterBreak : Units → Bool
  | [] => false
  | c :: text => (isLineBreak c && promptLine text) || promptAfterBreak text

/-- `PASSWORD_PROMPT.test`. -/
def passwordPrompt (text : Units) : Bool :=
  promptLine text || promptAfterBreak text

/-- `/^\s*(?:sudo|su)(?:\s|$)/u`. -/
def commandPattern (command : Units) : Bool :=
  let rest := command.dropWhile isSpace
  [units "sudo", units "su"].any fun name =>
    name.isPrefixOf rest && (rest.drop name.length).head?.all isSpace

def afterControl (text : Units) : Units :=
  (text.dropWhile fun c => !(64 ≤ c && c ≤ 126)).drop 1

def afterCommand : Units → Units
  | [] => []
  | 7 :: text => text
  | 27 :: 92 :: text => text
  | _ :: text => afterCommand text

lemma afterControl_length (text : Units) : (afterControl text).length ≤ text.length := by
  have shorter : (text.dropWhile fun c => !(64 ≤ c && c ≤ 126)).length ≤ text.length :=
    (List.dropWhile_suffix _).length_le
  rw [afterControl, List.length_drop]
  omega

lemma afterCommand_length (text : Units) : (afterCommand text).length ≤ text.length := by
  fun_induction afterCommand text <;> grind

def visibleTerminalText : Units → Units
  | [] => []
  | c :: text =>
    if c ≠ 27 then c :: visibleTerminalText text
    else
      match text with
      | 91 :: text => visibleTerminalText (afterControl text)
      | 93 :: text => visibleTerminalText (afterCommand text)
      | text => visibleTerminalText text
termination_by text => text.length
decreasing_by
  all_goals grind [afterControl_length, afterCommand_length]

/-- Keys that rewrite the line at the other end without sending its text. -/
def readlineEditCharacters : Units :=
  [0x1b, 0x09, 0x01, 0x02, 0x05, 0x06, 0x0b, 0x0e, 0x10, 0x12, 0x14, 0x15, 0x17, 0x18, 0x19, 0x1f]

/-- `split(mark).join("")`; the first argument is what is left of a mark. -/
def withoutMark (mark : Units) : Nat → Units → Units
  | _, [] => []
  | left + 1, _ :: text => withoutMark mark left text
  | 0, c :: text =>
    if mark.isPrefixOf (c :: text) then withoutMark mark (mark.length - 1) text
    else c :: withoutMark mark 0 text

def pasteStart : Units := 0x1b :: units "[200~"

def pasteEnd : Units := 0x1b :: units "[201~"

/-- `replace(/\r\n/gu, "\r")`. -/
def joinLineEnds : Units → Units
  | [] => []
  | 13 :: 10 :: text => 13 :: joinLineEnds text
  | c :: text => c :: joinLineEnds text

def isHighSurrogate (c : UInt16) : Bool :=
  0xd800 ≤ c && c ≤ 0xdbff

def isLowSurrogate (c : UInt16) : Bool :=
  0xdc00 ≤ c && c ≤ 0xdfff

/-- What a loop over a text visits: pairs of surrogates and single units. -/
def characters : Units → List Units
  | [] => []
  | [c] => [[c]]
  | high :: low :: text =>
    if isHighSurrogate high ∧ isLowSurrogate low then [high, low] :: characters text
    else [high] :: characters (low :: text)

/-- `slice(-512)`. -/
def window (text : Units) : Units :=
  text.rtake windowUnits

structure Detector where
  inputLine : Units := []
  promptPrefix : Option Units := none
  inputEdited : Bool := false
  outputTail : Units := []
  /-- Zero while no command is pending. -/
  pendingUntil : Nat := 0
  offered : Bool := false
  deriving DecidableEq

def isBackspace (character : Units) : Bool :=
  character = [0x7f] ∨ character = [0x08]

namespace Detector

def reset (_ : Detector) : Detector :=
  {}

def command (d : Detector) (cursorLine : Option Units) : Units :=
  if d.inputEdited then
    match d.promptPrefix, cursorLine with
    | some promptPrefix, some line =>
      if promptPrefix.isPrefixOf line then line.drop promptPrefix.length else []
    | _, _ => []
  else d.inputLine

def send (d : Detector) (now : Nat) (cursorLine : Option Units) : Detector :=
  let sent : Detector :=
    if commandPattern (d.command cursorLine) then
      { d with pendingUntil := now + promptWindowMs, outputTail := [], offered := false }
    else { d with pendingUntil := 0 }
  { sent with inputLine := [], promptPrefix := none, inputEdited := false }

def typeCharacter (now : Nat) (cursorLine : Option Units) (d : Detector) (character : Units) :
    Detector :=
  if character = [0x03] ∨ character = [0x04] then d.reset
  else if character = [0x0d] ∨ character = [0x0a] then d.send now cursorLine
  else if isBackspace character then { d with inputLine := d.inputLine.dropLast }
  else if character.head?.any (0x20 ≤ ·) ∧ character ≠ [0x7f] then
    { d with inputLine := window (d.inputLine ++ character) }
  else d

def observeInput (d : Detector) (data : Units) (now : Nat) (cursorLine : Option Units) :
    Detector :=
  let d := if d.pendingUntil ≠ 0 then d.reset else d
  let d := { d with promptPrefix := d.promptPrefix.or cursorLine }
  let unwrapped := withoutMark pasteEnd 0 (withoutMark pasteStart 0 data)
  let d :=
    if unwrapped.any (· ∈ readlineEditCharacters) then { d with inputEdited := true } else d
  (characters (joinLineEnds (visibleTerminalText data))).foldl (typeCharacter now cursorLine) d

def hasPendingCommand (d : Detector) (now : Nat) : Bool :=
  0 < d.pendingUntil ∧ now ≤ d.pendingUntil ∧ d.offered = false

/-- Whether a saved password is offered. -/
def observeOutput (d : Detector) (data : Units) (now : Nat) (cursorLine : Option Units) :
    Detector × Bool :=
  if ¬ d.hasPendingCommand now then (d, false)
  else
    let d := { d with outputTail := window (d.outputTail ++ data) }
    if ¬ passwordPrompt (cursorLine.getD (visibleTerminalText d.outputTail)) then (d, false)
    else ({ d with offered := true }, true)

end Detector

end SavedPassword
