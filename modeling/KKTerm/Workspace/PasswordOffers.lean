import KKTerm.Workspace.SavedPasswordPrompt

/-!
# When a saved password is offered

What the detector answers to a call, against everything that was typed and shown before it.
The detector keeps the end of the line and the end of the output; the history has all of both.
-/

namespace SavedPassword

open List Bool Detector

lemma rtake_rtake_append {α : Type} (n : Nat) (front back : List α) :
    (front.rtake n ++ back).rtake n = (front ++ back).rtake n := by
  simp only [rtake, drop_append, drop_drop, length_append, length_drop]
  congr 2 <;> omega

lemma window_append (front back : Units) :
    window (window front ++ back) = window (front ++ back) :=
  rtake_rtake_append windowUnits front back

variable {text : Units}

lemma window_of_short (short : text.length ≤ windowUnits) : window text = text := by
  simp [window, rtake, Nat.sub_eq_zero_of_le short]

lemma rdrop_append_window (text : Units) : text.rdrop windowUnits ++ window text = text := by
  rw [window, rdrop, rtake, take_append_drop]

/-- In text, behind an escape, in a control sequence, in a command, behind an escape in it. -/
inductive Mode where
  | text
  | escape
  | control
  | command
  | commandEscape
  deriving DecidableEq

/-- The next mode, and whether the unit is shown. -/
def turn (mode : Mode) (c : UInt16) : Mode × Bool :=
  match mode with
  | .text => if c = 27 then (.escape, false) else (.text, true)
  | .escape =>
    if c = 91 then (.control, false)
    else if c = 93 then (.command, false)
    else if c = 27 then (.escape, false) else (.text, true)
  | .control => if 64 ≤ c ∧ c ≤ 126 then (.text, false) else (.control, false)
  | .command =>
    if c = 7 then (.text, false)
    else if c = 27 then (.commandEscape, false) else (.command, false)
  | .commandEscape =>
    if c = 92 ∨ c = 7 then (.text, false)
    else if c = 27 then (.commandEscape, false) else (.command, false)

def strip (mode : Mode) : Units → Units
  | [] => []
  | c :: text =>
    if (turn mode c).2 then c :: strip (turn mode c).1 text else strip (turn mode c).1 text

def modeAfter (mode : Mode) (text : Units) : Mode :=
  text.foldl (fun mode c => (turn mode c).1) mode

lemma strip_append (mode : Mode) (front back : Units) :
    strip mode (front ++ back) = strip mode front ++ strip (modeAfter mode front) back := by
  induction front generalizing mode with
  | nil => rfl
  | cons c front ih =>
    have more := ih (turn mode c).1
    by_cases shown : (turn mode c).2 = true <;> simpa [strip, shown, modeAfter] using more

lemma strip_control (text : Units) : strip .control text = strip .text (afterControl text) := by
  induction text with
  | nil => rfl
  | cons c text ih =>
    by_cases final : 64 ≤ c ∧ c ≤ 126
    · simp [strip, turn, afterControl, final]
    · have more : afterControl (c :: text) = afterControl text := by
        simp only [afterControl, dropWhile_cons]
        rw [if_pos (by grind)]
      simp [strip, turn, final, more, ih]

lemma strip_commandEscape (other : text.head? ≠ some 92) :
    strip .commandEscape text = strip .command text := by
  cases text with
  | nil => rfl
  | cons c text =>
    have other' : c ≠ 92 := by simpa using other
    have same : turn .commandEscape c = turn .command c := by simp [turn, other']
    rw [strip, strip, same]

lemma strip_command (text : Units) : strip .command text = strip .text (afterCommand text) := by
  fun_induction afterCommand text with
  | case1 => rfl
  | case2 text => simp [strip, turn]
  | case3 text => simp [strip, turn]
  | case4 c text bell escape ih =>
    by_cases last : c = 27
    · subst last
      have other : text.head? ≠ some 92 := by
        intro head
        cases text with
        | nil => cases head
        | cons c text => exact escape text rfl (by simpa using head)
      rw [← ih, ← strip_commandEscape other]
      simp [strip, turn]
    · have bell' : c ≠ 7 := bell
      simpa [strip, turn, last, bell'] using ih

lemma strip_escape (control : text.head? ≠ some 91) (command : text.head? ≠ some 93) :
    strip .escape text = strip .text text := by
  cases text with
  | nil => rfl
  | cons c text =>
    have control' : c ≠ 91 := by simpa using control
    have command' : c ≠ 93 := by simpa using command
    have same : turn .escape c = turn .text c := by simp [turn, control', command']
    rw [strip, strip, same]

/-- What the source reads with a look ahead is read unit by unit. -/
lemma visibleTerminalText_eq (text : Units) : visibleTerminalText text = strip .text text := by
  fun_induction visibleTerminalText text with
  | case1 => rfl
  | case2 c text other ih => simp [strip, turn, other, ih]
  | case3 c escape text ih =>
    have escape' : c = 27 := not_not.mp escape
    rw [ih, ← strip_control]
    simp [strip, turn, escape']
  | case4 c escape text ih =>
    have escape' : c = 27 := not_not.mp escape
    rw [ih, ← strip_command]
    simp [strip, turn, escape']
  | case5 c escape text control command ih =>
    have escape' : c = 27 := not_not.mp escape
    have control' : text.head? ≠ some 91 := by
      intro head
      cases text with
      | nil => cases head
      | cons c text => exact control text (by simpa using head)
    have command' : text.head? ≠ some 93 := by
      intro head
      cases text with
      | nil => cases head
      | cons c text => exact command text (by simpa using head)
    rw [ih, ← strip_escape control' command']
    simp [strip, turn, escape']

def AtLineStart (text : Units) : Prop :=
  ∀ c ∈ text.getLast?, isLineBreak c = true

lemma promptAfterBreak_iff (text : Units) :
    promptAfterBreak text = true ↔
      ∃ front c back, text = front ++ c :: back ∧ isLineBreak c = true ∧
        promptLine back = true := by
  induction text with
  | nil => simp [promptAfterBreak]
  | cons c text ih =>
    rw [promptAfterBreak, or_eq_true, and_eq_true, ih]
    constructor
    · rintro (⟨break_, line⟩ | ⟨front, c', back, rfl, break_, line⟩)
      · exact ⟨[], c, text, rfl, break_, line⟩
      · exact ⟨c :: front, c', back, rfl, break_, line⟩
    · rintro ⟨front, c', back, split, break_, line⟩
      cases front with
      | nil =>
        cases split
        exact .inl ⟨break_, line⟩
      | cons c'' front =>
        cases split
        exact .inr ⟨front, c', back, rfl, break_, line⟩

lemma passwordPrompt_iff (text : Units) :
    passwordPrompt text = true ↔
      ∃ front back, text = front ++ back ∧ AtLineStart front ∧ promptLine back = true := by
  rw [passwordPrompt, or_eq_true, promptAfterBreak_iff]
  constructor
  · rintro (line | ⟨front, c, back, rfl, break_, line⟩)
    · exact ⟨[], text, rfl, by simp [AtLineStart], line⟩
    · exact ⟨front ++ [c], back, by simp, by simpa [AtLineStart] using break_, line⟩
  · rintro ⟨front, back, rfl, start, line⟩
    rcases eq_nil_or_concat front with rfl | ⟨front, c, rfl⟩
    · exact .inl line
    · refine Or.inr ⟨front, c, back, by simp, ?_, line⟩
      exact start c (by simp)

/-- A text cut in two: no sequence is cut, no prompt starts in front of the cut, and the rest
is not itself a prompt where no line starts. -/
structure CleanCut (front back : Units) : Prop where
  outside : modeAfter .text front = .text
  noneBefore : ∀ before rest, visibleTerminalText front = before ++ rest → rest ≠ [] →
    AtLineStart before → promptLine (rest ++ visibleTerminalText back) = false
  lineStart : promptLine (visibleTerminalText back) = true →
    AtLineStart (visibleTerminalText front)

lemma cleanCut_of_short (short : text.length ≤ windowUnits) :
    CleanCut (text.rdrop windowUnits) (window text) := by
  have nothing : text.rdrop windowUnits = [] := by simp [rdrop, Nat.sub_eq_zero_of_le short]
  have unseen : visibleTerminalText [] = [] := by rw [visibleTerminalText_eq, strip]
  rw [nothing]
  constructor
  · rfl
  · intro before rest split nonempty
    rw [unseen] at split
    exact absurd (append_eq_nil_iff.mp split.symm).2 nonempty
  · intro _
    simp [unseen, AtLineStart]

/-- Behind a clean cut the pattern says what it says of the whole. -/
lemma passwordPrompt_cleanCut {front back : Units} (cut : CleanCut front back) :
    passwordPrompt (visibleTerminalText (front ++ back)) =
      passwordPrompt (visibleTerminalText back) := by
  have whole : visibleTerminalText (front ++ back) =
      visibleTerminalText front ++ visibleTerminalText back := by
    rw [visibleTerminalText_eq, strip_append, cut.outside, visibleTerminalText_eq,
      visibleTerminalText_eq]
  rw [whole, Bool.eq_iff_iff, passwordPrompt_iff, passwordPrompt_iff]
  constructor
  · rintro ⟨before, rest, split, start, line⟩
    rcases append_eq_append_iff.mp split with ⟨more, rfl, shown⟩ | ⟨more, shown, rfl⟩
    · refine ⟨more, rest, shown, ?_, line⟩
      cases more with
      | nil => simp [AtLineStart]
      | cons c more =>
        intro last member
        exact start last (by simpa [getLast?_append] using member)
    · cases more with
      | nil => exact ⟨[], _, rfl, by simp [AtLineStart], line⟩
      | cons c more =>
        rw [cut.noneBefore before (c :: more) shown (by simp) start] at line
        cases line
  · rintro ⟨before, rest, shown, start, line⟩
    refine ⟨visibleTerminalText front ++ before, rest, by rw [shown, append_assoc], ?_, line⟩
    cases before with
    | nil =>
      rw [append_nil]
      rw [nil_append] at shown
      exact cut.lineStart (shown ▸ line)
    | cons c before =>
      intro last member
      exact start last (by simpa [getLast?_append] using member)

def firstWord (line : Units) : Units :=
  (line.dropWhile isSpace).takeWhile (!isSpace ·)

def passwordCommands : List Units :=
  [units "sudo", units "su"]

lemma prefix_word_iff {name rest : Units} (dark : ∀ c ∈ name, isSpace c = false) :
    (name.isPrefixOf rest && (rest.drop name.length).head?.all isSpace) = true ↔
      rest.takeWhile (!isSpace ·) = name := by
  rw [and_eq_true, isPrefixOf_iff_prefix]
  constructor
  · rintro ⟨⟨back, rfl⟩, ends⟩
    rw [takeWhile_append_of_pos (by simpa using dark)]
    rw [drop_left] at ends
    cases back with
    | nil => simp
    | cons c back =>
      have space : isSpace c = true := by simpa using ends
      simp [space]
  · intro word
    have split := takeWhile_append_dropWhile (p := (!isSpace ·)) (l := rest)
    rw [word] at split
    refine ⟨⟨_, split⟩, ?_⟩
    rw [← split, drop_left, Option.all_eq_true]
    intro c head
    have stops := head?_dropWhile_not (!isSpace ·) rest
    rw [head] at stops
    simpa using stops

lemma commandPattern_iff (line : Units) :
    commandPattern line = true ↔ firstWord line ∈ passwordCommands := by
  have dark : ∀ name ∈ passwordCommands, ∀ c ∈ name, isSpace c = false := by
    have check : passwordCommands.all (·.all (!isSpace ·)) = true := by decide +kernel
    simpa only [all_eq_true, not_eq_true'] using check
  simp only [commandPattern, any_eq_true, firstWord]
  constructor
  · rintro ⟨name, member, found⟩
    rw [prefix_word_iff (dark name member)] at found
    exact found ▸ member
  · intro member
    exact ⟨_, member, (prefix_word_iff (dark _ member)).mpr rfl⟩

def isBackspaceUnit (c : UInt16) : Bool :=
  c = 0x7f ∨ c = 0x08

/-- A character beyond the first plane takes two units. -/
def endsInPair (line : Units) : Bool :=
  match line.reverse with
  | low :: high :: _ => isHighSurrogate high && isLowSurrogate low
  | _ => false

def eraseCharacter (line : Units) : Units :=
  if endsInPair line then line.dropLast.dropLast else line.dropLast

def editLine (line : Units) (c : UInt16) : Units :=
  if isBackspaceUnit c then eraseCharacter line else line ++ [c]

/-- The line that a text leaves, backspaces applied. -/
def lineOf (text : Units) : Units :=
  text.foldl editLine []

def editWindow (line : Units) (c : UInt16) : Units :=
  if isBackspaceUnit c then line.dropLast else window (line ++ [c])

/-- No typed unit falls out of the window, and no backspace meets a character of two units. -/
def Kept (line : Units) : Units → Prop
  | [] => True
  | c :: text =>
    (if isBackspaceUnit c then endsInPair line = false else line.length < windowUnits) ∧
      Kept (editLine line c) text

instance decidableKept : (line text : Units) → Decidable (Kept line text)
  | _, [] => isTrue trivial
  | line, c :: text =>
    have := decidableKept (editLine line c) text
    inferInstanceAs (Decidable (_ ∧ _))

lemma foldl_editWindow {line : Units} (kept : Kept line text) :
    text.foldl editWindow line = text.foldl editLine line := by
  induction text generalizing line with
  | nil => simp
  | cons c text ih =>
    obtain ⟨first, rest⟩ := kept
    have same : editWindow line c = editLine line c := by
      by_cases back : isBackspaceUnit c = true
      · simp only [back, if_true] at first
        simp [editWindow, editLine, back, eraseCharacter, first]
      · rw [if_neg back] at first
        rw [editWindow, editLine, if_neg back, if_neg back]
        have short : (line ++ [c]).length ≤ windowUnits := by
          rw [length_append, length_singleton]
          omega
        exact window_of_short short
    rw [foldl_cons, foldl_cons, same]
    exact ih rest

def Typeable (c : UInt16) : Prop :=
  isBackspaceUnit c = true ∨ (0x20 ≤ c ∧ c ≠ 0x7f)

instance (c : UInt16) : Decidable (Typeable c) :=
  inferInstanceAs (Decidable (_ ∨ _))

lemma typeable_cases {c : UInt16} (h : Typeable c) : c = 0x08 ∨ 0x20 ≤ c := by
  rcases h with back | ⟨low, _⟩
  · rcases of_decide_eq_true back with rfl | rfl
    · exact .inr (by decide)
    · exact .inl rfl
  · exact .inr low

/-- A typeable unit is none of the control characters that the detector acts on. -/
lemma typeable_ne {c control : UInt16} (h : Typeable c) (low : control < 0x20)
    (other : control ≠ 0x08) : c ≠ control := by
  rintro rfl
  rcases typeable_cases h with back | high
  · exact other back
  · exact absurd low (UInt16.not_lt.mpr high)

lemma visible_of_plain (plain : ∀ c ∈ text, c ≠ 27) : visibleTerminalText text = text := by
  rw [visibleTerminalText_eq]
  induction text with
  | nil => rfl
  | cons c text ih =>
    have other : c ≠ 27 := plain c mem_cons_self
    have more := ih fun c' member => plain c' (mem_cons_of_mem c member)
    simp [strip, turn, other, more]

lemma joinLineEnds_of_plain (plain : ∀ c ∈ text, c ≠ 10) : joinLineEnds text = text := by
  fun_induction joinLineEnds text with
  | case1 => rfl
  | case2 text => exact absurd rfl (plain 10 (by simp))
  | case3 c text _ ih => rw [ih fun c' member => plain c' (mem_cons_of_mem c member)]

lemma mem_withoutMark {mark : Units} {left : Nat} {c : UInt16}
    (member : c ∈ withoutMark mark left text) : c ∈ text := by
  fun_induction withoutMark mark left text with
  | case1 => exact member
  | case2 left c' text ih => exact mem_cons_of_mem _ (ih member)
  | case3 c' text start ih => exact mem_cons_of_mem _ (ih member)
  | case4 c' text start ih =>
    rcases mem_cons.mp member with rfl | more
    · exact mem_cons_self
    · exact mem_cons_of_mem _ (ih more)

lemma not_readline (plain : ∀ c ∈ text, c = 13 ∨ Typeable c) :
    (withoutMark pasteEnd 0 (withoutMark pasteStart 0 text)).any
      (· ∈ readlineEditCharacters) = false := by
  rw [any_eq_false]
  intro c member
  have typed := plain c (mem_withoutMark (mem_withoutMark member))
  have keys : ∀ key ∈ readlineEditCharacters, key < 0x20 ∧ key ≠ 0x08 ∧ key ≠ 13 := by
    have check : readlineEditCharacters.all
      (fun key => decide (key < 0x20 ∧ key ≠ 0x08 ∧ key ≠ 13)) = true := by decide +kernel
    simpa only [all_eq_true, decide_eq_true_eq] using check
  rw [decide_eq_true_eq]
  intro key
  obtain ⟨low, other, enter⟩ := keys c key
  rcases typed with rfl | typeable
  · exact enter rfl
  · exact typeable_ne typeable low other rfl

section Typing
variable {now : Nat} {d : Detector} {c high low : UInt16}

lemma typeCharacter_unit (h : Typeable c) :
    typeCharacter now none d [c] = { d with inputLine := editWindow d.inputLine c } := by
  have ne : ∀ control : UInt16, control < 0x20 → control ≠ 0x08 → [c] ≠ [control] := by
    intro control low other same
    exact typeable_ne h low other (singleton_inj.mp same)
  rw [typeCharacter, if_neg (by simp [ne 3 (by decide) (by decide),
    ne 4 (by decide) (by decide)]), if_neg (by simp [ne 13 (by decide) (by decide),
    ne 10 (by decide) (by decide)])]
  by_cases back : isBackspaceUnit c = true
  · have back' : isBackspace [c] = true := by simpa [isBackspace, isBackspaceUnit] using back
    simp [back, back', editWindow]
  · have back' : isBackspace [c] = false := by simpa [isBackspace, isBackspaceUnit] using back
    obtain ⟨printable, other⟩ := h.resolve_left back
    simp [back, back', editWindow, printable, other]

lemma typeCharacter_pair (first : isHighSurrogate high = true)
    (second : isLowSurrogate low = true) :
    typeCharacter now none d [high, low] =
      { d with inputLine := editWindow (editWindow d.inputLine high) low } := by
  simp only [isHighSurrogate, isLowSurrogate, and_eq_true, decide_eq_true_eq] at first second
  have high_back : isBackspaceUnit high = false := by
    rw [isBackspaceUnit, decide_eq_false_iff_not]
    rintro (rfl | rfl)
    · exact absurd first.1 (by decide)
    · exact absurd first.1 (by decide)
  have low_back : isBackspaceUnit low = false := by
    rw [isBackspaceUnit, decide_eq_false_iff_not]
    rintro (rfl | rfl)
    · exact absurd second.1 (by decide)
    · exact absurd second.1 (by decide)
  have printable : (0x20 : UInt16) ≤ high := UInt16.le_trans (by decide) first.1
  have twice : window (d.inputLine ++ [high, low]) =
      window (window (d.inputLine ++ [high]) ++ [low]) := by
    rw [window_append, append_assoc, singleton_append]
  simp [typeCharacter, isBackspace, editWindow, high_back, low_back, printable, twice]

lemma foldl_typeCharacter {text : Units} (typeable : ∀ c ∈ text, Typeable c) :
    (characters text).foldl (typeCharacter now none) d =
      { d with inputLine := text.foldl editWindow d.inputLine } := by
  fun_induction characters text generalizing d with
  | case1 => rfl
  | case2 c =>
    simp only [foldl_cons, foldl_nil]
    exact typeCharacter_unit (typeable c mem_cons_self)
  | case3 high low text pair ih =>
    rw [foldl_cons, typeCharacter_pair pair.1 pair.2,
      ih fun c member => typeable c (by simp [member])]
    rfl
  | case4 high low text pair ih =>
    rw [foldl_cons, typeCharacter_unit (typeable high mem_cons_self),
      ih fun c member => typeable c (mem_cons_of_mem high member)]
    rfl

lemma characters_enter (text : Units) :
    characters (text ++ [13]) = characters text ++ [[13]] := by
  have enter : isLowSurrogate 13 = false := by decide
  fun_induction characters text with
  | case1 => rfl
  | case2 c => simp [characters, enter]
  | case3 high low text pair ih => simp [characters, pair, ih]
  | case4 high low text pair ih => simpa [characters, pair] using ih

end Typing

/-- One call, with the time of the clock. -/
inductive Event where
  | input (text : Units) (enter : Bool) (now : Nat)
  | output (data : Units) (now : Nat)

namespace Event

def now : Event → Nat
  | input _ _ now => now
  | output _ now => now

def IsOutput : Event → Prop
  | input .. => False
  | output .. => True

/-- Only printable units and backspaces are typed, before the end of the line. -/
def Typed : Event → Prop
  | input text _ _ => ∀ c ∈ text, Typeable c
  | output .. => True

end Event

def inputData (text : Units) (enter : Bool) : Units :=
  text ++ if enter then [13] else []

def step (d : Detector) : Event → Detector
  | .input text enter now => d.observeInput (inputData text enter) now none
  | .output data now => (d.observeOutput data now none).1

def run (past : List Event) : Detector :=
  past.foldl step {}

/-- What a call returns behind a history. -/
def returned (past : List Event) (data : Units) (now : Nat) : Bool :=
  ((run past).observeOutput data now none).2

/-- What was typed since the last end of a line. -/
def typing (past : List Event) : Units :=
  past.foldl (fun line event =>
    match event with
    | .input text enter _ => if enter then [] else line ++ text
    | .output .. => line) []

def outputs (events : List Event) : Units :=
  events.flatMap fun event =>
    match event with
    | .input .. => []
    | .output data _ => data

/-- An earlier call behind the line returned true. -/
def Answered (sent after : List Event) : Prop :=
  ∃ front data now back, after = front ++ .output data now :: back ∧
    returned (sent ++ front) data now = true

/-- Nothing but typed text is in the line, and a pending command has ended it. -/
structure Clean (d : Detector) : Prop where
  edited : d.inputEdited = false
  noPrefix : d.promptPrefix = none
  ended : d.pendingUntil ≠ 0 → d.inputLine = []

variable (past : List Event) {text data : Units} {sent after before : List Event}

variable (event : Event) {d : Detector} {now sentAt : Nat}

lemma observeInput_typed (clean : Clean d) (enter : Bool) (now : Nat)
    (typed : ∀ c ∈ text, Typeable c) :
    ∃ d' : Detector, Clean d' ∧ d'.pendingUntil = 0 ∧
      d'.inputLine = text.foldl editWindow d.inputLine ∧
      d.observeInput (inputData text enter) now none = if enter then d'.send now none else d' := by
  have plain : ∀ c ∈ inputData text enter, c = 13 ∨ Typeable c := by
    intro c member
    rcases mem_append.mp member with unit | ending
    · exact .inr (typed c unit)
    · cases enter
      · cases ending
      · exact .inl (mem_singleton.mp ending)
  have shown :
      joinLineEnds (visibleTerminalText (inputData text enter)) = inputData text enter := by
    have quiet : ∀ c ∈ inputData text enter, c ≠ 27 ∧ c ≠ 10 := by
      intro c member
      rcases plain c member with rfl | typeable
      · decide
      · exact ⟨typeable_ne typeable (by decide) (by decide),
          typeable_ne typeable (by decide) (by decide)⟩
    rw [visible_of_plain fun c member => (quiet c member).1,
      joinLineEnds_of_plain fun c member => (quiet c member).2]
  -- a pending command is forgotten, with an empty line
  obtain ⟨d₀, fresh, line, same⟩ : ∃ d₀ : Detector, (Clean d₀ ∧ d₀.pendingUntil = 0) ∧
      d₀.inputLine = d.inputLine ∧ (if d.pendingUntil ≠ 0 then d.reset else d) = d₀ := by
    by_cases pending : d.pendingUntil ≠ 0
    · refine ⟨{}, ⟨⟨rfl, rfl, fun _ => rfl⟩, rfl⟩, (clean.ended pending).symm, if_pos pending⟩
    · exact ⟨d, ⟨clean, not_not.mp pending⟩, rfl, if_neg pending⟩
  refine ⟨{ d₀ with inputLine := text.foldl editWindow d.inputLine }, ?_, fresh.2, rfl, ?_⟩
  · exact ⟨fresh.1.edited, fresh.1.noPrefix, fun pending => absurd fresh.2 pending⟩
  · have unprefixed : ({ d₀ with promptPrefix := d₀.promptPrefix.or none } : Detector) = d₀ := by
      rw [Option.or_none]
    simp only [observeInput, same, unprefixed, not_readline plain, false_eq_true, if_false, shown]
    cases enter
    · rw [inputData, if_neg (by simp), append_nil, foldl_typeCharacter typed, line]
      simp
    · rw [inputData, if_pos rfl, characters_enter, foldl_append, foldl_typeCharacter typed, line]
      simp [typeCharacter]

/-- Behind an input the line is what was typed, or the command is pending. -/
lemma send_eq (clean : Clean d) (now : Nat) :
    Clean (d.send now none) ∧ (d.send now none).inputLine = [] ∧
      ((commandPattern d.inputLine = true ∧
          (d.send now none).pendingUntil = now + promptWindowMs ∧
          (d.send now none).outputTail = [] ∧ (d.send now none).offered = false) ∨
        (commandPattern d.inputLine = false ∧ (d.send now none).pendingUntil = 0)) := by
  have command : d.command none = d.inputLine := by simp [Detector.command, clean.edited]
  cases found : commandPattern d.inputLine
  · simp [send, command, found]
    exact ⟨rfl, rfl, fun _ => rfl⟩
  · simp [send, command, found]
    exact ⟨rfl, rfl, fun _ => rfl⟩

lemma hasPendingCommand_iff :
    d.hasPendingCommand now = true ↔
      0 < d.pendingUntil ∧ now ≤ d.pendingUntil ∧ d.offered = false := by
  simp [hasPendingCommand]

lemma observeOutput_snd :
    (d.observeOutput data now none).2 = true ↔ d.hasPendingCommand now = true ∧
      passwordPrompt (visibleTerminalText (window (d.outputTail ++ data))) = true := by
  rw [observeOutput]
  by_cases pending : d.hasPendingCommand now = true
  · by_cases found : passwordPrompt (visibleTerminalText (window (d.outputTail ++ data))) = true <;>
      simp [pending, found]
  · simp [pending]

/-- An output is added to the end that is kept, while a command is pending. -/
lemma observeOutput_fst (d : Detector) (data : Units) (now : Nat) :
    (d.observeOutput data now none).1 =
      if d.hasPendingCommand now then
        { d with outputTail := window (d.outputTail ++ data)
                 offered := (d.observeOutput data now none).2 }
      else d := by
  rw [observeOutput]
  by_cases pending : d.hasPendingCommand now = true
  · have open_ := (hasPendingCommand_iff.mp pending).2.2
    by_cases found : passwordPrompt (visibleTerminalText (window (d.outputTail ++ data))) = true <;>
      simp [pending, found, open_]
  · simp [pending]

@[simp] lemma run_append_singleton : run (past ++ [event]) = step (run past) event := by
  simp [run]

lemma typing_append_singleton :
    typing (past ++ [event]) =
      match event with
      | .input text enter _ => if enter then [] else typing past ++ text
      | .output .. => typing past := by
  rw [typing, foldl_append]
  rfl

/-- The line in the detector is what was typed since the last end of a line. -/
lemma run_clean {past : List Event} (typed : ∀ event ∈ past, event.Typed) :
    Clean (run past) ∧ (run past).inputLine = (typing past).foldl editWindow [] := by
  induction past using reverseRecOn with
  | nil => exact ⟨⟨rfl, rfl, fun _ => rfl⟩, rfl⟩
  | append_singleton past event ih =>
    obtain ⟨clean, line⟩ := ih fun event member => typed event (mem_append_left _ member)
    have last := typed event (mem_append_right _ (mem_singleton_self event))
    rw [run_append_singleton, typing_append_singleton]
    cases event with
    | input text enter now =>
      obtain ⟨d, clean', _, line', result⟩ := observeInput_typed clean enter now last
      simp only [step, result]
      cases enter
      · refine ⟨clean', ?_⟩
        simp [line', line]
      · obtain ⟨clean'', ended, _⟩ := send_eq clean' now
        exact ⟨clean'', ended⟩
    | output data now =>
      simp only [step, observeOutput_fst]
      split
      · exact ⟨⟨clean.edited, clean.noPrefix, clean.ended⟩, line⟩
      · exact ⟨clean, line⟩

lemma answered_append :
    Answered sent (after ++ [.output data now]) ↔
      Answered sent after ∨ returned (sent ++ after) data now = true := by
  constructor
  · rintro ⟨front, data', now', back, split, answer⟩
    rcases eq_nil_or_concat back with rfl | ⟨back, last, rfl⟩
    · obtain ⟨same, last⟩ := append_inj' split rfl
      cases last
      exact .inr (same ▸ answer)
    · have parts : after ++ [.output data now] =
          (front ++ .output data' now' :: back) ++ [last] := by simpa using split
      exact .inl ⟨front, data', now', back, (append_inj' parts rfl).1, answer⟩
  · rintro (⟨front, data', now', back, rfl, answer⟩ | answer)
    · exact ⟨front, data', now', back ++ [.output data now], by simp, answer⟩
    · exact ⟨after, data, now, [], rfl, answer⟩

/-- While nothing is pending no output changes the detector. -/
lemma run_idle (quiet : ∀ event ∈ after, event.IsOutput) (idle : (run sent).pendingUntil = 0) :
    (run (sent ++ after)).pendingUntil = 0 := by
  induction after using reverseRecOn with
  | nil => simpa using idle
  | append_singleton after event ih =>
    have before := ih fun event member => quiet event (mem_append_left _ member)
    have last := quiet event (mem_append_right _ (mem_singleton_self event))
    rw [← append_assoc, run_append_singleton]
    cases event with
    | input => exact absurd last id
    | output data now =>
      simp only [step, observeOutput_fst]
      split <;> exact before

lemma run_pending {pendingUntil : Nat} (quiet : ∀ event ∈ after, event.IsOutput)
    (positive : 0 < pendingUntil) (until_ : (run sent).pendingUntil = pendingUntil)
    (empty : (run sent).outputTail = []) (fresh : (run sent).offered = false) :
    (run (sent ++ after)).pendingUntil = pendingUntil ∧
      ((run (sent ++ after)).offered = true ↔ Answered sent after) ∧
      ((run (sent ++ after)).offered = false → (∀ event ∈ after, event.now ≤ pendingUntil) →
        (run (sent ++ after)).outputTail = window (outputs after)) := by
  induction after using reverseRecOn with
  | nil =>
    refine ⟨by simpa using until_, ?_, fun _ _ => by simpa [outputs, window] using empty⟩
    rw [append_nil, fresh]
    simp [Answered]
  | append_singleton after event ih =>
    obtain ⟨until', answered, tail⟩ := ih fun event member => quiet event (mem_append_left _ member)
    have last := quiet event (mem_append_right _ (mem_singleton_self event))
    cases event with
    | input => exact absurd last id
    | output data now =>
      rw [answered_append, ← append_assoc, run_append_singleton]
      have answer : returned (sent ++ after) data now =
        ((run (sent ++ after)).observeOutput data now none).2 := rfl
      simp only [step, observeOutput_fst, answer]
      by_cases pending : (run (sent ++ after)).hasPendingCommand now = true
      · rw [if_pos pending]
        obtain ⟨_, _, open_⟩ := hasPendingCommand_iff.mp pending
        refine ⟨until', ?_, fun _ times => ?_⟩
        · have unanswered : ¬ Answered sent after := by
            rw [← answered, open_]
            simp
          simp [unanswered]
        · have times' : ∀ event ∈ after, event.now ≤ pendingUntil :=
            fun event member => times event (mem_append_left _ member)
          simp only [tail open_ times', window_append]
          simp [outputs]
      · have silent : ((run (sent ++ after)).observeOutput data now none).2 = false := by
          rw [← not_eq_true, observeOutput_snd]
          exact fun both => pending both.1
        rw [if_neg pending, silent]
        refine ⟨until', by simp [answered], fun open_ times => ?_⟩
        -- the call is in time, so it was pending
        have in_time : now ≤ pendingUntil := times _ (mem_append_right _ (mem_singleton_self _))
        refine absurd (hasPendingCommand_iff.mpr ⟨?_, ?_, open_⟩) pending
        · rw [until']
          exact positive
        · rw [until']
          exact in_time

/-- The last input ends a line, and only outputs follow it. -/
def Sent (past before : List Event) (text : Units) (sentAt : Nat) (after : List Event) : Prop :=
  past = before ++ .input text true sentAt :: after ∧ ∀ event ∈ after, event.IsOutput

/-- The line is a call of sudo or su, it is recent, and it has not been answered. -/
structure Live (before : List Event) (text : Units) (sentAt : Nat) (after : List Event)
    (now : Nat) : Prop where
  command : firstWord (lineOf (typing before ++ text)) ∈ passwordCommands
  recent : now ≤ sentAt + promptWindowMs
  unanswered : ¬ Answered (before ++ [.input text true sentAt]) after

/-- A live line, and all the output since then ends in a prompt. -/
def Offered (past : List Event) (data : Units) (now : Nat) : Prop :=
  ∃ before text sentAt after, Sent past before text sentAt after ∧
    Live before text sentAt after now ∧
    passwordPrompt (visibleTerminalText (outputs after ++ data)) = true

/-- The line fits into the window while it is typed, and the window cuts the output cleanly. -/
def InWindow (past : List Event) (data : Units) (now : Nat) : Prop :=
  ∀ before text sentAt after, Sent past before text sentAt after →
    Kept [] (typing before ++ text) ∧
      (Live before text sentAt after now →
        CleanCut ((outputs after ++ data).rdrop windowUnits) (window (outputs after ++ data)))

lemma last_input_unique {before' after' : List Event} {event event' : Event}
    (same : before ++ event :: after = before' ++ event' :: after') (input : ¬ event.IsOutput)
    (input' : ¬ event'.IsOutput) (quiet : ∀ event ∈ after, event.IsOutput)
    (quiet' : ∀ event ∈ after', event.IsOutput) :
    before = before' ∧ event = event' ∧ after = after' := by
  rcases append_eq_append_iff.mp same with ⟨mid, rfl, split⟩ | ⟨mid, rfl, split⟩
  · cases mid with
    | nil =>
      cases split
      simp
    | cons first mid =>
      cases split
      exact absurd (quiet event' (by simp)) input'
  · cases mid with
    | nil =>
      cases split
      simp
    | cons first mid =>
      cases split
      exact absurd (quiet' event (by simp)) input

lemma last_input_exists :
    (∀ event ∈ past, event.IsOutput) ∨
      ∃ before text enter sentAt after, past = before ++ .input text enter sentAt :: after ∧
        ∀ event ∈ after, event.IsOutput := by
  induction past using reverseRecOn with
  | nil => exact .inl (by simp)
  | append_singleton past event ih =>
    cases event with
    | input text enter now => exact .inr ⟨past, text, enter, now, [], rfl, by simp⟩
    | output data now =>
      rcases ih with quiet | ⟨before, text, enter, sentAt, after, rfl, quiet⟩
      · refine Or.inl fun event member => ?_
        rcases mem_append.mp member with old | new
        · exact quiet event old
        · exact mem_singleton.mp new ▸ trivial
      · refine Or.inr ⟨before, text, enter, sentAt, after ++ [.output data now], by simp, ?_⟩
        intro event member
        rcases mem_append.mp member with old | new
        · exact quiet event old
        · exact mem_singleton.mp new ▸ trivial

lemma returned_idle {past : List Event} (idle : (run past).pendingUntil = 0) :
    returned past data now = false := by
  rw [returned, ← not_eq_true, observeOutput_snd, hasPendingCommand_iff, idle]
  rintro ⟨⟨positive, _⟩, _⟩
  exact absurd positive (lt_irrefl 0)

/-- What a call returns behind a line, by the ends that the detector keeps. -/
lemma returned_sent (typed : ∀ event ∈ before, event.Typed) (line : ∀ c ∈ text, Typeable c)
    (quiet : ∀ event ∈ after, event.IsOutput) (times : ∀ event ∈ after, event.now ≤ now) :
    returned (before ++ .input text true sentAt :: after) data now = true ↔
      (commandPattern ((typing before ++ text).foldl editWindow []) = true ∧
        now ≤ sentAt + promptWindowMs ∧
        ¬ Answered (before ++ [.input text true sentAt]) after) ∧
      passwordPrompt (visibleTerminalText (window (outputs after ++ data))) = true := by
  have split : before ++ .input text true sentAt :: after =
      (before ++ [.input text true sentAt]) ++ after := by simp
  obtain ⟨clean, typed_line⟩ := run_clean typed
  obtain ⟨d, clean', _, line', result⟩ := observeInput_typed clean true sentAt line
  have ended : run (before ++ [.input text true sentAt]) = d.send sentAt none := by
    rw [run_append_singleton]
    simpa [step] using result
  rw [typed_line, ← foldl_append] at line'
  rw [← line', split]
  obtain ⟨_, _, pending | idle⟩ := send_eq clean' sentAt
  · obtain ⟨command, until_, empty, fresh⟩ := pending
    rw [← ended] at until_ empty fresh
    obtain ⟨until', answered, tail⟩ :=
      run_pending quiet (by simp [promptWindowMs]) until_ empty fresh
    rw [returned, observeOutput_snd, hasPendingCommand_iff, until', ← answered, command]
    constructor
    · rintro ⟨⟨_, recent, open_⟩, found⟩
      rw [tail open_ fun event member => (times event member).trans recent, window_append] at found
      refine ⟨⟨rfl, recent, ?_⟩, found⟩
      rw [open_]
      exact Bool.false_ne_true
    · rintro ⟨⟨_, recent, unanswered⟩, found⟩
      have open_ := (not_eq_true _).mp unanswered
      refine ⟨⟨by simp [promptWindowMs], recent, open_⟩, ?_⟩
      rw [tail open_ fun event member => (times event member).trans recent, window_append]
      exact found
  · have still := run_idle quiet (ended ▸ idle.2)
    rw [returned_idle still, idle.1]
    simp

/-- In every history a call returns true exactly if a password is to be offered, where the line
and the output fit their windows. -/
theorem offers_exactly {past : List Event} {data : Units} {now : Nat}
    (typed : ∀ event ∈ past, event.Typed)
    (times : (past.map Event.now ++ [now]).Pairwise (· ≤ ·)) (inWindow : InWindow past data now) :
    returned past data now = true ↔ Offered past data now := by
  rcases last_input_exists past with quiet | ⟨before, text, enter, sentAt, after, rfl, quiet⟩
  · have start : (run []).pendingUntil = 0 := rfl
    have idle : (run ([] ++ past)).pendingUntil = 0 := run_idle quiet start
    rw [nil_append] at idle
    rw [returned_idle idle]
    refine iff_of_false (by simp) ?_
    rintro ⟨before, text, sentAt, after, ⟨rfl, _⟩, _⟩
    exact quiet (.input text true sentAt) (by simp)
  · have earlier : ∀ event ∈ after, event.now ≤ now := by
      intro event member
      have last := (pairwise_append.mp times).2.2
      exact last event.now (mem_map.mpr ⟨event, by simp [member], rfl⟩) now (by simp)
    have typed_before : ∀ event ∈ before, event.Typed :=
      fun event member => typed event (mem_append_left _ member)
    have line : ∀ c ∈ text, Typeable c := typed (.input text enter sentAt) (by simp)
    -- any line that an offer speaks of is this one
    have only : ∀ before' text' sentAt' after',
        Sent (before ++ .input text enter sentAt :: after) before' text' sentAt' after' →
          before = before' ∧ Event.input text enter sentAt = .input text' true sentAt' ∧
            after = after' :=
      fun _ _ _ _ sent => last_input_unique sent.1 id id quiet sent.2
    cases enter
    · have idle : (run (before ++ .input text false sentAt :: after)).pendingUntil = 0 := by
        obtain ⟨d, _, idle, _, result⟩ :=
          observeInput_typed (run_clean typed_before).1 false sentAt line
        have partly : (run (before ++ [.input text false sentAt])).pendingUntil = 0 := by
          rw [run_append_singleton]
          simpa [step, result] using idle
        simpa using run_idle quiet partly
      rw [returned_idle idle]
      refine iff_of_false (by simp) ?_
      rintro ⟨before', text', sentAt', after', sent, _⟩
      obtain ⟨_, same, _⟩ := only before' text' sentAt' after' sent
      cases same
    · have here : Sent (before ++ .input text true sentAt :: after) before text sentAt after :=
        ⟨rfl, quiet⟩
      obtain ⟨kept, clean⟩ := inWindow before text sentAt after here
      rw [returned_sent typed_before line quiet earlier, foldl_editWindow kept, commandPattern_iff]
      constructor
      · rintro ⟨⟨command, recent, unanswered⟩, found⟩
        have live : Live before text sentAt after now := ⟨command, recent, unanswered⟩
        have cut := passwordPrompt_cleanCut (clean live)
        rw [rdrop_append_window] at cut
        exact ⟨before, text, sentAt, after, here, live, cut.trans found⟩
      · rintro ⟨before', text', sentAt', after', sent, live, found⟩
        obtain ⟨rfl, same, rfl⟩ := only before' text' sentAt' after' sent
        cases same
        have cut := passwordPrompt_cleanCut (clean live)
        rw [rdrop_append_window] at cut
        exact ⟨⟨live.command, live.recent, live.unanswered⟩, cut.symm.trans found⟩

def promptText : Units := units "Password: "

lemma sent_singleton {text' : Units} {sentAt' : Nat}
    (sent : Sent [.input text true sentAt] before text' sentAt' after) :
    before = [] ∧ text' = text ∧ sentAt' = sentAt ∧ after = [] := by
  have whole : [] ++ Event.input text true sentAt :: [] =
      before ++ .input text' true sentAt' :: after := sent.1
  obtain ⟨rfl, same, rfl⟩ := last_input_unique whole id id (by simp) sent.2
  cases same
  simp

theorem prompt_offered : Offered [.input (units "sudo -v") true 100] promptText 101 := by
  have inWindow : InWindow [.input (units "sudo -v") true 100] promptText 101 := by
    intro before text sentAt after sent
    obtain ⟨rfl, rfl, rfl, rfl⟩ := sent_singleton sent
    exact ⟨by decide +kernel, fun _ => cleanCut_of_short (by decide +kernel)⟩
  have line : ∀ c ∈ units "sudo -v", Typeable c := by
    have check : (units "sudo -v").all (fun c => decide (Typeable c)) = true := by decide +kernel
    simpa only [all_eq_true, decide_eq_true_eq] using check
  have typed : ∀ event ∈ [Event.input (units "sudo -v") true 100], event.Typed := by
    intro event member
    cases mem_singleton.mp member
    exact line
  exact (offers_exactly typed (by decide) inWindow).mp (by decide +kernel)

/-- A line of 513 units whose first word is not sudo. -/
def longLine : Units := units "esudo " ++ List.replicate 507 0x61

/-- A prompt behind the letter x, with white space up to 513 units. -/
def paddedPrompt : Units := units "xpassword:" ++ List.replicate 503 0x20

def erasedFace : Units := [0xd83d, 0xde00, 0x7f] ++ units "su"

theorem wrong_offers :
    (returned [.input longLine true 100] promptText 101 = true ∧
      ¬ Offered [.input longLine true 100] promptText 101) ∧
    (returned [.input (units "su") true 100] paddedPrompt 101 = true ∧
      ¬ Offered [.input (units "su") true 100] paddedPrompt 101) ∧
    (returned [.input erasedFace true 100] promptText 101 = false ∧
      Offered [.input erasedFace true 100] promptText 101) := by
  refine ⟨⟨by decide +kernel, ?_⟩, ⟨by decide +kernel, ?_⟩, by decide +kernel, ?_⟩
  · rintro ⟨before, text, sentAt, after, sent, live, found⟩
    obtain ⟨rfl, rfl, rfl, rfl⟩ := sent_singleton sent
    exact absurd live.command (by decide +kernel)
  · rintro ⟨before, text, sentAt, after, sent, live, found⟩
    obtain ⟨rfl, rfl, rfl, rfl⟩ := sent_singleton sent
    exact absurd found (by decide +kernel)
  · refine ⟨[], erasedFace, 100, [], ⟨rfl, by simp⟩, ⟨by decide +kernel, by decide, ?_⟩,
      by decide +kernel⟩
    rintro ⟨front, data, now, back, split, _⟩
    simp at split

end SavedPassword
