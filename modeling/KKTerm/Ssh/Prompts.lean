import KKTerm.Ssh.Terminal

/-!
# Answers to prompts

Each call reads the queue up to the first line end. It erases octets, and it leaves the rest of
the message that ended its line unread. Lines whose ends are the ends of their messages come
back as they were typed exactly when every character that was erased is one octet.
-/

namespace Ssh

open List Octets
open Utf8 hiding next

def cancelledText : List Char :=
  "SSH password prompt was cancelled".toList

structure Reading where
  result : Except (List Char) (List Char)
  left : List SshTerminalControl
  shown : List Char

/-- One call. The queue is closed behind its last message. -/
def readAnswer (echo : Bool) (input : List UInt8) : List SshTerminalControl → Reading
  | [] => ⟨.error cancelledText, [], []⟩
  | control :: left =>
    match readTerminalPromptInput echo input control with
    | (.reading input, shown) =>
      let later := readAnswer echo input left
      { later with shown := shown ++ later.shown }
    | (.answered answer, shown) => ⟨.ok answer, left, shown⟩
    | (.cancelled, shown) => ⟨.error cancelledText, left, shown⟩

structure ServerPrompt where
  prompt : List Char
  echo : Bool

structure Responses where
  result : Except (List Char) (List (List Char))
  left : List SshTerminalControl
  shown : List Char

/-- One call for each prompt, until one fails. -/
def respond : List ServerPrompt → List SshTerminalControl → Responses
  | [], controls => ⟨.ok [], controls, []⟩
  | prompt :: prompts, controls =>
    let first := readAnswer prompt.echo [] controls
    match first.result with
    | .error error => ⟨.error error, first.left, prompt.prompt ++ first.shown⟩
    | .ok answer =>
      let later := respond prompts first.left
      ⟨later.result.map (answer :: ·), later.left, prompt.prompt ++ first.shown ++ later.shown⟩

inductive EraseKey where
  | backspace
  | delete

def EraseKey.byte : EraseKey → UInt8
  | .backspace => 8
  | .delete => 127

inductive Stroke where
  | char (c : Char)
  | erase (key : EraseKey)

def Stroke.bytes : Stroke → List UInt8
  | .char c => String.utf8EncodeChar c
  | .erase key => [key.byte]

/-- What is left of the characters; there is none when more are erased than were typed. -/
def edit (kept : List Char) : List Stroke → Option (List Char)
  | [] => some kept
  | .char c :: rest => edit (kept ++ [c]) rest
  | .erase _ :: rest => if kept = [] then none else edit kept.dropLast rest

def erased (kept : List Char) : List Stroke → List Char
  | [] => []
  | .char c :: rest => erased (kept ++ [c]) rest
  | .erase _ :: rest => kept.getLast?.toList ++ erased kept.dropLast rest

inductive LineEnd where
  | cr
  | lf
  | crlf

def LineEnd.bytes : LineEnd → List UInt8
  | .cr => [13]
  | .lf => [10]
  | .crlf => [13, 10]

def isControl (c : Char) : Bool :=
  c.toNat < 0x20 || (0x7f ≤ c.toNat && c.toNat < 0xa0)

structure Line where
  strokes : List Stroke
  text : List Char
  lineEnd : LineEnd
  typed : edit [] strokes = some text
  plain : ∀ c, .char c ∈ strokes → isControl c = false

def Line.front (line : Line) : List UInt8 :=
  line.strokes.flatMap Stroke.bytes

def Line.bytes (line : Line) : List UInt8 :=
  line.front ++ line.lineEnd.bytes

def typedBytes (controls : List SshTerminalControl) : List UInt8 :=
  controls.flatMap fun
    | .input data => data
    | _ => []

/-- Every line end but the last stands whole at the end of a message. -/
def EndMessages : List Line → List SshTerminalControl → Prop
  | [], controls => typedBytes controls = []
  | [line], controls => typedBytes controls = line.bytes
  | line :: next :: lines, controls =>
    ∃ before data left, controls = before ++ .input (data ++ line.lineEnd.bytes) :: left ∧
      typedBytes before ++ data = line.front ∧ EndMessages (next :: lines) left

lemma typedBytes_append (front back : List SshTerminalControl) :
    typedBytes (front ++ back) = typedBytes front ++ typedBytes back :=
  flatMap_append

def editByte (input : List UInt8) (byte : UInt8) : List UInt8 :=
  if byte = 8 ∨ byte = 127 then input.dropLast else input ++ [byte]

/-- An octet that neither ends nor cancels a prompt. -/
def Editing (byte : UInt8) : Prop :=
  byte ≠ 13 ∧ byte ≠ 10 ∧ byte ≠ 3

section Calls
variable (echo : Bool) (input : List UInt8) {byte : UInt8} {bytes data : List UInt8}
  {before controls : List SshTerminalControl}

lemma promptByte_editing (editing : Editing byte) :
    (promptByte echo input byte).1 = .reading (editByte input byte) := by
  obtain ⟨cr, lf, interrupt⟩ := editing
  rw [promptByte, if_neg (not_or.mpr ⟨cr, lf⟩), if_neg interrupt, editByte]
  split_ifs <;> rfl

variable (behind : List UInt8) (left : List SshTerminalControl) {control : SshTerminalControl}

lemma promptBytes_reading {input' : List UInt8}
    (goes_on : (promptByte echo input byte).1 = .reading input') :
    (promptBytes echo input (byte :: behind)).1 = (promptBytes echo input' behind).1 := by
  obtain ⟨shown, same⟩ : ∃ shown, promptByte echo input byte = (.reading input', shown) :=
    ⟨_, Prod.ext goes_on rfl⟩
  rw [promptBytes, same]

lemma promptBytes_editing (editing : ∀ b ∈ bytes, Editing b) :
    (promptBytes echo input (bytes ++ behind)).1 =
      (promptBytes echo (bytes.foldl editByte input) behind).1 := by
  induction bytes generalizing input with
  | nil => rfl
  | cons b bytes ih =>
    obtain ⟨here, later⟩ := forall_mem_cons.mp editing
    rw [cons_append, promptBytes_reading _ _ _ (promptByte_editing _ _ here), ih _ later]
    rfl

lemma promptBytes_end (ends : byte = 13 ∨ byte = 10) :
    (promptBytes echo input (byte :: behind)).1 = .answered (fromUtf8Lossy input) := by
  rw [promptBytes, promptByte, if_pos ends]

lemma readAnswer_reading {input' : List UInt8}
    (goes_on : (readTerminalPromptInput echo input control).1 = .reading input') :
    (readAnswer echo input (control :: left)).result = (readAnswer echo input' left).result ∧
      (readAnswer echo input (control :: left)).left = (readAnswer echo input' left).left := by
  obtain ⟨shown, same⟩ : ∃ shown, readTerminalPromptInput echo input control =
    (.reading input', shown) := ⟨_, Prod.ext goes_on rfl⟩
  rw [readAnswer, same]
  exact ⟨rfl, rfl⟩

lemma readAnswer_answered {answer : List Char}
    (done : (readTerminalPromptInput echo input control).1 = .answered answer) :
    (readAnswer echo input (control :: left)).result = .ok answer ∧
      (readAnswer echo input (control :: left)).left = left := by
  obtain ⟨shown, same⟩ : ∃ shown, readTerminalPromptInput echo input control =
    (.answered answer, shown) := ⟨_, Prod.ext done rfl⟩
  rw [readAnswer, same]
  exact ⟨rfl, rfl⟩

/-- A message that neither closes the terminal nor ends the line. -/
lemma readTerminalPromptInput_editing (open_ : control ≠ .close)
    (editing : ∀ b ∈ typedBytes [control], Editing b) :
    (readTerminalPromptInput echo input control).1 =
      .reading ((typedBytes [control]).foldl editByte input) := by
  cases control with
  | input data =>
    rw [typedBytes, flatMap_singleton] at editing ⊢
    have whole := promptBytes_editing echo input [] editing
    rw [append_nil] at whole
    exact whole
  | resize size => rfl
  | close => exact absurd rfl open_

/-- A call returns what was typed before the first line end, and nothing of its message is left. -/
lemma readAnswer_line (open_ : .close ∉ before)
    (editing : ∀ b ∈ typedBytes before ++ data, Editing b) (ends : byte = 13 ∨ byte = 10) :
    (readAnswer echo input (before ++ .input (data ++ byte :: behind) :: left)).result =
        .ok (fromUtf8Lossy ((typedBytes before ++ data).foldl editByte input)) ∧
      (readAnswer echo input (before ++ .input (data ++ byte :: behind) :: left)).left = left := by
  induction before generalizing input with
  | nil =>
    have editing : ∀ b ∈ data, Editing b := editing
    refine readAnswer_answered _ _ _ ?_
    rw [readTerminalPromptInput, promptBytes_editing _ _ _ editing, promptBytes_end _ _ _ ends]
    rfl
  | cons control before ih =>
    rw [mem_cons, not_or] at open_
    have spelt : typedBytes (control :: before) ++ data =
        typedBytes [control] ++ (typedBytes before ++ data) := by
      rw [← append_assoc, ← typedBytes_append]
      rfl
    rw [spelt] at editing ⊢
    have message := readTerminalPromptInput_editing echo input (Ne.symm open_.1)
      (fun b member => editing b (mem_append_left _ member))
    obtain ⟨result, rest⟩ := readAnswer_reading echo input
      (before ++ .input (data ++ byte :: behind) :: left) message
    obtain ⟨result', rest'⟩ := ih ((typedBytes [control]).foldl editByte input) open_.2
      (fun b member => editing b (mem_append_right _ member))
    rw [foldl_append]
    exact ⟨result.trans result', rest.trans rest'⟩

lemma exists_end_message {front behind : List UInt8}
    (spelt : typedBytes controls = front ++ byte :: behind) :
    ∃ before data behind left, controls = before ++ .input (data ++ byte :: behind) :: left ∧
      typedBytes before ++ data = front := by
  induction controls generalizing front with
  | nil => exact absurd spelt.symm (append_ne_nil_of_right_ne_nil _ (cons_ne_nil _ _))
  | cons control controls ih =>
    have split_ : typedBytes [control] ++ typedBytes controls = front ++ byte :: behind := by
      rw [← spelt, ← typedBytes_append]
      rfl
    have further : ∀ later, front = typedBytes [control] ++ later →
        typedBytes controls = later ++ byte :: behind →
        ∃ before data behind left,
          control :: controls = before ++ .input (data ++ byte :: behind) :: left ∧
            typedBytes before ++ data = front := by
      rintro later rfl inside
      obtain ⟨before, data, behind, left, rfl, own⟩ := ih inside
      refine ⟨control :: before, data, behind, left, rfl, ?_⟩
      rw [← own, ← append_assoc, ← typedBytes_append]
      rfl
    rcases append_eq_append_iff.mp split_ with ⟨later, here, inside⟩ | ⟨more, here, inside⟩
    · exact further later here inside
    · cases more with
      | nil =>
        rw [append_nil] at here
        exact further [] (by rw [← here, append_nil]) inside.symm
      | cons b more =>
        obtain ⟨rfl, -⟩ := List.cons.inj inside
        cases control with
        | input data =>
          rw [typedBytes, flatMap_singleton] at here
          exact ⟨[], front, more, controls, by rw [← here]; rfl, rfl⟩
        | resize size => simp [typedBytes] at here
        | close => simp [typedBytes] at here

end Calls

lemma LineEnd.exists_cons (lineEnd : LineEnd) :
    ∃ byte behind, lineEnd.bytes = byte :: behind ∧ (byte = 13 ∨ byte = 10) := by
  cases lineEnd with
  | cr => exact ⟨13, [], rfl, .inl rfl⟩
  | lf => exact ⟨10, [], rfl, .inr rfl⟩
  | crlf => exact ⟨13, [10], rfl, .inl rfl⟩

/-- An octet that is put behind the others. -/
def Written (b : UInt8) : Prop :=
  Editing b ∧ b ≠ 8 ∧ b ≠ 127

lemma written_of_plain {c : Char} (plain : isControl c = false) :
    ∀ b ∈ String.utf8EncodeChar c, Written b := by
  intro b member
  rw [isControl, Bool.or_eq_false_iff, decide_eq_false_iff_not, Bool.and_eq_false_iff,
    decide_eq_false_iff_not, decide_eq_false_iff_not] at plain
  have range : 0x20 ≤ b.toNat ∧ b.toNat ≠ 0x7f := by
    rcases Nat.lt_or_ge c.toNat 0x80 with ascii | wide
    · rw [encodeChar_of_ascii ascii, mem_singleton] at member
      rw [member, ofNat_toNat_ascii ascii]
      omega
    · have beyond := le_of_mem_encodeChar wide b member
      omega
  refine ⟨⟨?_, ?_, ?_⟩, ?_, ?_⟩ <;>
  · rintro rfl
    revert range
    decide

lemma foldl_written {bytes : List UInt8} (written : ∀ b ∈ bytes, Written b)
    (input : List UInt8) : bytes.foldl editByte input = input ++ bytes := by
  induction bytes generalizing input with
  | nil => exact (append_nil input).symm
  | cons b bytes ih =>
    obtain ⟨⟨-, left_, right_⟩, later⟩ := forall_mem_cons.mp written
    rw [foldl_cons, ih later, editByte, if_neg (not_or.mpr ⟨left_, right_⟩), append_assoc]
    rfl

lemma foldl_erase (key : EraseKey) (input : List UInt8) :
    [key.byte].foldl editByte input = input.dropLast := by
  cases key with
  | backspace => rfl
  | delete => rfl

lemma editing_strokes {strokes : List Stroke}
    (plain : ∀ c, .char c ∈ strokes → isControl c = false) :
    ∀ b ∈ strokes.flatMap Stroke.bytes, Editing b := by
  intro b member
  obtain ⟨stroke, typed, own⟩ := mem_flatMap.mp member
  cases stroke with
  | char c => exact (written_of_plain (plain c typed) b own).1
  | erase key =>
    rw [Stroke.bytes, mem_singleton] at own
    subst own
    cases key <;> exact ⟨by decide, by decide, by decide⟩

lemma ascii_of_utf8Size {c : Char} (size : c.utf8Size - 1 = 0) : c.toNat < 0x80 := by
  by_contra wide
  have two : 2 ≤ c.utf8Size := le_utf8Size (Nat.le_refl 2) (by decide) (Nat.not_lt.mp wide)
  omega

/-- The octets that stay behind of the characters that were erased. -/
def surplus (chars : List Char) : Nat :=
  (chars.map (fun c => c.utf8Size - 1)).sum

section Strokes
variable {strokes : List Stroke} {kept text : List Char} {input : List UInt8}

lemma edit_erase_eq_some {key : EraseKey} (typed : edit kept (.erase key :: strokes) = some text) :
    ∃ front c, kept = front ++ [c] ∧ edit front strokes = some text ∧
      erased kept (.erase key :: strokes) = c :: erased front strokes := by
  rw [edit] at typed
  rcases eq_nil_or_concat kept with rfl | ⟨front, c, rfl⟩
  · cases typed
  · rw [concat_eq_append] at typed ⊢
    rw [if_neg (append_ne_nil_of_right_ne_nil _ (cons_ne_nil c [])), dropLast_concat] at typed
    refine ⟨front, c, rfl, typed, ?_⟩
    rw [erased, getLast?_concat, dropLast_concat]
    rfl

/-- Where only single octets are erased, the octets are those of the characters. -/
lemma foldl_of_ascii (plain : ∀ c, .char c ∈ strokes → isControl c = false)
    (typed : edit kept strokes = some text) (ascii : ∀ c ∈ erased kept strokes, c.toNat < 0x80) :
    (strokes.flatMap Stroke.bytes).foldl editByte (encode kept) = encode text := by
  induction strokes generalizing kept with
  | nil =>
    cases typed
    rfl
  | cons stroke strokes ih =>
    have later : ∀ c, .char c ∈ strokes → isControl c = false :=
      fun c member => plain c (mem_cons_of_mem stroke member)
    rw [flatMap_cons, foldl_append]
    cases stroke with
    | char c =>
      have written := written_of_plain (plain c mem_cons_self)
      have more : encode kept ++ String.utf8EncodeChar c = encode (kept ++ [c]) := by
        rw [encode_append, encode_cons]
        exact congrArg (encode kept ++ ·) (append_nil _).symm
      rw [Stroke.bytes, foldl_written written, more]
      exact ih later typed ascii
    | erase key =>
      obtain ⟨front, c, rfl, typed, gone⟩ := edit_erase_eq_some typed
      rw [gone] at ascii
      obtain ⟨own, ascii⟩ := forall_mem_cons.mp ascii
      have less : (encode (front ++ [c])).dropLast = encode front := by
        rw [encode_append, encode_ascii own]
        exact dropLast_concat
      rw [Stroke.bytes, foldl_erase, less]
      exact ih later typed ascii

lemma length_encode_concat (kept : List Char) (c : Char) :
    (encode (kept ++ [c])).length = (encode kept).length + c.utf8Size := by
  rw [encode_append, length_append, length_encode_cons]
  rfl

/-- Every octet of a character that is erased stays, except one. -/
lemma length_foldl (plain : ∀ c, .char c ∈ strokes → isControl c = false)
    (typed : edit kept strokes = some text) (k : Nat)
    (more : (encode kept).length + k = input.length) :
    (encode text).length + (k + surplus (erased kept strokes)) =
      ((strokes.flatMap Stroke.bytes).foldl editByte input).length := by
  induction strokes generalizing kept input k with
  | nil =>
    cases typed
    exact more
  | cons stroke strokes ih =>
    have later : ∀ c, .char c ∈ strokes → isControl c = false :=
      fun c member => plain c (mem_cons_of_mem stroke member)
    rw [flatMap_cons, foldl_append]
    cases stroke with
    | char c =>
      rw [Stroke.bytes, foldl_written (written_of_plain (plain c mem_cons_self))]
      refine ih later typed k ?_
      rw [length_encode_concat, length_append, ← more, String.length_utf8EncodeChar]
      omega
    | erase key =>
      obtain ⟨front, c, rfl, typed, gone⟩ := edit_erase_eq_some typed
      have size := c.utf8Size_pos
      rw [length_encode_concat] at more
      have fewer : (encode front).length + (k + (c.utf8Size - 1)) = input.dropLast.length := by
        rw [length_dropLast]
        omega
      have rest := ih later typed _ fewer
      rw [Stroke.bytes, foldl_erase, gone, ← rest, surplus, map_cons, sum_cons, surplus,
        Nat.add_assoc k]

end Strokes

def Line.erased (line : Line) : List Char :=
  Ssh.erased [] line.strokes

/-- What the octets of a line decode to is its text when only single octets were erased. -/
lemma decoded_eq_iff (line : Line) :
    fromUtf8Lossy (line.front.foldl editByte []) = line.text ↔
      ∀ c ∈ line.erased, c.toNat < 0x80 := by
  constructor
  · intro same c member
    have none_ : (encode []).length + 0 = ([] : List UInt8).length := rfl
    have lengths := length_foldl line.plain line.typed 0 none_
    have bound := length_le_fromUtf8Lossy (line.front.foldl editByte [])
    rw [same] at bound
    have none_ : surplus line.erased = 0 := by
      rw [Line.front] at bound
      rw [Line.erased]
      omega
    exact ascii_of_utf8Size (List.sum_eq_zero_iff_forall_eq_nat.mp none_ _ (mem_map_of_mem member))
  · intro ascii
    have octets := foldl_of_ascii line.plain line.typed ascii
    rw [Line.front]
    exact (congrArg fromUtf8Lossy octets).trans (fromUtf8Lossy_encode line.text)

section Lines
variable {line : Line} {lines : List Line} {controls : List SshTerminalControl} (echo : Bool)

lemma readAnswer_front {before : List SshTerminalControl} {data : List UInt8} {byte : UInt8}
    (behind : List UInt8) (left : List SshTerminalControl) (open_ : .close ∉ before)
    (own : typedBytes before ++ data = line.front)
    (ends : byte = 13 ∨ byte = 10) :
    (readAnswer echo [] (before ++ .input (data ++ byte :: behind) :: left)).result =
        .ok (fromUtf8Lossy (line.front.foldl editByte [])) ∧
      (readAnswer echo [] (before ++ .input (data ++ byte :: behind) :: left)).left = left := by
  have editing : ∀ b ∈ typedBytes before ++ data, Editing b := by
    rw [own]
    exact editing_strokes line.plain
  rw [← own]
  exact readAnswer_line echo [] behind left open_ editing ends

/-- The first call decodes the first line, and the next one begins with the next line. -/
lemma readAnswer_first (open_ : .close ∉ controls) (cut : EndMessages (line :: lines) controls) :
    ∃ left, (readAnswer echo [] controls).result =
        .ok (fromUtf8Lossy (line.front.foldl editByte [])) ∧
      (readAnswer echo [] controls).left = left ∧ .close ∉ left ∧
        (lines ≠ [] → EndMessages lines left) := by
  obtain ⟨byte, behind, spelt, ends⟩ := line.lineEnd.exists_cons
  cases lines with
  | nil =>
    have whole : typedBytes controls = line.front ++ byte :: behind := spelt ▸ cut
    obtain ⟨before, data, behind, left, rfl, own⟩ := exists_end_message whole
    rw [mem_append, not_or] at open_
    obtain ⟨result, rest⟩ := readAnswer_front echo behind left open_.1 own ends
    exact ⟨left, result, rest, fun member => open_.2 (mem_cons_of_mem _ member),
      fun some_ => absurd rfl some_⟩
  | cons next lines =>
    obtain ⟨before, data, left, rfl, own, later⟩ := cut
    rw [mem_append, not_or] at open_
    rw [spelt]
    obtain ⟨result, rest⟩ := readAnswer_front echo behind left open_.1 own ends
    exact ⟨left, result, rest, fun member => open_.2 (mem_cons_of_mem _ member), fun _ => later⟩

lemma respond_cons_ok {prompt : ServerPrompt} {prompts : List ServerPrompt} {answer : List Char}
    (first : (readAnswer prompt.echo [] controls).result = .ok answer) :
    (respond (prompt :: prompts) controls).result =
      (respond prompts (readAnswer prompt.echo [] controls).left).result.map (answer :: ·) := by
  rw [respond, first]

lemma map_cons_eq_ok {answer text : List Char} {texts : List (List Char)}
    {result : Except (List Char) (List (List Char))} :
    result.map (answer :: ·) = .ok (text :: texts) ↔ answer = text ∧ result = .ok texts := by
  cases result with
  | error error => exact iff_of_false nofun (fun both => nomatch both.2)
  | ok answers => rw [Except.map, Except.ok.injEq, Except.ok.injEq, List.cons.injEq]

end Lines

/-- As many calls as there are lines return the texts exactly when every character that was
erased is one octet. -/
theorem answers_iff {lines : List Line} {prompts : List ServerPrompt}
    (as_many : prompts.length = lines.length) {controls : List SshTerminalControl}
    (open_ : .close ∉ controls) (cut : EndMessages lines controls) :
    (respond prompts controls).result = .ok (lines.map Line.text) ↔
      ∀ line ∈ lines, ∀ c ∈ line.erased, c.toNat < 0x80 := by
  induction lines generalizing prompts controls with
  | nil =>
    cases length_eq_zero_iff.mp as_many
    exact iff_of_true rfl nofun
  | cons line lines ih =>
    obtain ⟨prompt, prompts, rfl⟩ := exists_cons_of_length_eq_add_one as_many
    rw [length_cons, length_cons, Nat.add_right_cancel_iff] at as_many
    obtain ⟨left, first, rest, open_, later⟩ := readAnswer_first prompt.echo open_ cut
    rw [respond_cons_ok first, rest, map_cons, map_cons_eq_ok, decoded_eq_iff, forall_mem_cons]
    refine and_congr_right fun _ => ?_
    cases lines with
    | nil =>
      cases length_eq_zero_iff.mp as_many
      exact iff_of_true rfl nofun
    | cons next lines => exact ih as_many open_ (later (cons_ne_nil next lines))

def Stroke.isPlain : Stroke → Bool
  | .char c => !isControl c
  | .erase _ => true

lemma plain_of_all {strokes : List Stroke} (all : strokes.all Stroke.isPlain = true) (c : Char)
    (typed : .char c ∈ strokes) : isControl c = false := by
  have own := all_eq_true.mp all _ typed
  rw [Stroke.isPlain, Bool.not_eq_true'] at own
  exact own

/-- A wrong character is typed and erased, and nothing before the line end of the next line. -/
def sampleLines : List Line :=
  [⟨[.char 'a', .char 'x', .erase .delete, .char 'é'], ['a', 'é'], .crlf, rfl,
      plain_of_all (by decide)⟩,
    ⟨[], [], .lf, rfl, plain_of_all (by decide)⟩]

def samplePrompts : List ServerPrompt :=
  [⟨"Password: ".toList, false⟩, ⟨"Code: ".toList, true⟩]

def sampleControls : List SshTerminalControl :=
  [.input [0x61, 0x78], .resize ⟨80, 24, 0, 0⟩, .input [127, 0xc3], .input [0xa9, 13, 10],
    .input [10]]

theorem sample_answers :
    (respond samplePrompts sampleControls).result = .ok (sampleLines.map Line.text) ↔
      ∀ line ∈ sampleLines, ∀ c ∈ line.erased, c.toNat < 0x80 :=
  answers_iff rfl (by decide)
    ⟨[.input [0x61, 0x78], .resize ⟨80, 24, 0, 0⟩, .input [127, 0xc3]], [0xa9], [.input [10]],
      rfl, rfl, rfl⟩

def shortLine (c : Char) (lineEnd : LineEnd) (plain : isControl c = false) : Line :=
  ⟨[.char c], [c], lineEnd, rfl, fun d typed => by
    cases List.mem_singleton.mp typed
    exact plain⟩

/-- The line behind a line end is lost with its message, a line feed that is left for the next
message is an empty answer, and an octet of an erased character stays. -/
theorem answers_lost_or_invented :
    (∃ controls, typedBytes controls = [shortLine 'a' .cr rfl, shortLine 'b' .cr rfl].flatMap
        Line.bytes ∧ (respond samplePrompts controls).result ≠ .ok [['a'], ['b']]) ∧
      (∃ controls, typedBytes controls = [shortLine 'a' .crlf rfl, shortLine 'b' .cr rfl].flatMap
        Line.bytes ∧ (respond samplePrompts controls).result ≠ .ok [['a'], ['b']]) ∧
      edit [] [.char 'é', .erase .backspace] = some [] ∧
        (respond [⟨[], false⟩] [.input [0xc3, 0xa9, 8, 13]]).result ≠ .ok [[]] := by
  refine ⟨⟨[.input [0x61, 13, 0x62, 13]], by decide +kernel, ?_⟩,
    ⟨[.input [0x61, 13], .input [10, 0x62, 13]], by decide +kernel, ?_⟩, rfl, ?_⟩
  · nofun
  · have made : (respond samplePrompts [.input [0x61, 13], .input [10, 0x62, 13]]).result =
        .ok [['a'], []] := rfl
    rw [made, ne_eq, Except.ok.injEq]
    decide
  · have made : (respond [⟨[], false⟩] [.input [0xc3, 0xa9, 8, 13]]).result =
        .ok [[replacement]] := rfl
    rw [made, ne_eq, Except.ok.injEq]
    decide

end Ssh
