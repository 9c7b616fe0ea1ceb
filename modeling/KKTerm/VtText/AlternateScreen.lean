import KKTerm.VtText.Safety

/-!
# Visits to the alternate screen

A visit is the sequence ESC [ ? 1049 h, any characters, and ESC [ ? 1049 l. An
escape character starts a new sequence in every parser state but the four that
are already inside an escape; in those it is consumed. When both switches are
read, a visit is exact: the main screen and its cursor come back as they were
and nothing is recorded.
-/

namespace VtText

open Option hiding all_eq_true
open Checked List

def esc : Char := Char.ofNat 0x1b

def altParams : List Char := ['?', '1', '0', '4', '9']

/-- ESC [ ? 1049 followed by the final byte. -/
def modeSequence (finalByte : Char) : List Char :=
  esc :: '[' :: (altParams ++ [finalByte])

def enterAlternate : List Char := modeSequence 'h'

def leaveAlternate : List Char := modeSequence 'l'

/-- The parser states in which an escape character starts a new sequence. -/
def readsEscape : ParserState → Bool
  | .escape | .escapeIntermediate | .oscEscape | .consumeStEscape => false
  | .ground | .csi | .osc | .consumeSt => true

def isParamByte (ch : Char) : Bool :=
  decide (0x30 ≤ ch.toNat ∧ ch.toNat ≤ 0x3f)

namespace VtTextRenderer
variable {s : VtTextRenderer}

lemma feedChars_cons (s : VtTextRenderer) (ch : Char) (rest : List Char) :
    s.feedChars (ch :: rest) = (s.step ch).bind (fun s' => s'.feedChars rest) :=
  rfl

lemma feedChars_nil (s : VtTextRenderer) : s.feedChars [] = some s :=
  rfl

lemma feedChars_append (s : VtTextRenderer) (front back : List Char) :
    s.feedChars (front ++ back) = (s.feedChars front).bind (fun s' => s'.feedChars back) :=
  foldlM_append

/-- An escape character that is read leaves only the parser state behind it. -/
lemma step_esc (reads : readsEscape s.state) :
    s.step esc = some { s with
      state := match s.state with
        | .osc => .oscEscape
        | .consumeSt => .consumeStEscape
        | _ => .escape } := by
  cases hs : s.state with
  | escape | escapeIntermediate | oscEscape | consumeStEscape => rw [hs] at reads; cases reads
  | ground => simp only [step, hs]; rfl
  | csi => simp only [step, hs]; rfl
  | osc => simp only [step, hs]; rfl
  | consumeSt => simp only [step, hs]; rfl

lemma step_bracket (pending : s.state = .escape ∨ s.state = .oscEscape ∨
    s.state = .consumeStEscape) :
    s.step '[' = some { s with
      wrapPending := false, csiParams := [], csiHasIntermediate := false, state := .csi } := by
  rcases pending with hs | hs | hs <;> simp only [step, hs] <;> rfl

variable {ch finalByte : Char} {text : List Char}

lemma step_param (inCsi : s.state = .csi) (room : s.csiParams.length < 64)
    (digit : isParamByte ch) : s.step ch = some { s with csiParams := s.csiParams ++ [ch] } := by
  have range := of_decide_eq_true digit
  simp only [step, inCsi, stepCsi, range, room, if_true, and_self]

lemma feed_params (inCsi : s.state = .csi) (digits : List Char)
    (room : s.csiParams.length + digits.length ≤ 64) (all : ∀ ch ∈ digits, isParamByte ch) :
    s.feedChars digits = some { s with csiParams := s.csiParams ++ digits } := by
  induction digits generalizing s with
  | nil => rw [append_nil]; rfl
  | cons ch digits ih =>
    rw [length_cons] at room
    rw [feedChars_cons, step_param inCsi (by omega) (all ch mem_cons_self), bind_some]
    have rest := ih (s := { s with csiParams := s.csiParams ++ [ch] }) inCsi
      (by rw [length_append, length_singleton]; omega)
      (fun c hc => all c (mem_cons_of_mem ch hc))
    rw [rest]
    simp only [append_assoc, singleton_append]

/-- When the escape is read, only the final byte remains to be executed. -/
lemma feed_modeSequence (reads : readsEscape s.state) (finalByte : Char) :
    s.feedChars (modeSequence finalByte) = step { s with
      wrapPending := false, csiParams := altParams, csiHasIntermediate := false,
      state := .csi } finalByte := by
  have escaped := step_esc reads
  have opened := step_bracket (s := { s with
    state := match s.state with
      | .osc => .oscEscape
      | .consumeSt => .consumeStEscape
      | _ => .escape }) (by cases hs : s.state <;> simp [hs, readsEscape] at reads ⊢)
  have digits := feed_params (s := { s with
    wrapPending := false, csiParams := [], csiHasIntermediate := false, state := .csi })
    rfl altParams (Nat.le_of_ble_eq_true rfl) (all_eq_true.mp rfl)
  rw [modeSequence, feedChars_cons, escaped, bind_some, feedChars_cons, opened,
    bind_some, feedChars_append, digits, bind_some]
  simp only [feedChars_cons, feedChars_nil, bind_fun_some, nil_append]

lemma altParams_values : csiParamValues altParams = [1049] := by
  decide +kernel

lemma step_mode_byte (inCsi : s.state = .csi) (shown : s.csiHasIntermediate = false)
    (params : s.csiParams = altParams) (final : finalByte = 'h' ∨ finalByte = 'l') :
    s.step finalByte =
      setPrivateMode (finalByte = 'h') { s with wrapPending := false, state := .ground } 1049 := by
  have isPrivate : csiIsPrivate altParams = true := by decide
  rcases final with rfl | rfl
  · simp only [step, inCsi]
    unfold stepCsi
    simp [shown, csiDispatch, params, isPrivate, altParams_values, setPrivateModes]
  · simp only [step, inCsi]
    unfold stepCsi
    simp [shown, csiDispatch, params, isPrivate, altParams_values, setPrivateModes]

lemma feed_enter (reads : readsEscape s.state) (main : s.mainScreen = none) :
    s.feedChars enterAlternate = some { s with
      screen := replicate s.rows (blankRow s.cols)
      mainScreen := some (s.screen, s.row, s.col)
      row := 0, col := 0, wrapPending := false, state := .ground
      csiParams := altParams, csiHasIntermediate := false } := by
  rw [enterAlternate, feed_modeSequence reads, step_mode_byte rfl rfl rfl (.inl rfl)]
  simp [setPrivateMode, isScreenMode, main]

lemma feed_leave (reads : readsEscape s.state) {main : List (List Char)} {row col : Nat}
    (held : s.mainScreen = some (main, row, col)) :
    s.feedChars leaveAlternate = normalizeScreen { s with
      screen := main, mainScreen := none, row, col, wrapPending := false, state := .ground
      csiParams := altParams, csiHasIntermediate := false } := by
  rw [leaveAlternate, feed_modeSequence reads, step_mode_byte rfl rfl rfl (.inr rfl)]
  simp [setPrivateMode, isScreenMode, held]

lemma normalizeScreen_of_wellFormed (h : WellFormed s) : s.normalizeScreen = some s := by
  have hrow := h.row_lt
  have hcol := h.col_lt
  have fits : s.screen.length - s.rows = 0 := by rw [h.shape.length_eq]; omega
  have full : window s.screen s.rows s.cols 0 = s.screen := by
    simp [window, take_of_length_le (Nat.le_of_eq h.shape.length_eq), h.shape.length_eq]
  rw [normalizeScreen_eq (by omega) (by omega)]
  simp only [fits, Nat.min_zero, refit_of_shape h.shape, full, take_zero, flatMap_nil,
    append_nil, Nat.sub_zero, Nat.min_eq_left (show s.row ≤ s.rows - 1 by omega),
    Nat.min_eq_left (show s.col ≤ s.cols - 1 by omega)]

/-- No character of the text completes a screen switch or a size change. -/
def Undisturbed : VtTextRenderer → List Char → Prop
  | _, [] => True
  | s, ch :: rest => s.readsSwitch ch = false ∧ s.readsSizeChange ch = false ∧
      ∀ s', s.step ch = some s' → Undisturbed s' rest

lemma Undisturbed.left {front back : List Char}
    (calm : Undisturbed s (front ++ back)) : Undisturbed s front := by
  induction front generalizing s with
  | nil => exact trivial
  | cons ch front ih =>
    obtain ⟨noSwitch, noSize, tail⟩ := calm
    exact ⟨noSwitch, noSize, fun s' hs => ih (tail s' hs)⟩

lemma feedChars_quiet (h : WellFormed s) (text : List Char) (calm : Undisturbed s text) :
    Safe s (s.feedChars text) := by
  induction text generalizing s with
  | nil => exact safe_some h (.refl s)
  | cons ch rest ih =>
    obtain ⟨noSwitch, noSize, tail⟩ := calm
    obtain ⟨s₁, hstep, h₁, hq⟩ := step_spec h ch
    rw [feedChars_cons, hstep, bind_some]
    exact (ih h₁ (tail s₁ hstep)).pre (hq noSwitch noSize)

/-- No control sequence is being collected and none is about to be. -/
def Idle (s : VtTextRenderer) : Prop :=
  s.state = .ground ∨ s.state = .escapeIntermediate

def isPrintable (ch : Char) : Bool :=
  decide (0x20 ≤ ch.toNat ∧ ch.toNat ≤ 0x7e)

lemma step_ground_print (ground : s.state = .ground) (low : 0x20 ≤ ch.toNat)
    (high : ¬ (0x7f ≤ ch.toNat ∧ ch.toNat ≤ 0x9f)) : s.step ch = s.print ch := by
  have noString : isC1StringStart ch = false := by
    simp only [isC1StringStart, Bool.or_eq_false_iff, decide_eq_false_iff_not]
    omega
  have noControl : ch.toNat ≠ 0x1b ∧ ch.toNat ≠ 0x9b ∧ ch.toNat ≠ 0x9d ∧ ch.toNat ≠ 0x9c ∧
      ch.toNat ≠ 0x0d ∧ ¬ (ch.toNat = 0x0a ∨ ch.toNat = 0x0b ∨ ch.toNat = 0x0c) ∧
      ch.toNat ≠ 0x08 ∧ ch.toNat ≠ 0x09 ∧
      ¬ (ch.toNat < 0x20 ∨ (0x7f ≤ ch.toNat ∧ ch.toNat ≤ 0x9f)) := by omega
  simp only [step, ground, stepGround, noString, noControl, if_false, Bool.false_eq_true]

lemma step_ground_printable (ground : s.state = .ground) (shown : isPrintable ch) :
    s.step ch = s.print ch := by
  have range := of_decide_eq_true shown
  exact step_ground_print ground range.1 (by omega)

lemma step_idle (h : WellFormed s) (at_rest : Idle s) (shown : isPrintable ch) :
    Ensures (s.step ch) Idle := by
  rcases at_rest with ground | intermediate
  · rw [step_ground_printable ground shown]
    exact (print_spec h ch).mono (fun _ hs => Or.inl (hs.2.trans ground))
  · simp only [step, intermediate]
    split
    · exact ensures_some (.inl rfl)
    · exact ensures_some (.inr intermediate)

lemma undisturbed_of_not_csi {rest : List Char} (outside : s.state ≠ .csi)
    (tail : ∀ s', s.step ch = some s' → Undisturbed s' rest) : Undisturbed s (ch :: rest) := by
  have undispatched : s.dispatches ch = false := by simp [dispatches, outside]
  exact ⟨by rw [readsSwitch, undispatched]; rfl, by rw [readsSizeChange, undispatched]; rfl, tail⟩

lemma undisturbed_printable (h : WellFormed s) (at_rest : Idle s)
    (shown : ∀ ch ∈ text, isPrintable ch) : Undisturbed s text := by
  induction text generalizing s with
  | nil => exact trivial
  | cons ch rest ih =>
    have outside : s.state ≠ .csi := by rcases at_rest with hs | hs <;> rw [hs] <;> decide
    refine undisturbed_of_not_csi outside (fun s' hstep => ?_)
    exact ih ((step_wellFormed h ch).of_eq_some hstep)
      ((step_idle h at_rest (shown ch mem_cons_self)).of_eq_some hstep)
      (fun c hc => shown c (mem_cons_of_mem ch hc))

/-- The escape character is consumed inside an unfinished escape. -/
lemma step_esc_unread (unread : readsEscape s.state = false) : Ensures (s.step esc) Idle := by
  cases hs : s.state with
  | ground | csi | osc | consumeSt => rw [hs] at unread; cases unread
  | escape | oscEscape | consumeStEscape =>
    simp only [step, hs]
    exact ensures_some (.inl rfl)
  | escapeIntermediate =>
    simp only [step, hs]
    exact ensures_some (.inr hs)

/-- A switch whose escape character is consumed is plain text and switches nothing. -/
lemma undisturbed_modeSequence (h : WellFormed s) (unread : readsEscape s.state = false)
    (shown : isPrintable finalByte) : Undisturbed s (modeSequence finalByte) := by
  have outside : s.state ≠ .csi := by
    intro hs
    rw [hs] at unread
    cases unread
  refine undisturbed_of_not_csi outside (fun s' hstep => ?_)
  refine undisturbed_printable ((step_wellFormed h esc).of_eq_some hstep)
    ((step_esc_unread unread).of_eq_some hstep) (fun ch hch => ?_)
  simp only [altParams, cons_append, nil_append, mem_cons, not_mem_nil, or_false] at hch
  rcases hch with rfl | rfl | rfl | rfl | rfl | rfl | rfl <;> first | exact shown | decide

/-- The renderer just after the switch to the alternate screen. -/
def entered (s : VtTextRenderer) : VtTextRenderer :=
  { s with
    screen := List.replicate s.rows (blankRow s.cols)
    mainScreen := some (s.screen, s.row, s.col)
    row := 0, col := 0, wrapPending := false, state := .ground
    csiParams := altParams, csiHasIntermediate := false }

lemma entered_wellFormed (h : WellFormed s) : WellFormed s.entered := by
  have hrow := h.row_lt
  have hcol := h.col_lt
  exact ⟨Shape.replicate _ _, by show 0 < s.rows; omega, by show 0 < s.cols; omega, h.rows_le,
    h.cols_le⟩

/-- The renderer after a visit that left the given cursor save behind. -/
def visited (s : VtTextRenderer) (savedCursor : Option (Nat × Nat)) : VtTextRenderer :=
  { s with
    wrapPending := false, state := .ground, csiParams := altParams, csiHasIntermediate := false
    savedCursor, pending := [] }

/-- A visit whose two switches are read records nothing and restores the main
screen and its cursor exactly. -/
lemma feed_visit (h : WellFormed s) (main : s.mainScreen = none) (reads : readsEscape s.state)
    (calm : Undisturbed s.entered text) {s₁ : VtTextRenderer}
    (inside : s.entered.feedChars text = some s₁) (readsEnd : readsEscape s₁.state) :
    s.feed (enterAlternate ++ text ++ leaveAlternate) =
      some (s.pending, s.visited s₁.savedCursor) := by
  have hq := ((feedChars_quiet (entered_wellFormed h) text calm).of_eq_some inside).2
  have held : s₁.mainScreen = some (s.screen, s.row, s.col) := hq.mainScreen_eq
  have silent : s₁.pending = s.pending := hq.silent rfl
  have rows : s₁.rows = s.rows := hq.rows_eq
  have cols : s₁.cols = s.cols := hq.cols_eq
  have restored : WellFormed { s₁ with
      screen := s.screen, mainScreen := none, row := s.row, col := s.col, wrapPending := false
      state := .ground, csiParams := altParams, csiHasIntermediate := false } := by
    refine ⟨?_, ?_, ?_, ?_, ?_⟩ <;> simp only [rows, cols]
    · exact h.shape
    · exact h.row_lt
    · exact h.col_lt
    · exact h.rows_le
    · exact h.cols_le
  have entering : s.feedChars enterAlternate = some s.entered := feed_enter reads main
  unfold feed
  rw [feedChars_append, feedChars_append, entering, bind_some, inside, bind_some,
    feed_leave readsEnd held, normalizeScreen_of_wellFormed restored]
  simp [takePending, visited, silent, rows, cols, main]

end VtTextRenderer

open VtTextRenderer

/-- Two visits to the alternate screen from one renderer state. If both switches
of both visits are read by the parser and the visits leave the same cursor save,
then they hand out the same text, which is what was pending before, and leave
the same renderer for every continuation; nothing is recorded on the way. -/
theorem alternate_screen_noninterference {s s₁ s₂ : VtTextRenderer} {text₁ text₂ : List Char}
    (h : WellFormed s) (main : s.mainScreen = none)
    (calm₁ : Undisturbed s.entered text₁) (calm₂ : Undisturbed s.entered text₂)
    (inside₁ : s.entered.feedChars text₁ = some s₁) (inside₂ : s.entered.feedChars text₂ = some s₂)
    (sameSave : s₁.savedCursor = s₂.savedCursor)
    (reads : readsEscape s.state) (readsEnd₁ : readsEscape s₁.state)
    (readsEnd₂ : readsEscape s₂.state) :
    s.feed (enterAlternate ++ text₁ ++ leaveAlternate) =
        s.feed (enterAlternate ++ text₂ ++ leaveAlternate) ∧
      (s.feed (enterAlternate ++ text₁ ++ leaveAlternate)).map Prod.fst = some s.pending ∧
      ∀ front back s', text₁ = front ++ back → s.feedChars (enterAlternate ++ front) = some s' →
        s'.pending = s.pending := by
  rw [feed_visit h main reads calm₁ inside₁ readsEnd₁,
    feed_visit h main reads calm₂ inside₂ readsEnd₂, sameSave]
  refine ⟨rfl, rfl, ?_⟩
  rintro front back s' rfl during
  have entering : s.feedChars enterAlternate = some s.entered := feed_enter reads main
  rw [feedChars_append, entering, bind_some] at during
  have hq := ((feedChars_quiet (entered_wellFormed h) front calm₁.left).of_eq_some during).2
  exact hq.silent rfl

def plainVisit (ch : Char) : List Char :=
  enterAlternate ++ [ch] ++ leaveAlternate

theorem plainVisit_agrees :
    ((new 1 4).feed (plainVisit 'A') = (new 1 4).feed (plainVisit 'B')) :=
  have calm : ∀ ch, ch = 'A' ∨ ch = 'B' → Undisturbed (new 1 4).entered [ch] := by
    rintro ch (rfl | rfl) <;> exact ⟨by decide, by decide, fun _ _ => trivial⟩
  (alternate_screen_noninterference (new_wellFormed 1 4) rfl (calm 'A' (.inl rfl))
    (calm 'B' (.inr rfl)) rfl rfl rfl rfl rfl rfl).1

/-- After a lone escape character the switch is not read: the visit is printed on
the main screen and ends up in the recording. -/
theorem pending_escape_records_visit :
    ∃ s, (new 1 20).feedChars [esc] = some s ∧ s.mainScreen = none ∧
      (s.feed (plainVisit 'A')).map (fun out => out.2.savedCursor) = some none ∧
      (s.feed (plainVisit 'B')).map (fun out => out.2.savedCursor) = some none ∧
      s.feed (plainVisit 'A') ≠ s.feed (plainVisit 'B') ∧
      s.record (plainVisit 'A') = some ['[', '?', '1', '0', '4', '9', 'h', 'A', '\n'] ∧
      s.record (plainVisit 'B') = some ['[', '?', '1', '0', '4', '9', 'h', 'B', '\n'] :=
  ⟨_, rfl, by decide +kernel⟩

end VtText

/-!
# Stopping a recording on the alternate screen

`finish` clamps the saved cursor row to the new height before the main screen
is re-fitted, while the mode switch re-fits with the row as it was saved. The
row decides how many lines leave at the top, recorded, and how many at the
bottom, dropped, so the two texts are compared line by line.
-/

namespace VtText

open Option hiding all_eq_true get
open List hiding get set
open Checked VtTextRenderer

/-- The line shows something in the re-fitted screen. -/
def Visible (screen : List (List Char)) (i : Nat) : Prop :=
  ∃ line, screen[i]? = some line ∧ line.all isBlankCell = false

lemma contentRows_nil : contentRows [] = 0 :=
  rfl

variable (screen : List (List Char))

lemma contentRows_append_singleton (line : List Char) :
    contentRows (screen ++ [line]) =
      if line.all isBlankCell then contentRows screen else screen.length + 1 := by
  unfold contentRows
  rw [reverse_append, reverse_singleton, singleton_append, dropWhile_cons]
  split
  · rfl
  · simp

/-- The content ends with a visible line, and nothing below it is visible. -/
lemma contentRows_spec :
    (∀ i, contentRows screen ≤ i → ¬ Visible screen i) ∧
    (contentRows screen ≠ 0 → Visible screen (contentRows screen - 1)) := by
  induction screen using reverseRecOn with
  | nil =>
    refine ⟨fun i _ ⟨line, hline, _⟩ => ?_, fun h => absurd contentRows_nil h⟩
    rw [getElem?_nil] at hline
    cases hline
  | append_singleton screen line ih =>
    have hle := contentRows_le screen
    rw [contentRows_append_singleton]
    split
    · rename_i blank
      refine ⟨fun i hi ⟨l, hl, shown⟩ => ?_, fun h => ?_⟩
      · by_cases old : i < screen.length
        · rw [getElem?_append_left old] at hl
          exact ih.1 i hi ⟨l, hl, shown⟩
        · obtain ⟨_, hget⟩ := List.getElem?_eq_some_iff.mp hl
          rw [getElem_append_right (by omega), getElem_singleton] at hget
          rw [← hget, blank] at shown
          cases shown
      · obtain ⟨l, hl, shown⟩ := ih.2 h
        exact ⟨l, by rw [getElem?_append_left (by omega)]; exact hl, shown⟩
    · rename_i shown
      refine ⟨fun i hi ⟨l, hl, _⟩ => ?_, fun _ => ?_⟩
      · have := (List.getElem?_eq_some_iff.mp hl).1
        rw [length_append, length_singleton] at this
        omega
      · refine ⟨line, ?_, Bool.eq_false_iff.mpr shown⟩
        rw [Nat.add_sub_cancel]
        simp

lemma blankRow_blank (cols : Nat) : (blankRow cols).all isBlankCell = true := by
  rw [all_eq_true]
  intro c hc
  rw [eq_of_mem_replicate hc]
  rfl

lemma contentRows_append_blank (n cols : Nat) :
    contentRows (screen ++ replicate n (blankRow cols)) = contentRows screen := by
  induction n with
  | zero => rw [replicate_zero, append_nil]
  | succ n ih =>
    rw [replicate_succ', ← append_assoc, contentRows_append_singleton,
      blankRow_blank, if_pos rfl, ih]

/-- A window shows the lines of the screen from its top on. -/
lemma visible_window (top rows i : Nat) :
    Visible ((screen.drop top).take rows) i ↔ i < rows ∧ Visible screen (top + i) := by
  unfold Visible
  constructor
  · rintro ⟨line, hline, shown⟩
    have inside : i < rows := by
      have := (List.getElem?_eq_some_iff.mp hline).1
      rw [length_take] at this
      omega
    rw [getElem?_take_of_lt inside, getElem?_drop] at hline
    exact ⟨inside, line, hline, shown⟩
  · rintro ⟨inside, line, hline, shown⟩
    refine ⟨line, ?_, shown⟩
    rw [getElem?_take_of_lt inside, getElem?_drop]
    exact hline

/-- How many lines of a screen are recorded in all when `leaving` lines have left
at the top of a viewport of `rows` rows. -/
def recordedLines (screen : List (List Char)) (rows leaving : Nat) : Nat :=
  leaving + contentRows ((screen.drop leaving).take rows)

lemma recordedLines_le {screen : List (List Char)} {rows leaving : Nat}
    (h : leaving ≤ screen.length) : recordedLines screen rows leaving ≤ screen.length := by
  have hle := contentRows_le ((screen.drop leaving).take rows)
  rw [length_take, length_drop] at hle
  unfold recordedLines
  omega

/-- Recording stops right after the last visible line of the viewport. -/
lemma recordedLines_spec (screen : List (List Char)) (rows leaving : Nat) :
    let recorded := recordedLines screen rows leaving
    leaving ≤ recorded ∧ recorded ≤ leaving + rows ∧
      (∀ i, recorded ≤ i → i < leaving + rows → ¬ Visible screen i) ∧
      (recorded ≠ leaving → Visible screen (recorded - 1)) := by
  obtain ⟨blank, last⟩ := contentRows_spec ((screen.drop leaving).take rows)
  have hle := contentRows_le ((screen.drop leaving).take rows)
  rw [length_take] at hle
  simp only [recordedLines]
  refine ⟨Nat.le_add_right _ _, by omega, fun i hi hlt shown => ?_, fun hne => ?_⟩
  · refine blank (i - leaving) (by omega) ((visible_window _ _ _ _).mpr ⟨by omega, ?_⟩)
    rwa [Nat.add_sub_cancel' (by omega)]
  · have shown := ((visible_window _ _ _ _).mp (last (by omega))).2
    rwa [← Nat.add_sub_assoc (by omega)] at shown

/-- With `k` lines leaving at the top, instead of `rows - 1`, the same lines are
recorded exactly when the last visible line of both viewports is the same. -/
lemma recordedLines_eq_iff {rows k : Nat} (hr : 0 < rows) (hk : rows ≤ k) :
    recordedLines screen rows k = recordedLines screen rows (rows - 1) ↔
      (∀ i, 2 * rows - 1 ≤ i → i < k + rows → ¬ Visible screen i) ∧
      ∃ i, k ≤ i + 1 ∧ i < 2 * rows - 1 ∧ Visible screen i := by
  obtain ⟨lo, hi, below, last⟩ := recordedLines_spec screen rows k
  obtain ⟨lo', hi', below', last'⟩ := recordedLines_spec screen rows (rows - 1)
  constructor
  · intro same
    rw [← same] at lo' hi' below' last'
    refine ⟨fun i hge hlt => below i (by omega) hlt, _, ?_, ?_, last' (by omega)⟩ <;> omega
  · rintro ⟨nothing, i, hge, hlt, shown⟩
    have h₁ : i < recordedLines screen rows (rows - 1) := by
      by_contra past
      exact below' i (by omega) (by omega) shown
    have shown' := last' (by omega)
    have h₂ : recordedLines screen rows (rows - 1) ≤ recordedLines screen rows k := by
      by_contra past
      exact below _ (by omega) (by omega) shown'
    by_contra differ
    have shown := last (by omega)
    by_cases beyond : 2 * rows - 1 ≤ recordedLines screen rows k - 1
    · exact nothing _ beyond (by omega) shown
    · exact below' _ (by omega) (by omega) shown

variable {n : Nat} {lines : List (List Char)} {m : Nat}

lemma flatMap_renderLine_length_lt (hmn : m < n) (hn : n ≤ lines.length) :
    ((lines.take m).flatMap renderLine).length < ((lines.take n).flatMap renderLine).length := by
  have cut : lines.take n = lines.take m ++ (lines.drop m).take (n - m) := by
    rw [← take_add, Nat.add_sub_cancel' (Nat.le_of_lt hmn)]
  rw [cut, flatMap_append, length_append]
  cases hrest : (lines.drop m).take (n - m) with
  | nil =>
    have := congrArg length hrest
    rw [length_take, length_drop, length_nil] at this
    omega
  | cons line rest =>
    rw [flatMap_cons, length_append, renderLine, length_append, length_singleton]
    omega

/-- Different numbers of recorded lines give different texts. -/
lemma flatMap_renderLine_inj (hm : m ≤ lines.length) (hn : n ≤ lines.length)
    (same : (lines.take m).flatMap renderLine = (lines.take n).flatMap renderLine) : m = n := by
  rcases Nat.lt_trichotomy m n with lt | rfl | gt
  · have := flatMap_renderLine_length_lt lt hn
    rw [same] at this
    omega
  · rfl
  · have := flatMap_renderLine_length_lt gt hm
    rw [same] at this
    omega

namespace VtTextRenderer
variable {s : VtTextRenderer}

/-- The flush loop after `n` lines. -/
lemma flush_loop (s : VtTextRenderer) (n : Nat) (hn : n ≤ s.screen.length) :
    (range n).foldlM
      (fun (s : VtTextRenderer) index => do
        let line ← get s.screen index
        let screen ← set s.screen index (replicate line.length ' ')
        pure { s with screen, pending := s.pending ++ renderLine line }) s =
      some { s with
        screen := (s.screen.take n).map (fun line => replicate line.length ' ') ++
          s.screen.drop n
        pending := s.pending ++ (s.screen.take n).flatMap renderLine } := by
  induction n with
  | zero => simp
  | succ n ih =>
    have hlt : n < s.screen.length := hn
    have cut : s.screen.take (n + 1) = s.screen.take n ++ [s.screen[n]] :=
      take_succ_eq_append_getElem hlt
    have rest : s.screen.drop n = s.screen[n] :: s.screen.drop (n + 1) := drop_eq_getElem_cons hlt
    have front : ((s.screen.take n).map (fun line => replicate line.length ' ')).length = n := by
      rw [length_map, length_take]
      omega
    have here : get ((s.screen.take n).map (fun line => replicate line.length ' ') ++
        s.screen[n] :: s.screen.drop (n + 1)) n = some s.screen[n] := by
      rw [Checked.get, getElem?_append_right (by omega), front, Nat.sub_self, getElem?_cons_zero]
    have there : set ((s.screen.take n).map (fun line => replicate line.length ' ') ++
        s.screen[n] :: s.screen.drop (n + 1)) n (replicate s.screen[n].length ' ') =
        some ((s.screen.take n).map (fun line => replicate line.length ' ') ++
          replicate s.screen[n].length ' ' :: s.screen.drop (n + 1)) := by
      rw [set_of_lt (by rw [length_append, front, length_cons]; omega),
        set_append_right _ _ (by omega), front, Nat.sub_self, set_cons_zero]
    rw [range_succ, foldlM_append, ih (by omega), cut]
    simp only [bind_eq_bind, bind_some, foldlM_cons, foldlM_nil, rest, here,
      there, Option.pure_def, map_append, map_cons, map_nil, flatMap_append,
      flatMap_cons, flatMap_nil, append_nil, append_assoc, singleton_append]

lemma flushScreen_eq (main : s.mainScreen = none) :
    ∃ screen, s.flushScreen = some { s with
      screen
      pending := s.pending ++ (s.screen.take (contentRows s.screen)).flatMap renderLine } := by
  unfold flushScreen
  rw [if_neg (by rw [main]; exact Bool.false_ne_true)]
  exact ⟨_, flush_loop s _ (contentRows_le _)⟩

/-- On the main screen, stopping hands out what is pending and the visible lines. -/
lemma finish_main (main : s.mainScreen = none) :
    s.finish.map Prod.fst =
      some (s.pending ++ (s.screen.take (contentRows s.screen)).flatMap renderLine) := by
  obtain ⟨screen, flushed⟩ := flushScreen_eq main
  have restored : s.restoreForFinish = some s := by rw [restoreForFinish, main]
  unfold finish
  rw [restored]
  simp only [bind_eq_bind, bind_some, flushed]
  rfl

/-- Re-fitting the main screen and stopping records `recordedLines` lines of it. -/
lemma normalize_finish (hr : 0 < s.rows) (hc : 0 < s.cols) (main : s.mainScreen = none) :
    ∃ s', s.normalizeScreen = some s' ∧ s'.mainScreen = none ∧
      s'.pending ++ (s'.screen.take (contentRows s'.screen)).flatMap renderLine =
        s.pending ++ ((refit s.screen s.cols).take (recordedLines (refit s.screen s.cols) s.rows
          (min s.row (s.screen.length - s.rows)))).flatMap renderLine := by
  refine ⟨_, normalizeScreen_eq hr hc, main, ?_⟩
  have hle := contentRows_le (((refit s.screen s.cols).drop
    (min s.row (s.screen.length - s.rows))).take s.rows)
  simp only [window, contentRows_append_blank]
  rw [take_append_of_le_length hle, take_take, Nat.min_eq_left
    (Nat.le_trans hle (length_take_le _ _)), append_assoc, ← flatMap_append,
    ← take_add]
  rfl

variable {main : List (List Char)}

variable {row : Nat} {s' : VtTextRenderer} {data : List Char}

/-- Stopping on the alternate screen re-fits with the clamped row. -/
lemma finish_alternate (h : WellFormed s) {col : Nat}
    (held : s.mainScreen = some (main, row, col)) :
    s.finish.map Prod.fst = some (s.pending ++ ((refit main s.cols).take
      (recordedLines (refit main s.cols) s.rows
        (min (min row (s.rows - 1)) (main.length - s.rows)))).flatMap renderLine) := by
  have hrow := h.row_lt
  have hcol := h.col_lt
  obtain ⟨s', normalized, main', text⟩ := normalize_finish (s := { s with
    screen := main, mainScreen := none, row := min row (s.rows - 1), col := min col (s.cols - 1) })
    (show 0 < s.rows by omega) (show 0 < s.cols by omega) rfl
  have restored : s.restoreForFinish = some s' := by
    simp only [restoreForFinish, held, clampRow_eq h, clampCol_eq h, bind_eq_bind,
      bind_some, normalized]
  have same : s.finish = s'.finish := by rw [finish, finish, restored, restoreForFinish, main']
  rw [same, finish_main main', text]

/-- The text of a last chunk and the stop after it, when the chunk ends on the
main screen. -/
lemma record_main (fed : s.feedChars data = some s') (main : s'.mainScreen = none) :
    s.record data =
      some (s'.pending ++ (s'.screen.take (contentRows s'.screen)).flatMap renderLine) := by
  have stopped := finish_main (s := { s' with pending := [] }) main
  obtain ⟨out, finished, text⟩ := map_eq_some_iff.mp stopped
  simp only [record, feed, fed, takePending, map_some, bind_eq_bind,
    bind_some, finished, text, nil_append]
  rfl

lemma record_alternate (fed : s.feedChars data = some s') (h : WellFormed s') {col : Nat}
    (held : s'.mainScreen = some (main, row, col)) :
    s.record data = some (s'.pending ++ ((refit main s'.cols).take
      (recordedLines (refit main s'.cols) s'.rows
        (min (min row (s'.rows - 1)) (main.length - s'.rows)))).flatMap renderLine) := by
  have stopped := finish_alternate (s := { s' with pending := [] }) (takePending_wellFormed h) held
  obtain ⟨out, finished, text⟩ := map_eq_some_iff.mp stopped
  simp only [record, feed, fed, takePending, map_some, bind_eq_bind,
    bind_some, finished, text, nil_append]
  rfl

/-- When the leaving switch is not read, feeding it first changes nothing. -/
lemma record_unread (h : WellFormed s) {col : Nat} (held : s.mainScreen = some (main, row, col))
    (unread : readsEscape s.state = false) : s.record leaveAlternate = s.finish.map Prod.fst := by
  obtain ⟨s', fed, h', hq⟩ :=
    feedChars_quiet h leaveAlternate (undisturbed_modeSequence h unread (by decide))
  rw [record_alternate fed h' (hq.mainScreen_eq.trans held), finish_alternate h held, hq.rows_eq,
    hq.cols_eq, hq.silent (by rw [held]; rfl)]

lemma record_leave (h : WellFormed s) {col : Nat} (held : s.mainScreen = some (main, row, col))
    (reads : readsEscape s.state) :
    s.record leaveAlternate = some (s.pending ++ ((refit main s.cols).take
      (recordedLines (refit main s.cols) s.rows
        (min row (main.length - s.rows)))).flatMap renderLine) := by
  have hrow := h.row_lt
  have hcol := h.col_lt
  obtain ⟨s', normalized, main', text⟩ := normalize_finish (s := { s with
    screen := main, mainScreen := none, row, col, wrapPending := false, state := .ground
    csiParams := altParams, csiHasIntermediate := false })
    (show 0 < s.rows by omega) (show 0 < s.cols by omega) rfl
  rw [record_main ((feed_leave reads held).trans normalized) main', text]

end VtTextRenderer

/-- The renderer after some calls and a part of a further chunk. -/
def Reachable (s : VtTextRenderer) : Prop :=
  ∃ rows cols calls data,
    (runCalls (.new rows cols) calls >>= fun s => s.feedChars data) = some s

lemma Reachable.wellFormed {s : VtTextRenderer} (h : Reachable s) : WellFormed s := by
  obtain ⟨rows, cols, calls, data, run⟩ := h
  exact ((runCalls_wellFormed (new_wellFormed rows cols) calls).bind
    (fun s hs => feedChars_wellFormed hs data)).of_eq_some run

/-- Line `i` of a saved screen shows something in its first `cols` cells. -/
def shows (main : List (List Char)) (cols i : Nat) : Prop :=
  ∃ line, main[i]? = some line ∧ (line.take cols).all isBlankCell = false

lemma visible_refit (main : List (List Char)) (cols i : Nat) :
    Visible (refit main cols) i ↔ shows main cols i := by
  have padded : ∀ line : List Char,
      (Checked.resize line cols ' ').all isBlankCell = (line.take cols).all isBlankCell := by
    intro line
    have blank := blankRow_blank (cols - line.length)
    rw [Checked.resize, all_append, show replicate (cols - line.length) ' ' =
      blankRow (cols - line.length) from rfl, blank, Bool.and_true]
  unfold Visible shows refit
  simp only [getElem?_map, map_eq_some_iff]
  constructor
  · rintro ⟨_, ⟨line, hline, rfl⟩, shown⟩
    exact ⟨line, hline, by rw [← padded]; exact shown⟩
  · rintro ⟨line, hline, shown⟩
    exact ⟨_, ⟨line, hline, rfl⟩, by rw [padded]; exact shown⟩

/-- Stopping on the alternate screen gives the text of leaving it first, exactly
when the switch is not read, or clamping the saved row changes nothing for the
lines that leave at the top, or the last visible line is in both viewports. -/
theorem stop_on_alternate_screen {s : VtTextRenderer} (h : Reachable s)
    {main : List (List Char)} {row col : Nat} (held : s.mainScreen = some (main, row, col)) :
    s.finish.map Prod.fst = s.record leaveAlternate ↔
      readsEscape s.state = false ∨ row < s.rows ∨ main.length < 2 * s.rows ∨
        ((∀ i, 2 * s.rows - 1 ≤ i → i < min row (main.length - s.rows) + s.rows →
            ¬ shows main s.cols i) ∧
          ∃ i, min row (main.length - s.rows) ≤ i + 1 ∧ i < 2 * s.rows - 1 ∧
            shows main s.cols i) := by
  have hw := h.wellFormed
  have hrow := hw.row_lt
  cases reads : readsEscape s.state with
  | false => simp [record_unread hw held reads]
  | true =>
    rw [finish_alternate hw held, record_leave hw held reads, Option.some.injEq,
      append_cancel_left_eq]
    have onScreen : ∀ row, min row (main.length - s.rows) ≤ (refit main s.cols).length := by
      intro row
      rw [length_refit]
      omega
    by_cases clamped : row < s.rows ∨ main.length < 2 * s.rows
    · have sameRow : min (min row (s.rows - 1)) (main.length - s.rows) =
          min row (main.length - s.rows) := by omega
      rw [sameRow]
      refine iff_of_true rfl ?_
      rcases clamped with fits | short
      · exact .inr (.inl fits)
      · exact .inr (.inr (.inl short))
    · have clampedRow : min (min row (s.rows - 1)) (main.length - s.rows) = s.rows - 1 := by omega
      have byLines := recordedLines_eq_iff (refit main s.cols) (show 0 < s.rows by omega)
        (show s.rows ≤ min row (main.length - s.rows) by omega)
      simp only [visible_refit] at byLines
      rw [clampedRow]
      constructor
      · intro same
        have count := flatMap_renderLine_inj
          (recordedLines_le (by rw [length_refit]; omega)) (recordedLines_le (onScreen row)) same
        exact .inr (.inr (.inr (byLines.mp count.symm)))
      · rintro (unread | fits | short | sameLast)
        · cases unread
        · exact absurd (.inl fits) clamped
        · exact absurd (.inr short) clamped
        · rw [byLines.mpr sameLast]

theorem stop_without_resize :
    (new 2 4).entered.finish.map Prod.fst = (new 2 4).entered.record leaveAlternate :=
  (stop_on_alternate_screen (s := (new 2 4).entered) ⟨2, 4, [], enterAlternate, rfl⟩ rfl).mpr
    (.inr (.inl (by decide)))

/-- Four lines on a screen of four rows, which shrinks to two rows during a visit. -/
def shrunkVisit : List Call :=
  [.feed (['a', '\r', '\n', 'b', '\r', '\n', 'c', '\r', '\n', 'd'] ++ enterAlternate), .resize 2 20]

theorem stop_drops_line :
    ∃ s, runCalls (new 4 20) shrunkVisit = some s ∧ s.mainScreen.isSome ∧
      s.finish.map Prod.fst = some ['a', '\n', 'b', '\n', 'c', '\n'] ∧
      s.record leaveAlternate = some ['a', '\n', 'b', '\n', 'c', '\n', 'd', '\n'] :=
  ⟨_, rfl, by decide +kernel⟩

end VtText
