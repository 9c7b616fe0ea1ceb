import KKTerm.Library.Runs
import KKTerm.VtText.AlternateScreen

/-!
# Recording plain text

A typewriter with paper of a fixed width says what plain text looks like: a full
line goes on below, a line feed starts a new line. The renderer shows the last
lines of the paper and has handed out the lines above them.
-/

namespace VtText

open Text Runs
open Option hiding all_eq_true get
open List hiding get set
open Checked VtTextRenderer

/-- A printable character of one column. -/
def Printable (c : Char) : Prop :=
  charDisplayWidth c = 1 ∧ 0x20 ≤ c.toNat ∧ ¬ (0x7f ≤ c.toNat ∧ c.toNat ≤ 0x9f)

instance printableDecidable : DecidablePred Printable :=
  fun _ => inferInstanceAs (Decidable (_ ∧ _))

/-- The finished lines, the line being typed, and whether the carriage is back at its start. -/
structure Paper where
  finished : List (List Char)
  line : List Char
  returned : Bool

namespace Paper

def blank : Paper :=
  { finished := [], line := [], returned := false }

/-- Typing over a line is not possible, and a line feed needs the carriage back. -/
def type (width : Nat) (p : Paper) (c : Char) : Option Paper :=
  if c = '\r' then some { p with returned := true }
  else if c = '\n' then
    if p.returned then some { finished := p.finished ++ [p.line], line := [], returned := false }
    else none
  else if Printable c ∧ p.returned = false then
    if p.line.length = width then
      some { p with finished := p.finished ++ [p.line], line := [c] }
    else some { p with line := p.line ++ [c] }
  else none

end Paper

/-- A line cut into pieces of the width; an empty line is one empty piece. -/
def pieces (width : Nat) (line : List Char) : List (List Char) :=
  if width = 0 ∨ line.length ≤ width then [line]
  else line.take width :: pieces width (line.drop width)
termination_by line.length
decreasing_by
  rw [List.length_drop]
  omega

/-- The lines joined and ended by CR LF. -/
def plainText (lines : List (List Char)) : List Char :=
  lines.flatMap (fun line => line ++ ['\r', '\n'])

namespace VtTextRenderer

/-- Several chunks, with the texts that they hand out. -/
def feedChunks (s : VtTextRenderer) : List (List Char) → Option (List Char × VtTextRenderer)
  | [] => some ([], s)
  | chunk :: rest => do
    let (text, s) ← s.feed chunk
    let (later, s) ← feedChunks s rest
    pure (text ++ later, s)

/-- All text of a recording that is fed some chunks and then stopped. -/
def recordChunks (s : VtTextRenderer) (chunks : List (List Char)) : Option (List Char) := do
  let (text, s) ← s.feedChunks chunks
  let (rest, _) ← s.finish
  pure (text ++ rest)

end VtTextRenderer

section Typing
variable {width : Nat}

variable {line front : List Char}

lemma pieces_of_le (fits : line.length ≤ width) : pieces width line = [line] := by
  rw [pieces, if_pos (.inr fits)]

lemma pieces_append (positive : 0 < width) (full : front.length = width) (c : Char)
    (rest : List Char) : pieces width (front ++ c :: rest) = front :: pieces width (c :: rest) := by
  have long : ¬ (width = 0 ∨ (front ++ c :: rest).length ≤ width) := by
    rw [length_append, length_cons]
    omega
  rw [pieces, if_neg long, take_left' full, drop_left' full]

/-- Typing goes through the pieces of a line; the last one is still on the carriage. -/
lemma type_line (positive : 0 < width) (printable : ∀ c ∈ line, Printable c)
    (finished : List (List Char)) (fits : front.length ≤ width) :
    ∃ above last, pieces width (front ++ line) = above ++ [last] ∧
      run (Paper.type width) { finished, line := front, returned := false } line =
        some { finished := finished ++ above, line := last, returned := false } := by
  induction line generalizing finished front with
  | nil =>
    refine ⟨[], front, ?_, ?_⟩
    · rw [append_nil, pieces_of_le fits]
      rfl
    · rw [append_nil]
      rfl
  | cons c line ih =>
    have shown := printable c mem_cons_self
    have later := fun d hd => printable d (mem_cons_of_mem c hd)
    have notReturn : c ≠ '\r' := by
      rintro rfl
      exact absurd shown.2.1 (by decide)
    have notFeed : c ≠ '\n' := by
      rintro rfl
      exact absurd shown.2.1 (by decide)
    by_cases full : front.length = width
    · have single : [c].length ≤ width := positive
      obtain ⟨above, last, cut, typed⟩ := ih later (finished ++ [front]) single
      refine ⟨front :: above, last, ?_, run_cons_eq_some.mpr ⟨_, ?_, typed.trans ?_⟩⟩
      · rw [pieces_append positive full]
        exact congrArg (front :: ·) cut
      · rw [Paper.type, if_neg notReturn, if_neg notFeed, if_pos ⟨shown, rfl⟩, if_pos full]
      · rw [append_assoc]
        rfl
    · have shorter : (front ++ [c]).length ≤ width := by
        rw [length_append, length_singleton]
        omega
      obtain ⟨above, last, cut, typed⟩ := ih later finished shorter
      refine ⟨above, last, ?_, run_cons_eq_some.mpr ⟨_, ?_, typed⟩⟩
      · rw [← cut, append_assoc]
        rfl
      · rw [Paper.type, if_neg notReturn, if_neg notFeed, if_pos ⟨shown, rfl⟩, if_neg full]

lemma type_lines (positive : 0 < width) {lines : List (List Char)}
    (printable : ∀ line ∈ lines, ∀ c ∈ line, Printable c) (finished : List (List Char)) :
    run (Paper.type width) { finished, line := [], returned := false } (plainText lines) =
      some { finished := finished ++ lines.flatMap (pieces width), line := [], returned := false } := by
  induction lines generalizing finished with
  | nil =>
    rw [flatMap_nil, append_nil]
    rfl
  | cons line lines ih =>
    have empty : ([] : List Char).length ≤ width := Nat.zero_le _
    obtain ⟨above, last, cut, typed⟩ :=
      type_line positive (printable line mem_cons_self) finished empty
    have rest := ih (fun l hl => printable l (mem_cons_of_mem line hl))
      (finished ++ above ++ [last])
    have ended : run (Paper.type width)
        { finished := finished ++ above, line := last, returned := false } ['\r', '\n'] =
          some { finished := finished ++ above ++ [last], line := [], returned := false } := rfl
    have split : plainText (line :: lines) = line ++ (['\r', '\n'] ++ plainText lines) := by
      simp [plainText]
    rw [split]
    refine run_append_eq_some.mpr ⟨_, typed, run_append_eq_some.mpr ⟨_, ended, ?_⟩⟩
    rw [rest, flatMap_cons, ← nil_append line, cut]
    simp only [append_assoc]

end Typing

def padTo (cols : Nat) (line : List Char) : List Char :=
  line ++ List.replicate (cols - line.length) ' '

/-- The lines above the screen have been handed out or are pending, the lines on it end with the
one being typed, and the rest of it is blank. -/
structure Shows (handed : List Char) (finished : List (List Char)) (line : List Char)
    (s : VtTextRenderer) : Prop where
  main : s.mainScreen = none
  ground : s.state = .ground
  cols_pos : 0 < s.cols
  fits : line.length ≤ s.cols
  narrow : ∀ l ∈ finished ++ [line], wideContinuation ∉ l
  row_lt : s.row < s.rows
  lines : ∃ gone top, finished = gone ++ top ∧ top.length = s.row ∧
    s.screen = top.map (padTo s.cols) ++
      padTo s.cols line :: List.replicate (s.rows - s.row - 1) (blankRow s.cols) ∧
    handed ++ s.pending = gone.flatMap (fun l => renderLine (padTo s.cols l))

/-- The cursor is behind the typed line, at its start, or waiting at the right margin. -/
def AtCursor (p : Paper) (s : VtTextRenderer) : Prop :=
  (s.wrapPending = false ∧ s.col = (if p.returned then 0 else p.line.length) ∧ s.col < s.cols) ∨
    (p.returned = false ∧ s.wrapPending = true ∧ p.line.length = s.cols)

section Screen
variable {s : VtTextRenderer} {handed line : List Char} {finished : List (List Char)}

lemma padTo_nil (cols : Nat) : padTo cols [] = blankRow cols :=
  rfl

variable {cols : Nat}

lemma length_padTo (fits : line.length ≤ cols) : (padTo cols line).length = cols := by
  rw [padTo, length_append, length_replicate]
  omega

/-- Typing behind the line fills the next blank cell. -/
lemma set_padTo (room : line.length < cols) (c : Char) :
    (padTo cols line).set line.length c = padTo cols (line ++ [c]) := by
  obtain ⟨n, left⟩ : ∃ n, cols - line.length = n + 1 := ⟨cols - line.length - 1, by omega⟩
  have less : cols - (line ++ [c]).length = n := by
    rw [length_append, length_singleton]
    omega
  rw [padTo, padTo, left, less, set_append_right _ _ (Nat.le_refl _), Nat.sub_self,
    replicate_succ, set_cons_zero, append_assoc]
  rfl

lemma narrow_padTo (narrow : wideContinuation ∉ line) : wideContinuation ∉ padTo cols line := by
  intro member
  rcases mem_append.mp member with typed | padding
  · exact narrow typed
  · exact absurd (eq_of_mem_replicate padding) (by decide)

/-- A row without halves of wide characters is rendered as its text. -/
lemma renderLine_padTo (narrow : wideContinuation ∉ line) :
    renderLine (padTo cols line) = trimEnd line ++ ['\n'] := by
  have whole : (padTo cols line).filter (· ≠ wideContinuation) = padTo cols line := by
    refine filter_eq_self.mpr (fun c member => ?_)
    refine decide_eq_true (fun wide => ?_)
    rw [wide] at member
    exact narrow_padTo narrow member
  have padding : Blank (replicate (cols - line.length) ' ') := by
    intro c member
    rw [eq_of_mem_replicate member]
    rfl
  rw [renderLine, renderRow, whole, padTo, trimEnd_blank padding]

namespace Shows

section
variable (h : Shows handed finished line s)
include h

lemma get_row : get s.screen s.row = some (padTo s.cols line) := by
  obtain ⟨gone, top, _, height, screen, _⟩ := h.lines
  rw [Checked.get, screen, getElem?_append_right (by rw [length_map, height]), length_map,
    height, Nat.sub_self, getElem?_cons_zero]

lemma cell_narrow {col : Nat} (inside : col < s.cols) :
    ∃ c, s.cell s.row col = some c ∧ c ≠ wideContinuation := by
  have long : col < (padTo s.cols line).length := by
    rw [length_padTo h.fits]
    exact inside
  refine ⟨(padTo s.cols line)[col], ?_, fun wide => ?_⟩
  · rw [cell, h.get_row]
    exact getElem?_eq_getElem long
  · exact narrow_padTo (h.narrow line (by simp)) (wide ▸ getElem_mem long)

lemma clearWideCell_eq {col : Nat} (inside : col < s.cols) :
    s.clearWideCell s.row col = some s := by
  obtain ⟨here, read, narrow⟩ := h.cell_narrow inside
  rw [clearWideCell, read]
  simp only [bind_eq_bind, bind_some, if_neg narrow]
  split
  · rename_i next
    obtain ⟨there, read', narrow'⟩ := h.cell_narrow next
    rw [read']
    simp only [bind_some, if_neg narrow']
    rfl
  · rfl

lemma putChar (room : line.length < s.cols)
    (behind : s.col = line.length) {c : Char} (narrow : c ≠ wideContinuation) :
    ∃ screen, s.putChar c 1 = some { s with screen } ∧
      Shows handed finished (line ++ [c]) { s with screen } := by
  obtain ⟨gone, top, cut, height, screen, texts⟩ := h.lines
  set shown := top.map (padTo s.cols) ++
    padTo s.cols (line ++ [c]) :: replicate (s.rows - s.row - 1) (blankRow s.cols) with shown_eq
  have written : s.setCell s.row line.length c = some { s with screen := shown } := by
    have inRow : line.length < (padTo s.cols line).length := by
      rw [length_padTo h.fits]
      exact room
    have inScreen : s.row < s.screen.length := by
      rw [screen, length_append, length_map, height, length_cons]
      omega
    rw [setCell, h.get_row]
    simp only [bind_eq_bind, bind_some, set_of_lt inRow, set_of_lt inScreen, set_padTo room]
    rw [screen, set_append_right _ _ (by rw [length_map, height]), length_map, height,
      Nat.sub_self, set_cons_zero]
    rfl
  refine ⟨shown, ?_, h.main, h.ground, h.cols_pos, ?_, ?_, h.row_lt, gone, top, cut, height, rfl, texts⟩
  · have cleared := h.clearWideCell_eq room
    rw [← behind] at cleared written
    rw [VtTextRenderer.putChar, cleared]
    exact written
  · rw [length_append, length_singleton]
    exact room
  · intro l member wide
    rcases mem_append.mp member with old | last
    · exact h.narrow l (mem_append_left _ old) wide
    · rw [mem_singleton.mp last] at wide
      rcases mem_append.mp wide with typed | new
      · exact h.narrow line (by simp) typed
      · exact narrow (mem_singleton.mp new).symm

/-- A line feed finishes the line; the top line leaves a full screen. -/
lemma lineFeed :
    ∃ s', s.lineFeed = some s' ∧ Shows handed (finished ++ [line]) [] s' ∧
      s'.cols = s.cols ∧ s'.rows = s.rows ∧ s'.col = s.col ∧ s'.wrapPending = s.wrapPending := by
  obtain ⟨gone, top, rfl, height, screen, texts⟩ := h.lines
  have narrow : ∀ l ∈ (gone ++ top ++ [line]) ++ [[]], wideContinuation ∉ l := by
    intro l member
    rcases mem_append.mp member with old | last
    · exact h.narrow l old
    · rw [mem_singleton.mp last]
      exact not_mem_nil
  have inside := h.row_lt
  by_cases below : s.row + 1 < s.rows
  · refine ⟨{ s with row := s.row + 1 }, by rw [VtTextRenderer.lineFeed, if_pos below], ?_, rfl, rfl,
      rfl, rfl⟩
    refine ⟨h.main, h.ground, h.cols_pos, Nat.zero_le _, narrow, below, gone, top ++ [line],
      append_assoc _ _ _, ?_, ?_, texts⟩
    · rw [length_append, height, length_singleton]
    · obtain ⟨n, left⟩ : ∃ n, s.rows - s.row - 1 = n + 1 := ⟨s.rows - s.row - 2, by omega⟩
      have less : s.rows - (s.row + 1) - 1 = n := by omega
      rw [screen, left, replicate_succ]
      simp only [less, map_append, map_cons, map_nil, append_assoc, singleton_append, padTo_nil]
  · have full : s.rows - s.row - 1 = 0 := by omega
    rw [full, replicate_zero] at screen
    obtain ⟨first, rest, shown⟩ : ∃ first rest, top ++ [line] = first :: rest :=
      exists_cons_of_ne_nil (append_ne_nil_of_right_ne_nil top (cons_ne_nil line []))
    have rows : s.screen = padTo s.cols first :: rest.map (padTo s.cols) := by
      rw [screen, ← map_singleton, ← map_append, shown, map_cons]
    have kept : rest.length = s.row := by
      have lengths := congrArg List.length shown
      rw [length_append, height, length_singleton, length_cons] at lengths
      omega
    refine ⟨{ s with
      screen := rest.map (padTo s.cols) ++ [blankRow s.cols]
      pending := s.pending ++ renderLine (padTo s.cols first) }, ?_, ?_, rfl, rfl, rfl, rfl⟩
    · rw [VtTextRenderer.lineFeed, if_neg below, scrollUp]
      simp only [range_one, foldlM_cons, foldlM_nil, scrollUpOne, rows,
        remove_zero_cons, h.main, isNone_none, if_true, bind_eq_bind,
        bind_some]
      rfl
    · refine ⟨h.main, h.ground, h.cols_pos, Nat.zero_le _, narrow, inside, gone ++ [first], rest, ?_, kept, ?_, ?_⟩
      · rw [append_assoc, shown, append_assoc]
        rfl
      · rw [full, replicate_zero, padTo_nil]
      · rw [← append_assoc, texts, flatMap_append]
        simp

lemma write (room : line.length < s.cols)
    (behind : s.col = line.length) {c : Char} (narrow : c ≠ wideContinuation) :
    ∃ s', (s.putChar c 1 >>= fun s => s.advance 1) = some s' ∧
      Shows handed finished (line ++ [c]) s' ∧ s'.cols = s.cols ∧
      (s.wrapPending = false →
        AtCursor { finished, line := line ++ [c], returned := false } s') := by
  obtain ⟨screen, put, shown⟩ := h.putChar room behind narrow
  have length : (line ++ [c]).length = line.length + 1 := length_append
  by_cases margin : s.col + 1 = s.cols
  · refine ⟨{ s with screen, col := s.cols - 1, wrapPending := true }, ?_,
      ⟨shown.main, shown.ground, shown.cols_pos, shown.fits, shown.narrow, shown.row_lt, shown.lines⟩, rfl,
      fun _ => Or.inr ⟨rfl, rfl, ?_⟩⟩
    · rw [put]
      simp only [bind_eq_bind, bind_some, advance, if_pos margin,
        sub_of_le (show 1 ≤ s.cols by omega)]
      rfl
    · rw [length, ← behind]
      exact margin
  · refine ⟨{ s with screen, col := s.col + 1 }, ?_,
      ⟨shown.main, shown.ground, shown.cols_pos, shown.fits, shown.narrow, shown.row_lt, shown.lines⟩, rfl,
      fun idle => Or.inl ⟨idle, ?_, ?_⟩⟩
    · rw [put]
      simp only [bind_eq_bind, bind_some, advance, if_neg margin]
    · rw [if_neg Bool.false_ne_true, length, ← behind]
    · show s.col + 1 < s.cols
      omega

end

end Shows

/-- The renderer follows the typewriter. -/
def Follows (handed : List Char) (p : Paper) (s : VtTextRenderer) : Prop :=
  Shows handed p.finished p.line s ∧ AtCursor p s

variable {c : Char} {p p' : Paper}

lemma Printable.narrow (h : Printable c) : c ≠ wideContinuation := by
  rintro rfl
  exact absurd h.2.1 (by decide)

section
variable (h : Follows handed p s)
include h

lemma follows_print (shown : Printable c) (there : p.returned = false) :
    ∃ s', s.print c = some s' ∧ s'.cols = s.cols ∧
      Follows handed (if p.line.length = s.cols then
        { p with finished := p.finished ++ [p.line], line := [c] }
      else { p with line := p.line ++ [c] }) s' := by
  obtain ⟨shows, cursor⟩ := h
  have one : charDisplayWidth c = 1 := shown.1
  rcases cursor with ⟨idle, col, inside⟩ | ⟨_, pending, full⟩
  · rw [there, if_neg Bool.false_ne_true] at col
    have positive : min 1 s.cols = 1 := by omega
    have room : p.line.length < s.cols := col ▸ inside
    obtain ⟨s', written, shows', cols, cursor'⟩ := shows.write room col shown.narrow
    refine ⟨s', ?_, cols, ?_⟩
    · rw [print, one]
      simp only [Nat.one_ne_zero, if_false, positive, resolveWrap, idle, Bool.false_eq_true,
        bind_eq_bind, bind_some, if_neg (show ¬ s.col + 1 > s.cols by omega)]
      exact written
    · rw [if_neg (Nat.ne_of_lt room)]
      refine ⟨shows', ?_⟩
      rw [there]
      exact cursor' idle
  · have returned : Shows handed p.finished p.line { s with col := 0 } :=
      ⟨shows.main, shows.ground, shows.cols_pos, shows.fits, shows.narrow, shows.row_lt, shows.lines⟩
    obtain ⟨s₁, fed, below, (cols : s₁.cols = s.cols), _, (col : s₁.col = 0), _⟩ := returned.lineFeed
    have resolved : s.resolveWrap = some { s₁ with wrapPending := false } := by
      rw [resolveWrap, if_pos pending, fed]
      rfl
    have ready : Shows handed (p.finished ++ [p.line]) [] { s₁ with wrapPending := false } :=
      ⟨below.main, below.ground, below.cols_pos, below.fits, below.narrow, below.row_lt, below.lines⟩
    obtain ⟨s', written, shows', cols', cursor'⟩ := ready.write below.cols_pos col shown.narrow
    refine ⟨s', ?_, cols'.trans cols, ?_⟩
    · have positive := below.cols_pos
      have width : min 1 s.cols = 1 := by omega
      have fits : ¬ s₁.col + 1 > s₁.cols := by omega
      rw [print, one]
      simp only [Nat.one_ne_zero, if_false, width, resolved, bind_eq_bind, bind_some, if_neg fits]
      exact written
    · rw [if_pos full]
      refine ⟨shows', ?_⟩
      rw [there]
      exact cursor' rfl

lemma follows_step (typed : p.type s.cols c = some p') :
    ∃ s', s.step c = some s' ∧ s'.cols = s.cols ∧ Follows handed p' s' := by
  obtain ⟨shows, cursor⟩ := h
  have still : ∀ col wrapPending, Shows handed p.finished p.line { s with col, wrapPending } :=
    fun _ _ => ⟨shows.main, shows.ground, shows.cols_pos, shows.fits, shows.narrow, shows.row_lt,
      shows.lines⟩
  have ground : s.step c = s.stepGround c := by rw [step, shows.ground]
  unfold Paper.type at typed
  by_cases isReturn : c = '\r'
  · subst isReturn
    cases typed
    refine ⟨{ s with col := 0, wrapPending := false }, ?_, rfl, still _ _,
      Or.inl ⟨rfl, rfl, shows.cols_pos⟩⟩
    rw [ground]
    rfl
  rw [if_neg isReturn] at typed
  by_cases isFeed : c = '\n'
  · subst isFeed
    rw [if_pos rfl] at typed
    split at typed
    · rename_i back
      cases typed
      obtain ⟨s', fed, shows', cols, _, col, wrap⟩ := (still s.col false).lineFeed
      refine ⟨s', ?_, cols, shows', .inl ⟨wrap, ?_, ?_⟩⟩
      · rw [ground]
        exact fed
      · rcases cursor with ⟨_, start, _⟩ | ⟨away, _⟩
        · rw [back, if_pos rfl] at start
          exact col.trans start
        · rw [back] at away
          cases away
      · rcases cursor with ⟨_, start, _⟩ | ⟨away, _⟩
        · rw [back, if_pos rfl] at start
          rw [col, cols]
          show s.col < s.cols
          rw [start]
          exact shows.cols_pos
        · rw [back] at away
          cases away
    · cases typed
  rw [if_neg isFeed] at typed
  split at typed
  · rename_i shown
    obtain ⟨s', printed, cols, follows⟩ := follows_print ⟨shows, cursor⟩ shown.1 shown.2
    refine ⟨s', ?_, cols, ?_⟩
    · rw [step_ground_print shows.ground shown.1.2.1 shown.1.2.2]
      exact printed
    · split at typed
      · rename_i full
        cases typed
        rw [if_pos full] at follows
        exact follows
      · rename_i room
        cases typed
        rw [if_neg room] at follows
        exact follows
  · cases typed

lemma follows_run {text : List Char} (typed : run (Paper.type s.cols) p text = some p') :
    ∃ s', s.feedChars text = some s' ∧ s'.cols = s.cols ∧ Follows handed p' s' := by
  induction text generalizing s p with
  | nil =>
    cases typed
    exact ⟨s, rfl, rfl, h⟩
  | cons c text ih =>
    obtain ⟨p₁, first, rest⟩ := run_cons_eq_some.mp typed
    obtain ⟨s₁, stepped, cols, follows⟩ := follows_step h first
    rw [← cols] at rest
    obtain ⟨s', fed, cols', follows'⟩ := ih follows rest
    refine ⟨s', ?_, cols'.trans cols, follows'⟩
    rw [feedChars, foldlM_cons, stepped]
    exact fed

lemma follows_chunks {chunks : List (List Char)}
    (typed : run (Paper.type s.cols) p chunks.flatten = some p') :
    ∃ text s', s.feedChunks chunks = some (text, s') ∧ Follows (handed ++ text) p' s' := by
  induction chunks generalizing s p handed with
  | nil =>
    cases typed
    exact ⟨[], s, rfl, (append_nil handed).symm ▸ h⟩
  | cons chunk chunks ih =>
    rw [flatten_cons] at typed
    obtain ⟨p₁, first, rest⟩ := run_append_eq_some.mp typed
    obtain ⟨s₁, fed, cols, shows, cursor⟩ := follows_run h first
    have taken : Follows (handed ++ s₁.pending) p₁ { s₁ with pending := [] } := by
      refine ⟨⟨shows.main, shows.ground, shows.cols_pos, shows.fits, shows.narrow, shows.row_lt, ?_⟩,
        cursor⟩
      obtain ⟨gone, top, cut, height, screen, texts⟩ := shows.lines
      exact ⟨gone, top, cut, height, screen, (append_nil _).trans texts⟩
    rw [← cols] at rest
    obtain ⟨text, s', fed', follows⟩ := ih taken rest
    refine ⟨s₁.pending ++ text, s', ?_, ?_⟩
    · rw [feedChunks, feed, fed]
      simp only [map_some, takePending, bind_eq_bind, bind_some, fed']
      rfl
    · rw [← append_assoc]
      exact follows

end

lemma renderLine_blank {row : List Char} (blank : row.all isBlankCell = true) :
    renderLine row = ['\n'] := by
  have spaces : Blank (row.filter (· ≠ wideContinuation)) := by
    intro c member
    obtain ⟨inside, narrow⟩ := mem_filter.mp member
    have cell := all_eq_true.mp blank c inside
    simp only [isBlankCell, Bool.or_eq_true, decide_eq_true_eq] at cell
    rcases cell with rfl | wide
    · rfl
    · exact absurd wide (of_decide_eq_true narrow)
  have empty := trimEnd_blank (l := []) spaces
  rw [nil_append] at empty
  rw [renderLine, renderRow, empty]
  rfl

lemma flatMap_blank {rows : List (List Char)} (blank : ∀ row ∈ rows, row.all isBlankCell = true) :
    rows.flatMap renderLine = replicate rows.length '\n' := by
  induction rows with
  | nil => rfl
  | cons row rows ih =>
    rw [flatMap_cons, renderLine_blank (blank row mem_cons_self),
      ih (fun r hr => blank r (mem_cons_of_mem row hr))]
    rfl

/-- Rows below the content add nothing but empty lines. -/
lemma flatMap_content (rows : List (List Char)) :
    rows.flatMap renderLine = (rows.take (contentRows rows)).flatMap renderLine ++
      replicate (rows.length - contentRows rows) '\n' := by
  have below : ∀ row ∈ rows.drop (contentRows rows), row.all isBlankCell = true := by
    intro row member
    obtain ⟨i, inside⟩ := getElem?_of_mem member
    rw [getElem?_drop] at inside
    by_contra shown
    exact (contentRows_spec rows).1 _ (Nat.le_add_right _ i) ⟨row, inside, Bool.eq_false_iff.mpr shown⟩
  have rest := flatMap_blank below
  rw [length_drop] at rest
  rw [← rest, ← flatMap_append, take_append_drop]

lemma flatMap_padTo {cols : Nat} {lines : List (List Char)}
    (narrow : ∀ l ∈ lines, wideContinuation ∉ l) :
    lines.flatMap (fun l => renderLine (padTo cols l)) =
      lines.flatMap (fun l => trimEnd l ++ ['\n']) := by
  induction lines with
  | nil => rfl
  | cons l lines ih =>
    rw [flatMap_cons, flatMap_cons, renderLine_padTo (narrow l mem_cons_self),
      ih (fun l' hl => narrow l' (mem_cons_of_mem l hl))]

/-- On a new line, stopping hands out the finished lines up to blank ones at the end. -/
lemma follows_finish (h : Follows handed { finished, line := [], returned := false } s) :
    ∃ rest n, s.finish.map Prod.fst = some rest ∧
      handed ++ rest ++ replicate n '\n' =
        finished.flatMap (fun l => trimEnd l ++ ['\n']) := by
  have shows := h.1
  obtain ⟨gone, top, cut, height, screen, texts⟩ := shows.lines
  have inside := shows.row_lt
  have rows : s.screen =
      top.map (padTo s.cols) ++ replicate (s.rows - s.row) (blankRow s.cols) := by
    rw [screen, padTo_nil, ← replicate_succ]
    congr 2
    omega
  have content : contentRows s.screen = contentRows (top.map (padTo s.cols)) := by
    rw [rows, contentRows_append_blank]
  have visible : s.screen.take (contentRows s.screen) =
      (top.map (padTo s.cols)).take (contentRows (top.map (padTo s.cols))) := by
    rw [content, rows, take_append_of_le_length (contentRows_le _)]
  refine ⟨_, (top.map (padTo s.cols)).length - contentRows (top.map (padTo s.cols)),
    finish_main shows.main, ?_⟩
  have narrow : ∀ l ∈ finished, wideContinuation ∉ l :=
    fun l member => shows.narrow l (mem_append_left _ member)
  rw [visible, ← append_assoc handed, append_assoc (handed ++ s.pending),
    ← flatMap_content, texts, flatMap_map, ← flatMap_append, ← cut]
  exact flatMap_padTo narrow

end Screen

lemma clamp_pos {hi n : Nat} (h : 1 ≤ hi) : 0 < clamp 1 hi n := by
  unfold clamp
  split_ifs <;> omega

lemma follows_new (rows cols : UInt16) : Follows [] .blank (new rows cols) := by
  have height : 0 < clamp 1 maxRows rows.toNat := clamp_pos (by decide)
  have width : 0 < clamp 1 maxCols cols.toNat := clamp_pos (by decide)
  constructor
  · refine ⟨rfl, rfl, width, Nat.zero_le _, ?_, height, [], [], rfl, rfl, ?_, rfl⟩
    · intro l member
      rw [mem_singleton.mp member]
      exact not_mem_nil
    · obtain ⟨n, shape⟩ : ∃ n, clamp 1 maxRows rows.toNat = n + 1 :=
        ⟨clamp 1 maxRows rows.toNat - 1, by omega⟩
      simp only [new, shape, replicate_succ, map_nil, nil_append]
      rfl
  · exact .inl ⟨rfl, rfl, width⟩

/-- The recording of plain text is its pieces without trailing blanks, up to blank lines at the
end, when it is cut into lines of the given width. -/
def RecordsPieces (rows cols : UInt16) (width : Nat) (lines : List (List Char))
    (chunks : List (List Char)) : Prop :=
  ∃ text m n, (new rows cols).recordChunks chunks = some text ∧
    text ++ List.replicate m '\n' =
      (lines.flatMap (pieces width)).flatMap (fun l => Text.trimEnd l ++ ['\n']) ++
        List.replicate n '\n'

/-- For every size and every cut into chunks; the renderer has at most `maxCols` columns. -/
theorem plain_text_recorded (rows cols : UInt16) (wide : 1 ≤ cols.toNat) (lines : List (List Char))
    (printable : ∀ line ∈ lines, ∀ c ∈ line, Printable c) (chunks : List (List Char))
    (text : chunks.flatten = plainText lines) :
    RecordsPieces rows cols (min cols.toNat maxCols) lines chunks := by
  have width : (new rows cols).cols = min cols.toNat maxCols := by
    show clamp 1 maxCols cols.toNat = _
    unfold clamp
    split_ifs <;> omega
  have typed : run (Paper.type (new rows cols).cols) .blank chunks.flatten = some
      { finished := lines.flatMap (pieces (min cols.toNat maxCols)), line := [], returned := false } := by
    rw [text, width]
    exact type_lines (by have : 0 < maxCols := by decide
                         omega) printable []
  obtain ⟨out, s', fed, follows⟩ := follows_chunks (follows_new rows cols) typed
  obtain ⟨rest, m, finished, whole⟩ := follows_finish follows
  obtain ⟨last, stopped, rfl⟩ := map_eq_some_iff.mp finished
  refine ⟨out ++ last.1, m, 0, ?_, ?_⟩
  · rw [recordChunks, fed]
    simp only [bind_eq_bind, bind_some, stopped]
    rfl
  · rw [replicate_zero, append_nil]
    exact whole

/-- Two lines in three chunks, one cut between CR and LF. -/
theorem two_lines_recorded :
    RecordsPieces 2 4 4 [['a', ' ', 'c', 'd'], ['e', ' ']]
      [['a', ' ', 'c', 'd', '\r'], ['\n', 'e'], [' ', '\r', '\n']] := by
  have shown : [['a', ' ', 'c', 'd'], ['e', ' ']].all (fun l => l.all (fun c => Printable c)) := by
    decide
  exact plain_text_recorded 2 4 (by decide) [['a', ' ', 'c', 'd'], ['e', ' ']]
    (fun l hl c hc => of_decide_eq_true
      (all_eq_true.mp (all_eq_true.mp shown l hl) c hc))
    [['a', ' ', 'c', 'd', '\r'], ['\n', 'e'], [' ', '\r', '\n']] rfl

def longLine : List Char :=
  List.replicate maxCols 'a' ++ ['a']

lemma trimEnd_replicate (n : Nat) : trimEnd (replicate n 'a') = replicate n 'a' := by
  have dark : isWhitespace 'a' = false := by decide
  rw [trimEnd, reverse_replicate, dropWhile_replicate, dark]
  exact reverse_replicate

lemma longLine_eq : longLine = replicate (maxCols + 1) 'a' :=
  replicate_succ'.symm

lemma longLine_printable : ∀ c ∈ longLine, Printable c := by
  intro c member
  rw [longLine_eq] at member
  rw [eq_of_mem_replicate member]
  decide

/-- A line that fits on the terminal is cut. -/
theorem wide_terminal_cut :
    ¬ RecordsPieces 24 5000 5000 [longLine] [plainText [longLine]] := by
  rintro ⟨text, m, n, recorded, claimed⟩
  obtain ⟨text', m', n', recorded', cut⟩ := plain_text_recorded 24 5000 (by decide) [longLine]
    (by simpa using longLine_printable) [plainText [longLine]] (append_nil _)
  rw [recorded] at recorded'
  cases recorded'
  have width : min (5000 : UInt16).toNat maxCols = maxCols := by decide
  have whole : pieces 5000 longLine = [longLine] :=
    pieces_of_le (by rw [longLine_eq, length_replicate]; decide)
  have halves : pieces maxCols longLine = [replicate maxCols 'a', ['a']] := by
    rw [longLine, pieces_append (by decide) length_replicate, pieces_of_le (by decide)]
  have shown : (text ++ replicate m '\n')[maxCols]? = some 'a' := by
    rw [claimed, flatMap_singleton, whole, flatMap_singleton, longLine_eq,
      trimEnd_replicate, append_assoc, getElem?_append_left (by simp)]
    exact getElem?_replicate_of_lt (Nat.lt_succ_self _)
  have ended : (text ++ replicate m' '\n')[maxCols]? = some '\n' := by
    rw [cut, flatMap_singleton, width, halves, flatMap_cons, trimEnd_replicate,
      append_assoc, append_assoc,
      getElem?_append_right (by rw [length_replicate]), length_replicate, Nat.sub_self]
    rfl
  by_cases inside : maxCols < text.length
  · rw [getElem?_append_left inside] at shown ended
    rw [shown] at ended
    cases ended
  · rw [getElem?_append_right (by omega)] at shown
    have newline := eq_of_mem_replicate (mem_of_getElem? shown)
    cases newline

end VtText
