import KKTerm.Library.Runs
import KKTerm.VtText.Safety

/-!
# Double-width characters and their continuation cells

A row is paired when it is a row of narrow characters and of double-width characters, each with
its continuation. Whatever moves whole rows keeps that; what changes cells is shown to cut a row
only between such pieces, which inserting characters and cutting a row to fewer columns may not.
-/

namespace VtText

open Runs
open Option hiding any_eq_true get mem_map
open List hiding get set
open Checked

def isWide (c : Char) : Bool :=
  charDisplayWidth c = 2

inductive Paired : List Char → Prop where
  | nil : Paired []
  | narrow {c : Char} {rest : List Char} (shown : c ≠ wideContinuation)
      (width : isWide c = false) (later : Paired rest) : Paired (c :: rest)
  | pair {c : Char} {rest : List Char} (width : isWide c = true) (later : Paired rest) :
      Paired (c :: wideContinuation :: rest)

lemma isWide_continuation : isWide wideContinuation = false := by
  decide

lemma ne_of_isWide {c : Char} (wide : isWide c = true) : c ≠ wideContinuation := by
  rintro rfl
  rw [isWide_continuation] at wide
  cases wide

namespace Paired
variable {cells a b : List Char} {n : Nat}

lemma blank (n : Nat) : Paired (replicate n ' ') := by
  induction n with
  | zero => exact nil
  | succ n ih => exact narrow (by decide) (by decide) ih

lemma space (h : Paired cells) : Paired (' ' :: cells) :=
  narrow (by decide) (by decide) h

lemma append (ha : Paired a) (hb : Paired b) : Paired (a ++ b) := by
  induction ha with
  | nil => exact hb
  | narrow shown width _ ih => exact narrow shown width ih
  | pair width _ ih => exact pair width ih

section
variable (h : Paired cells)
include h

lemma head_ne : cells[0]? ≠ some wideContinuation := by
  cases h with
  | nil => simp
  | narrow shown width later => simpa using shown
  | pair width later => simpa using ne_of_isWide width

lemma cut (whole : cells[n]? ≠ some wideContinuation) :
    Paired (cells.take n) ∧ Paired (cells.drop n) := by
  induction h generalizing n with
  | nil => simpa using nil
  | narrow shown width later ih =>
    cases n with
    | zero => exact ⟨nil, narrow shown width later⟩
    | succ n =>
      obtain ⟨front, back⟩ := ih (by simpa using whole)
      exact ⟨narrow shown width front, back⟩
  | pair width later ih =>
    match n with
    | 0 => exact ⟨nil, pair width later⟩
    | 1 => simp at whole
    | n + 2 =>
      obtain ⟨front, back⟩ := ih (by simpa using whole)
      exact ⟨pair width front, back⟩

lemma drop_continuation (here : cells[n]? = some wideContinuation) :
    Paired (cells.drop (n + 1)) := by
  induction h generalizing n with
  | nil => simp at here
  | narrow shown width later ih =>
    cases n with
    | zero => exact absurd (Option.some.inj here) shown
    | succ n => exact ih (by simpa using here)
  | pair width later ih =>
    match n with
    | 0 => exact absurd (Option.some.inj here) (ne_of_isWide width)
    | 1 => exact later
    | n + 2 => exact ih (by simpa using here)

/-- A continuation stands behind a double-width character. -/
lemma before_continuation {i : Nat} (here : cells[i]? = some wideContinuation) :
    ∃ j c, i = j + 1 ∧ cells[j]? = some c ∧ isWide c = true := by
  induction h generalizing i with
  | nil => simp at here
  | narrow shown width later ih =>
    cases i with
    | zero => exact absurd (Option.some.inj here) shown
    | succ i =>
      obtain ⟨j, c, rfl, there, wide⟩ := ih (by simpa using here)
      exact ⟨j + 1, c, rfl, by simpa using there, wide⟩
  | pair width later ih =>
    match i with
    | 0 => exact absurd (Option.some.inj here) (ne_of_isWide width)
    | 1 => exact ⟨0, _, rfl, rfl, width⟩
    | i + 2 =>
      obtain ⟨j, c, rfl, there, wide⟩ := ih (by simpa using here)
      exact ⟨j + 2, c, rfl, by simpa using there, wide⟩

/-- A double-width character stands before its continuation. -/
lemma behind_wide {i : Nat} {c : Char} (here : cells[i]? = some c)
    (wide : isWide c = true) : cells[i + 1]? = some wideContinuation := by
  induction h generalizing i with
  | nil => simp at here
  | narrow shown width later ih =>
    cases i with
    | zero =>
      cases here
      rw [width] at wide
      cases wide
    | succ i => simpa using ih (by simpa using here)
  | pair width later ih =>
    match i with
    | 0 => rfl
    | 1 =>
      cases here
      rw [isWide_continuation] at wide
      cases wide
    | i + 2 => simpa using ih (by simpa using here)

lemma resize (whole : cells[n]? ≠ some wideContinuation) : Paired (Checked.resize cells n ' ') :=
  (h.cut whole).1.append (blank _)

end

end Paired

/-- A cell is about to be overwritten: the other half of its pair becomes a space. -/
def clearWide (cells : List Char) (col : Nat) : List Char :=
  if cells[col]? = some wideContinuation then (cells.set (col - 1) ' ').set col ' '
  else if cells[col + 1]? = some wideContinuation then cells.set (col + 1) ' '
  else cells

section ClearWide
variable {cells front rest : List Char} {col : Nat} {c ch : Char}

@[simp] lemma length_clearWide : (clearWide cells col).length = cells.length := by
  unfold clearWide
  split
  · simp
  · split <;> simp

lemma clearWide_cons (later : col = 0 → rest[0]? ≠ some wideContinuation) :
    clearWide (c :: rest) (col + 1) = c :: clearWide rest col := by
  unfold clearWide
  simp only [getElem?_cons_succ]
  split
  · cases col with
    | zero => exact absurd ‹_› (later rfl)
    | succ col => simp
  · split <;> simp

lemma clearWide_append (later : rest[0]? ≠ some wideContinuation) :
    clearWide (front ++ rest) (front.length + col) = front ++ clearWide rest col := by
  induction front with
  | nil => simp
  | cons c front ih =>
    rw [cons_append, length_cons, Nat.add_right_comm, clearWide_cons, ih, cons_append]
    intro start
    obtain rfl : front = [] := eq_nil_of_length_eq_zero (by omega)
    exact later

/-- The cell stands between paired parts; it is half a pair only if it was the first half. -/
lemma clearWide_split (h : Paired cells) (inside : col < cells.length) :
    ∃ a x b, clearWide cells col = a ++ x :: b ∧ a.length = col ∧ Paired a ∧ Paired b ∧
      (cells[col + 1]? ≠ some wideContinuation → x ≠ wideContinuation ∧ isWide x = false) := by
  induction h generalizing col with
  | nil => simp at inside
  | @narrow c rest shown width later ih =>
    cases col with
    | zero =>
      refine ⟨[], c, rest, ?_, rfl, .nil, later, fun _ => ⟨shown, width⟩⟩
      have next := later.head_ne
      simp [clearWide, shown, next]
    | succ col =>
      obtain ⟨a, x, b, cleared, rfl, ha, hb, narrow⟩ := ih (by simpa using inside)
      refine ⟨c :: a, x, b, ?_, rfl, .narrow shown width ha, hb, by simpa using narrow⟩
      rw [clearWide_cons fun _ => later.head_ne, cleared, cons_append]
  | @pair c rest width later ih =>
    match col with
    | 0 =>
      refine ⟨[], c, ' ' :: rest, ?_, rfl, .nil, later.space, by simp⟩
      simp [clearWide, ne_of_isWide width]
    | 1 =>
      refine ⟨[' '], ' ', rest, ?_, rfl, .space .nil, later, fun _ => by decide⟩
      simp [clearWide]
    | col + 2 =>
      obtain ⟨a, x, b, cleared, rfl, ha, hb, narrow⟩ := ih (by simpa using inside)
      refine ⟨c :: wideContinuation :: a, x, b, ?_, rfl, .pair width ha, hb, by simpa using narrow⟩
      rw [clearWide_cons (by simp), clearWide_cons fun _ => later.head_ne, cleared,
        cons_append, cons_append]

lemma set_clearWide (h : Paired cells) (inside : col < cells.length)
    (shown : ch ≠ wideContinuation) (narrow : isWide ch = false) :
    Paired ((clearWide cells col).set col ch) := by
  obtain ⟨a, x, b, cleared, rfl, ha, hb, -⟩ := clearWide_split h inside
  rw [cleared, set_append_right _ _ (Nat.le_refl _), Nat.sub_self, set_cons_zero]
  exact ha.append (.narrow shown narrow hb)

lemma set_clearWide_wide (h : Paired cells) (inside : col + 1 < cells.length)
    (wide : isWide ch = true) :
    Paired (((clearWide (clearWide cells col) (col + 1)).set col ch).set (col + 1)
      wideContinuation) := by
  obtain ⟨a, x, b, cleared, rfl, ha, hb, -⟩ := clearWide_split h (Nat.lt_of_succ_lt inside)
  have size := congrArg List.length cleared
  rw [length_clearWide, length_append, length_cons] at size
  obtain ⟨a', y, b', cleared', empty, -, hb', -⟩ := @clearWide_split _ 0 hb (by omega)
  obtain rfl := eq_nil_of_length_eq_zero empty
  have second : clearWide (a ++ x :: b) (a.length + 1) = a ++ x :: y :: b' := by
    have split := @clearWide_append (a ++ [x]) _ 0 hb.head_ne
    rw [cleared', append_assoc, append_assoc] at split
    simpa using split
  rw [cleared, second, set_append_right _ _ (Nat.le_refl _), Nat.sub_self, set_cons_zero,
    set_append_right _ _ (by omega), Nat.add_sub_cancel_left, set_cons_succ,
    set_cons_zero]
  exact ha.append (.pair wide hb')

end ClearWide

/-- The rows on the screen, and those held while the alternate screen is shown, are paired. -/
structure AllPaired (s : VtTextRenderer) : Prop where
  screen : ∀ line ∈ s.screen, Paired line
  held : ∀ main ∈ s.mainScreen, ∀ line ∈ main.1, Paired line

lemma AllPaired.frame {s t s' : VtTextRenderer} (hp : AllPaired s) (step : some t = some s')
    (screen : t.screen = s.screen) (held : t.mainScreen = s.mainScreen) : AllPaired s' := by
  cases step
  exact ⟨screen ▸ hp.screen, held ▸ hp.held⟩

namespace VtTextRenderer
variable {s s' : VtTextRenderer} {l l' : List Char} {col count width : Nat} {ch : Char}

def line (s : VtTextRenderer) : List Char :=
  s.screen[s.row]?.getD []

def withLine (s : VtTextRenderer) (l : List Char) : VtTextRenderer :=
  { s with screen := s.screen.set s.row l }

@[simp] lemma withLine_row : (s.withLine l).row = s.row := rfl
@[simp] lemma withLine_col : (s.withLine l).col = s.col := rfl
@[simp] lemma withLine_cols : (s.withLine l).cols = s.cols := rfl

@[simp] lemma withLine_withLine : (s.withLine l).withLine l' = s.withLine l' := by
  simp [withLine]

lemma row_lt_length (h : WellFormed s) : s.row < s.screen.length := by
  rw [h.shape.length_eq]
  exact h.row_lt

lemma line_mem (h : WellFormed s) : s.line ∈ s.screen := by
  rw [line, getElem?_eq_getElem (row_lt_length h)]
  exact getElem_mem _

lemma length_line (h : WellFormed s) : s.line.length = s.cols :=
  h.shape.line_length _ (line_mem h)

lemma withLine_line (h : WellFormed s) : s.withLine s.line = s := by
  rw [withLine, line, getElem?_eq_getElem (row_lt_length h), getD_some, set_getElem_self]

lemma withLine_paired (h : AllPaired s) (paired : Paired l) : AllPaired (s.withLine l) := by
  refine ⟨fun line member => ?_, h.held⟩
  rcases mem_or_eq_of_mem_set member with old | rfl
  · exact h.screen line old
  · exact paired

section
variable (h : WellFormed s)
include h

lemma get_withLine : get (s.withLine l).screen s.row = some l := by
  simp [Checked.get, withLine, row_lt_length h]

lemma set_withLine : set (s.withLine l).screen s.row l' = some (s.withLine l').screen := by
  have row := row_lt_length h
  rw [set_of_lt]
  · simp [withLine]
  · simpa [withLine] using row

lemma setCell_withLine (inside : col < l.length) :
    (s.withLine l).setCell s.row col ch = some (s.withLine (l.set col ch)) := by
  unfold setCell
  simp only [get_withLine h, set_of_lt inside, set_withLine h, bind_eq_bind, bind_some]
  rfl

lemma cell_withLine : (s.withLine l).cell s.row col = l[col]? := by
  unfold cell
  rw [get_withLine h]
  rfl

lemma clearWideCell_withLine (size : l.length = s.cols) (inside : col < s.cols) :
    (s.withLine l).clearWideCell s.row col = some (s.withLine (clearWide l col)) := by
  unfold clearWideCell clearWide
  rw [cell_withLine h, cell_withLine h, getElem?_eq_getElem (by omega)]
  simp only [bind_eq_bind, bind_some, Option.some.injEq]
  split
  · split
    · rename_i pos
      rw [sub_of_le pos, bind_some, setCell_withLine h (by omega), bind_some,
        setCell_withLine h (by simpa using (by omega : col < l.length))]
    · obtain rfl : col = 0 := by omega
      rw [bind_some, setCell_withLine h (by omega)]
      simp
  · by_cases next : col + 1 < s.cols
    · rw [if_pos (show col + 1 < (s.withLine l).cols from next),
        getElem?_eq_getElem (by omega), bind_some]
      simp only [Option.some.injEq]
      split
      · exact setCell_withLine h (by omega)
      · rfl
    · rw [if_neg (show ¬ col + 1 < (s.withLine l).cols from next), getElem?_eq_none (by omega)]
      rfl

/-- Printing keeps the row paired if a double-width character has its two cells. -/
lemma putChar_paired (hp : AllPaired s) (fits : s.col + width ≤ s.cols)
    (shown : ch ≠ wideContinuation) (wide : width = 2 ↔ isWide ch = true)
    (step : s.putChar ch width = some s') : AllPaired s' := by
  have size := length_line h
  have col_lt := h.col_lt
  have paired := hp.screen _ (line_mem h)
  rw [← withLine_line h] at step
  unfold putChar at step
  simp only [withLine_row, withLine_col, clearWideCell_withLine h size h.col_lt,
    bind_eq_bind, bind_some] at step
  split at step
  · rename_i two
    have size' : (clearWide s.line s.col).length = s.cols := by simpa using size
    rw [clearWideCell_withLine h size' (by omega)] at step
    simp only [withLine_row, withLine_col, bind_some] at step
    rw [setCell_withLine h (by rw [length_clearWide]; omega)] at step
    simp only [withLine_row, withLine_col, bind_some] at step
    rw [setCell_withLine h (by rw [length_set, length_clearWide]; omega)] at step
    cases step
    exact withLine_paired hp (set_clearWide_wide paired (by omega) (wide.mp two))
  · rename_i one
    rw [setCell_withLine h (by rw [length_clearWide]; omega)] at step
    cases step
    have narrow : isWide ch = false := by
      rw [← Bool.not_eq_true, ← wide]
      exact one
    exact withLine_paired hp (set_clearWide paired (by omega) shown narrow)

end

variable {start stop : Nat} {screen screen' : List (List Char)} {i mode : Nat} {enable : Bool}

lemma eraseCells_paired (h : WellFormed s) (hp : AllPaired s) (inside : stop ≤ s.cols)
    (step : s.eraseCells start stop = some s') : AllPaired s' := by
  have loop : Ensures (s.eraseCells start stop)
      (fun s' => ∃ l, s' = s.withLine l ∧ l.length = s.cols ∧ Paired l) := by
    refine ensures_foldlM _ (fun s₁ col member held => ?_)
      ⟨s.line, (withLine_line h).symm, length_line h, hp.screen _ (line_mem h)⟩
    obtain ⟨l, rfl, size, paired⟩ := held
    have here : col < s.cols := by
      have := mem_range'_1.mp member
      omega
    simp only [withLine_row, clearWideCell_withLine h size here, bind_eq_bind, bind_some]
    rw [setCell_withLine h (by simpa [size] using here)]
    exact ensures_some ⟨_, rfl, by simpa using size,
      set_clearWide paired (by omega) (by decide) (by decide)⟩
  obtain ⟨l, rfl, -, paired⟩ := loop.of_eq_some step
  exact withLine_paired hp paired

lemma insertIdx_eq {x : Char} (inside : col ≤ l.length) :
    l.insertIdx col x = l.take col ++ x :: l.drop col := by
  induction l generalizing col with
  | nil =>
    obtain rfl : col = 0 := Nat.le_zero.mp inside
    rfl
  | cons c l ih =>
    cases col with
    | zero => rfl
    | succ col =>
      rw [insertIdx_succ_cons, ih (by simpa using inside)]
      rfl

lemma insertBlanks_eq (inside : col ≤ l.length) (count : Nat) :
    (range count).foldlM (fun line _ => Checked.insert line col ' ') l =
      some (l.take col ++ (replicate count ' ' ++ l.drop col)) := by
  have front : (l.take col).length = col := by
    rw [length_take]
    omega
  induction count with
  | zero => simp
  | succ count ih =>
    have room : col ≤ (l.take col ++ (replicate count ' ' ++ l.drop col)).length := by
      rw [length_append, front]
      omega
    rw [range_succ, foldlM_append, ih]
    simp only [bind_eq_bind, bind_some, foldlM_cons, foldlM_nil]
    rw [insert_of_le room, insertIdx_eq room, take_left' front, drop_left' front, replicate_succ]
    rfl

/-- Inserting characters moves no first half away from its continuation and pushes no
continuation over the margin. -/
def InsertsWhole (s : VtTextRenderer) (count : Nat) : Prop :=
  s.col + min count (s.cols - s.col) < s.cols →
    s.line[s.col + 1]? ≠ some wideContinuation ∧
      s.line[s.cols - min count (s.cols - s.col)]? ≠ some wideContinuation

lemma insertChars_paired (h : WellFormed s) (hp : AllPaired s) (whole : s.InsertsWhole count)
    (step : s.insertChars count = some s') : AllPaired s' := by
  have size := length_line h
  have col_lt := h.col_lt
  obtain ⟨a, x, b, split, length, ha, hb, narrow⟩ :=
    @clearWide_split _ s.col (hp.screen _ (line_mem h)) (by omega)
  unfold InsertsWhole at whole
  rw [← withLine_line h] at step
  unfold insertChars at step
  simp only [withLine_row, withLine_col, withLine_cols, sub_of_le (Nat.le_of_lt col_lt),
    clearWideCell_withLine h size col_lt, get_withLine h, bind_eq_bind,
    bind_some] at step
  have room : min count (s.cols - s.col) ≤ s.cols - s.col := Nat.min_le_right _ _
  generalize min count (s.cols - s.col) = n at step whole room
  simp only [sub_of_le (show n ≤ s.cols by omega), bind_some] at step
  rw [insertBlanks_eq (by rw [length_take, length_clearWide]; omega)] at step
  simp only [bind_some, set_withLine h] at step
  cases step
  refine withLine_paired hp ?_
  have front : ((clearWide s.line s.col).take (s.cols - n)).take s.col = a := by
    rw [take_take, Nat.min_eq_left (by omega), split, ← length, take_left]
  rw [front, drop_take, split, ← length, drop_left]
  refine ha.append ((Paired.blank _).append ?_)
  rcases Nat.eq_zero_or_pos (s.cols - n - a.length) with none_ | pos
  · rw [none_]
    exact .nil
  · obtain ⟨start, stop⟩ := whole (by omega)
    obtain ⟨shown, width⟩ := narrow start
    obtain ⟨k, hk⟩ : ∃ k, s.cols - n - a.length = k + 1 := ⟨_, (Nat.sub_add_cancel pos).symm⟩
    have there : (clearWide s.line s.col)[a.length + (k + 1)]? = s.line[a.length + (k + 1)]? := by
      unfold clearWide
      split
      · rw [getElem?_set_ne (by omega), getElem?_set_ne (by omega)]
      · rfl
    have behind : s.cols - n = a.length + (k + 1) := by omega
    rw [behind, ← there, split, getElem?_append_right (by omega), Nat.add_sub_cancel_left,
      getElem?_cons_succ] at stop
    rw [hk, take_succ_cons]
    exact .narrow shown width (hb.cut stop).1

lemma deleteChars_paired (h : WellFormed s) (hp : AllPaired s) (some_ : 1 ≤ count)
    (step : s.deleteChars count = some s') : AllPaired s' := by
  have size := length_line h
  have col_lt := h.col_lt
  obtain ⟨a, x, b, split, length, ha, hb, -⟩ :=
    @clearWide_split _ s.col (hp.screen _ (line_mem h)) (by omega)
  have whole := congrArg List.length split
  rw [length_clearWide, length_append, length_cons] at whole
  obtain ⟨n, hn⟩ : ∃ n, min count (s.cols - s.col) = n + 1 :=
    ⟨min count (s.cols - s.col) - 1, by omega⟩
  have drained : drain (clearWide s.line s.col) s.col (s.col + (n + 1)) = some (a ++ b.drop n) := by
    rw [drain_of_le (by omega) (by rw [length_clearWide]; omega), split, ← length, take_left,
      ← drop_drop, drop_left, drop_succ_cons]
  have padded : Checked.resize (a ++ b.drop n) s.cols ' ' =
      a ++ (b.drop n ++ replicate (n + 1) ' ') := by
    have short : (a ++ b.drop n).length = s.cols - (n + 1) := by
      rw [length_append, length_drop]
      omega
    rw [Checked.resize, short, take_of_length_le (by omega), append_assoc]
    congr 3
    omega
  have rest : Paired (b.drop n ++ replicate (n + 1) ' ') ∨
      ∃ later, b.drop n ++ replicate (n + 1) ' ' = wideContinuation :: later ∧
        Paired later := by
    by_cases seam : b[n]? = some wideContinuation
    · refine Or.inr ⟨b.drop (n + 1) ++ replicate (n + 1) ' ', ?_,
        (hb.drop_continuation seam).append (.blank _)⟩
      obtain ⟨inside, here⟩ := List.getElem?_eq_some_iff.mp seam
      rw [drop_eq_getElem_cons inside, here, cons_append]
    · exact .inl ((hb.cut seam).2.append (.blank _))
  obtain ⟨y, later, first⟩ := exists_cons_of_ne_nil
    (show b.drop n ++ replicate (n + 1) ' ' ≠ [] by simp)
  have seam : get (a ++ y :: later) s.col = some y := by
    rw [Checked.get, ← length, getElem?_append_right (Nat.le_refl _), Nat.sub_self]
    rfl
  have blanked : set (a ++ y :: later) s.col ' ' = some (a ++ ' ' :: later) := by
    rw [set_of_lt (by rw [length_append, length_cons]; omega), ← length,
      set_append_right _ _ (Nat.le_refl _), Nat.sub_self, set_cons_zero]
  rw [← withLine_line h] at step
  unfold deleteChars at step
  simp only [withLine_row, withLine_col, withLine_cols, sub_of_le (Nat.le_of_lt col_lt), hn,
    clearWideCell_withLine h size col_lt, get_withLine h, drained, padded, first, seam, blanked,
    bind_eq_bind, bind_some] at step
  rw [first] at rest
  split at step
  · rename_i continuation
    simp only [bind_some, set_withLine h] at step
    cases step
    refine withLine_paired hp ?_
    rcases rest with paired | ⟨later', same, paired⟩
    · rw [continuation] at paired
      exact absurd rfl paired.head_ne
    · obtain ⟨-, rfl⟩ := List.cons.inj same
      exact ha.append paired.space
  · rename_i other
    simp only [bind_some, set_withLine h] at step
    cases step
    refine withLine_paired hp ?_
    rcases rest with paired | ⟨later', same, -⟩
    · exact ha.append paired
    · exact absurd (List.cons.inj same).1 other

lemma AllPaired_of_rows (hp : AllPaired s)
    (rows : ∀ line ∈ s'.screen, line ∈ s.screen ∨ Paired line)
    (held : s'.mainScreen = s.mainScreen) : AllPaired s' := by
  refine ⟨fun line member => ?_, held ▸ hp.held⟩
  rcases rows line member with old | paired
  · exact hp.screen line old
  · exact paired

lemma scrollUp_paired (hp : AllPaired s) (step : s.scrollUp count = some s') : AllPaired s' := by
  refine run_invariant (fun s₁ _ s₂ step hp => ?_) step hp
  simp only [scrollUpOne, Checked.remove, bind_eq_bind, bind_eq_some_iff,
    map_eq_some_iff, Option.pure_def, Option.some.injEq] at step
  obtain ⟨_, ⟨top, -, rfl⟩, rfl⟩ := step
  refine AllPaired_of_rows hp (fun line member => ?_) rfl
  rcases mem_append.mp member with old | new
  · exact .inl (mem_of_mem_eraseIdx old)
  · exact .inr (mem_singleton.mp new ▸ .blank _)

lemma insertRow_rows
    (inserted : Checked.insert screen.dropLast i (blankRow s.cols) = some screen') :
    ∀ line ∈ screen', line ∈ screen ∨ Paired line := by
  unfold Checked.insert at inserted
  split at inserted
  · rename_i inside
    cases inserted
    intro line member
    rcases (mem_insertIdx inside).mp member with rfl | old
    · exact .inr (.blank _)
    · exact .inl (mem_of_mem_dropLast old)
  · cases inserted

lemma scrollDown_paired (hp : AllPaired s) (step : s.scrollDown count = some s') :
    AllPaired s' := by
  refine run_invariant (fun s₁ _ s₂ step hp => ?_) step hp
  simp only [scrollDownOne, bind_eq_bind, bind_eq_some_iff, Option.pure_def,
    Option.some.injEq] at step
  obtain ⟨screen, inserted, rfl⟩ := step
  exact AllPaired_of_rows hp (insertRow_rows inserted) rfl

lemma insertLines_paired (hp : AllPaired s) (step : s.insertLines count = some s') :
    AllPaired s' := by
  simp only [insertLines, bind_eq_bind, bind_eq_some_iff] at step
  obtain ⟨room, -, step⟩ := step
  refine run_invariant (fun s₁ _ s₂ step hp => ?_) step hp
  simp only [bind_eq_some_iff, Option.pure_def, Option.some.injEq] at step
  obtain ⟨screen, inserted, rfl⟩ := step
  exact AllPaired_of_rows hp (insertRow_rows inserted) rfl

lemma deleteLines_paired (hp : AllPaired s) (step : s.deleteLines count = some s') :
    AllPaired s' := by
  simp only [deleteLines, bind_eq_bind, bind_eq_some_iff] at step
  obtain ⟨room, -, step⟩ := step
  refine run_invariant (fun s₁ _ s₂ step hp => ?_) step hp
  simp only [Checked.remove, bind_eq_some_iff, map_eq_some_iff, Option.pure_def,
    Option.some.injEq] at step
  obtain ⟨_, ⟨line, -, rfl⟩, rfl⟩ := step
  refine AllPaired_of_rows hp (fun line member => ?_) rfl
  rcases mem_append.mp member with old | new
  · exact .inl (mem_of_mem_eraseIdx old)
  · exact .inr (mem_singleton.mp new ▸ .blank _)

lemma setRow_rows {n : Nat} (done : Checked.set screen i (replicate n ' ') = some screen') :
    ∀ line ∈ screen', line ∈ screen ∨ Paired line := by
  unfold Checked.set at done
  split at done
  · cases done
    intro line member
    rcases mem_or_eq_of_mem_set member with old | rfl
    · exact .inl old
    · exact .inr (.blank _)
  · cases done

section
variable (hp : AllPaired s)
include hp

lemma fillRows_paired (step : s.fillRows start stop = some s') : AllPaired s' := by
  refine run_invariant (fun s₁ row s₂ step hp => ?_) step hp
  simp only [bind_eq_bind, bind_eq_some_iff, Option.pure_def, Option.some.injEq] at step
  obtain ⟨line, -, screen, done, rfl⟩ := step
  exact AllPaired_of_rows hp (setRow_rows done) rfl

lemma flushScreen_paired (step : s.flushScreen = some s') : AllPaired s' := by
  unfold flushScreen at step
  split at step
  · cases step
    refine AllPaired_of_rows hp (fun line member => Or.inr ?_) rfl
    obtain ⟨old, -, rfl⟩ := mem_map.mp member
    exact .blank _
  · refine run_invariant (fun s₁ index s₂ step hp => ?_) step hp
    simp only [bind_eq_bind, bind_eq_some_iff, Option.pure_def, Option.some.injEq] at step
    obtain ⟨line, -, screen, done, rfl⟩ := step
    exact AllPaired_of_rows hp (setRow_rows done) rfl

lemma lineFeed_paired (step : s.lineFeed = some s') : AllPaired s' := by
  unfold lineFeed at step
  split at step
  · exact hp.frame step rfl rfl
  · exact scrollUp_paired hp step

lemma reverseLineFeed_paired (step : s.reverseLineFeed = some s') : AllPaired s' := by
  unfold reverseLineFeed at step
  split at step
  · obtain ⟨row, -, step⟩ := bind_eq_some_iff.mp step
    exact hp.frame step rfl rfl
  · exact scrollDown_paired hp step

lemma restoreCursor_paired (step : s.restoreCursor = some s') : AllPaired s' := by
  unfold restoreCursor at step
  split at step
  · obtain ⟨row, -, step⟩ := bind_eq_some_iff.mp step
    obtain ⟨col, -, step⟩ := bind_eq_some_iff.mp step
    exact hp.frame step rfl rfl
  · exact hp.frame step rfl rfl

end

lemma charDisplayWidth_le (ch : Char) : charDisplayWidth ch ≤ 2 := by
  unfold charDisplayWidth
  simp only
  split
  · omega
  · split <;> omega

lemma print_paired (h : WellFormed s) (hp : AllPaired s) (shown : ch ≠ wideContinuation)
    (room : s.cols = 1 → isWide ch = false) (step : s.print ch = some s') : AllPaired s' := by
  unfold print at step
  simp only [bind_eq_bind] at step
  split at step
  · exact hp.frame step rfl rfl
  · obtain ⟨s₁, wrapped, step⟩ := bind_eq_some_iff.mp step
    obtain ⟨s₂, made, step⟩ := bind_eq_some_iff.mp step
    obtain ⟨s₃, put, step⟩ := bind_eq_some_iff.mp step
    obtain ⟨h₁, q₁⟩ := (resolveWrap_safe h).of_eq_some wrapped
    have hp₁ : AllPaired s₁ := by
      unfold resolveWrap at wrapped
      split at wrapped
      · obtain ⟨s₀, fed, same⟩ := bind_eq_some_iff.mp wrapped
        have start : AllPaired { s with col := 0 } := ⟨hp.screen, hp.held⟩
        exact (lineFeed_paired start fed).frame same rfl rfl
      · cases wrapped
        exact hp
    have fits : min (charDisplayWidth ch) s.cols ≤ s₁.cols := by
      rw [q₁.cols_eq]
      omega
    obtain ⟨⟨h₂, q₂⟩, inside⟩ := (makeRoom_safe h₁ fits).of_eq_some made
    have hp₂ : AllPaired s₂ := by
      split at made
      · have start : AllPaired { s₁ with col := 0 } := ⟨hp₁.screen, hp₁.held⟩
        exact lineFeed_paired start made
      · cases made
        exact hp₁
    have some_ := h.col_lt
    have le := charDisplayWidth_le ch
    have two : min (charDisplayWidth ch) s.cols = 2 ↔ isWide ch = true := by
      by_cases one : s.cols = 1
      · have narrow := room one
        rw [narrow]
        simp only [Bool.false_eq_true, iff_false]
        omega
      · rw [isWide, decide_eq_true_eq]
        omega
    have hp₃ := putChar_paired h₂ hp₂ inside shown two put
    unfold advance at step
    split at step
    · obtain ⟨col, -, step⟩ := bind_eq_some_iff.mp step
      exact hp₃.frame step rfl rfl
    · exact hp₃.frame step rfl rfl

lemma eraseLine_paired (h : WellFormed s) (hp : AllPaired s) (step : s.eraseLine mode = some s') :
    AllPaired s' := by
  unfold eraseLine at step
  split at step
  · exact eraseCells_paired h hp (Nat.le_refl _) step
  · exact eraseCells_paired h hp (Nat.min_le_right _ _) step
  · exact eraseCells_paired h hp (Nat.le_refl _) step
  · exact hp.frame step rfl rfl

lemma eraseDisplay_paired (h : WellFormed s) (hp : AllPaired s)
    (step : s.eraseDisplay mode = some s') : AllPaired s' := by
  unfold eraseDisplay at step
  split at step
  · obtain ⟨s₁, erased, filled⟩ := bind_eq_some_iff.mp step
    exact fillRows_paired (eraseLine_paired h hp erased) filled
  · obtain ⟨s₁, erased, filled⟩ := bind_eq_some_iff.mp step
    exact fillRows_paired (eraseLine_paired h hp erased) filled
  · exact flushScreen_paired hp step
  · exact flushScreen_paired hp step
  · exact hp.frame step rfl rfl

/-- No row is cut between a character and its continuation. -/
def FitsWhole (screen : List (List Char)) (cols : Nat) : Prop :=
  ∀ cells ∈ screen, cells[cols]? ≠ some wideContinuation

lemma window_paired {rows cols leaving : Nat} (paired : ∀ line ∈ screen, Paired line)
    (whole : FitsWhole screen cols) :
    ∀ line ∈ window (refit screen cols) rows cols leaving, Paired line := by
  intro line member
  rcases mem_append.mp member with kept | blank
  · have inside := mem_of_mem_drop (mem_of_mem_take kept)
    obtain ⟨old, listed, rfl⟩ := mem_map.mp inside
    exact (paired old listed).resize (whole old listed)
  · exact eq_of_mem_replicate blank ▸ .blank _

lemma normalizeScreen_paired (step : s.normalizeScreen = some s') (hr : 0 < s.rows)
    (hc : 0 < s.cols) (hp : AllPaired s) (whole : FitsWhole s.screen s.cols) :
    AllPaired s' ∧ s'.mainScreen = s.mainScreen := by
  rw [normalizeScreen_eq hr hc] at step
  cases step
  exact ⟨⟨window_paired hp.screen whole, hp.held⟩, rfl⟩

lemma resize_paired (hp : AllPaired s) {rows cols : UInt16}
    (whole : FitsWhole s.screen (clamp 1 maxCols cols.toNat))
    (step : s.resize rows cols = some s') : AllPaired s' := by
  have hrow := clamp_bounds (show 1 ≤ maxRows by decide) rows.toNat
  have hcol := clamp_bounds (show 1 ≤ maxCols by decide) cols.toNat
  unfold resize at step
  simp only [] at step
  split at step
  · exact hp.frame step rfl rfl
  · dsimp only [fitCols] at step
    rw [shrinkTo_eq] at step
    · simp only [bind_eq_bind, bind_some, growTo, clampRow, clampCol,
        sub_of_le hrow.1, sub_of_le hcol.1, Option.pure_def] at step
      cases step
      exact ⟨window_paired hp.screen whole, hp.held⟩
    · exact Nat.le_add_left _ _

/-- What is held while the alternate screen is shown fits. -/
def HeldFits (s : VtTextRenderer) : Prop :=
  ∀ main ∈ s.mainScreen, FitsWhole main.1 s.cols

lemma setPrivateMode_paired (h : WellFormed s) (hp : AllPaired s)
    (whole : enable = false → isScreenMode mode = true → s.HeldFits)
    (step : setPrivateMode enable s mode = some s') :
    AllPaired s' ∧ (s.HeldFits → enable = false → s'.HeldFits) := by
  have hrow := h.row_lt
  have hcol := h.col_lt
  unfold setPrivateMode at step
  split at step
  · rename_i screenMode
    split at step
    · rename_i enters
      cases step
      refine ⟨⟨fun line member => eq_of_mem_replicate member ▸ .blank _,
        fun main member => ?_⟩, fun _ off => absurd (enters.1.symm.trans off) (by decide)⟩
      cases member
      exact hp.screen
    · split at step
      · cases step
        exact ⟨hp, fun fits _ => fits⟩
      · rename_i off
        split at step
        · rename_i main row col shown
          have fits := whole (by simpa using off) screenMode _ shown
          have start : AllPaired { s with screen := main, mainScreen := none, row, col } :=
            ⟨hp.held _ shown, by simp⟩
          obtain ⟨paired, none_⟩ := normalizeScreen_paired step (Nat.zero_lt_of_lt hrow)
            (Nat.zero_lt_of_lt hcol) start fits
          exact ⟨paired, fun _ _ main held => by rw [none_] at held; cases held⟩
        · cases step
          exact ⟨hp, fun fits _ => fits⟩
  · split at step
    · split at step
      · cases step
        exact ⟨⟨hp.screen, hp.held⟩, fun fits _ => fits⟩
      · refine ⟨restoreCursor_paired hp step, fun fits _ => ?_⟩
        have quiet := ((restoreCursor_safe h).of_eq_some step).2
        rw [HeldFits, quiet.mainScreen_eq, quiet.cols_eq]
        exact fits
    · cases step
      exact ⟨hp, fun fits _ => fits⟩

lemma setPrivateModes_paired (h : WellFormed s) (hp : AllPaired s) {params : List Nat}
    (whole : enable = false → params.any isScreenMode = true → s.HeldFits)
    (step : s.setPrivateModes params enable = some s') : AllPaired s' := by
  have loop : Ensures (s.setPrivateModes params enable) (fun s => WellFormed s ∧ AllPaired s ∧
      (enable = false → params.any isScreenMode = true → s.HeldFits)) := by
    refine ensures_foldlM params (fun s₁ mode member held => ?_) ⟨h, hp, whole⟩
    obtain ⟨h₁, hp₁, whole₁⟩ := held
    obtain ⟨s₂, step, h₂, -⟩ := setPrivateMode_spec h₁ enable mode
    have result := setPrivateMode_paired h₁ hp₁
      (fun off screenMode => whole₁ off (any_eq_true.mpr ⟨mode, member, screenMode⟩)) step
    exact ⟨s₂, step, h₂, result.1, fun off any => result.2 (whole₁ off any) off⟩
  exact (loop.of_eq_some step).2.1

def CutsNoPair (s : VtTextRenderer) (finalByte : Char) : Prop :=
  match finalByte with
  | '@' => s.InsertsWhole (param (csiParamValues s.csiParams) 0 1)
  | 'l' => s.switchesScreen 'l' = true → s.HeldFits
  | 't' => ∀ rows cols, csiParamValues s.csiParams = [8, rows, cols] → 0 < rows → 0 < cols →
      FitsWhole s.screen (clamp 1 maxCols (UInt16.ofNat cols).toNat)
  | _ => True

lemma csiDispatch_paired (h : WellFormed s) (hp : AllPaired s) {finalByte : Char}
    (whole : s.CutsNoPair finalByte) (step : s.csiDispatch finalByte = some s') :
    AllPaired s' := by
  have hw : WellFormed { s with wrapPending := false } :=
    ⟨h.shape, h.row_lt, h.col_lt, h.rows_le, h.cols_le⟩
  have start : AllPaired { s with wrapPending := false } := ⟨hp.screen, hp.held⟩
  have p₀ := param_default_pos (csiParamValues s.csiParams) 0
  have p₁ := param_default_pos (csiParamValues s.csiParams) 1
  unfold csiDispatch at step
  simp only [clampRow_eq hw, clampCol_eq hw, sub_of_le p₀, sub_of_le p₁, bind_eq_bind,
    bind_some, Option.pure_def] at step
  split at step
  all_goals try exact hp.frame step rfl rfl
  · exact eraseDisplay_paired hw start step
  · exact eraseLine_paired hw start step
  · exact insertChars_paired hw start whole step
  · exact deleteChars_paired hw start p₀ step
  · exact eraseCells_paired hw start (Nat.min_le_right _ _) step
  · exact insertLines_paired start step
  · exact deleteLines_paired start step
  · exact scrollUp_paired start step
  · exact scrollDown_paired start step
  · split at step
    · exact setPrivateModes_paired hw start (fun off => absurd off (by decide)) step
    · exact hp.frame step rfl rfl
  · split at step
    · rename_i priv
      refine setPrivateModes_paired hw start (fun _ any => whole ?_) step
      simp [switchesScreen, priv, any]
    · exact hp.frame step rfl rfl
  · split at step
    · exact hp.frame step rfl rfl
    · exact hp.frame step rfl rfl
  · split at step
    · exact hp.frame step rfl rfl
    · exact restoreCursor_paired start step
  · split at step
    · rename_i rows cols params
      split at step
      · rename_i positive
        exact resize_paired start (whole rows cols params positive.1 positive.2) step
      · exact hp.frame step rfl rfl
    · exact hp.frame step rfl rfl

lemma isWide_control {ch : Char} (control : ch.toNat < 0x20) : isWide ch = false := by
  have below {lo hi : Nat} (high : 0x20 ≤ lo) : inRange ch.toNat lo hi = false := by
    rw [inRange, decide_eq_false (by omega), Bool.false_and]
  simp [isWide, charDisplayWidth, below]

lemma stepGround_paired (h : WellFormed s) (hp : AllPaired s)
    (room : s.cols = 1 → isWide ch = false) (step : s.stepGround ch = some s') :
    AllPaired s' := by
  have start : AllPaired { s with wrapPending := false } := ⟨hp.screen, hp.held⟩
  unfold stepGround at step
  simp only [clampCol_eq h, bind_eq_bind, bind_some, Option.pure_def] at step
  split at step
  · exact hp.frame step rfl rfl
  split at step
  · exact hp.frame step rfl rfl
  split at step
  · exact hp.frame step rfl rfl
  split at step
  · exact hp.frame step rfl rfl
  split at step
  · exact hp.frame step rfl rfl
  split at step
  · exact hp.frame step rfl rfl
  split at step
  · exact lineFeed_paired start step
  split at step
  · exact hp.frame step rfl rfl
  split at step
  · exact hp.frame step rfl rfl
  split at step
  · exact hp.frame step rfl rfl
  · rename_i printable
    refine print_paired h hp ?_ room step
    rintro rfl
    exact printable (.inl (by decide))

lemma stepEscape_paired (hp : AllPaired s) (step : s.stepEscape ch = some s') : AllPaired s' := by
  have start : AllPaired { s with wrapPending := false, state := .ground } := ⟨hp.screen, hp.held⟩
  unfold stepEscape at step
  simp only at step
  split at step
  all_goals try exact hp.frame step rfl rfl
  · exact restoreCursor_paired start step
  · exact lineFeed_paired start step
  · have home : AllPaired { s with wrapPending := false, state := .ground, col := 0 } :=
      ⟨hp.screen, hp.held⟩
    exact lineFeed_paired home step
  · exact reverseLineFeed_paired start step
  · obtain ⟨s₁, flushed, step⟩ := bind_eq_some_iff.mp step
    have hp₁ := flushScreen_paired start flushed
    exact hp₁.frame step rfl rfl
  · split at step
    · exact hp.frame step rfl rfl
    · exact hp.frame step rfl rfl

/-- The character cuts no pair: a double-width character is not printed on a screen of one column,
and a control function that is completed cuts none. -/
def StepCutsNoPair (s : VtTextRenderer) (ch : Char) : Prop :=
  match s.state with
  | .ground => s.cols = 1 → isWide ch = false
  | .csi => s.dispatches ch = true → s.CutsNoPair ch
  | _ => True

lemma stepString_paired (hp : AllPaired s) (onEscape : ParserState) :
    AllPaired (s.stepString ch onEscape) := by
  unfold stepString
  split
  · exact ⟨hp.screen, hp.held⟩
  · split
    · exact ⟨hp.screen, hp.held⟩
    · exact hp

lemma stepStringEscape_paired (hp : AllPaired s)
    (step : s.stepStringEscape ch = some s') : AllPaired s' := by
  unfold stepStringEscape at step
  split at step
  · exact hp.frame step rfl rfl
  · have start : AllPaired { s with state := .escape } := ⟨hp.screen, hp.held⟩
    exact stepEscape_paired start step

lemma stepCsi_paired (h : WellFormed s) (hp : AllPaired s) (inCsi : s.state = .csi)
    (whole : s.dispatches ch = true → s.CutsNoPair ch) (step : s.stepCsi ch = some s') :
    AllPaired s' := by
  unfold stepCsi at step
  dsimp only at step
  split at step
  · split at step
    · exact hp.frame step rfl rfl
    · exact hp.frame step rfl rfl
  split at step
  · exact hp.frame step rfl rfl
  split at step
  · rename_i final
    split at step
    · exact hp.frame step rfl rfl
    · rename_i shown
      have reads : s.dispatches ch = true := by simp [dispatches, inCsi, final, shown]
      have hw : WellFormed { s with state := .ground } :=
        ⟨h.shape, h.row_lt, h.col_lt, h.rows_le, h.cols_le⟩
      have start : AllPaired { s with state := .ground } := ⟨hp.screen, hp.held⟩
      exact csiDispatch_paired hw start (whole reads) step
  split at step
  · exact hp.frame step rfl rfl
  split at step
  · rename_i control
    exact stepGround_paired h hp (fun _ => isWide_control control) step
  · exact hp.frame step rfl rfl

lemma step_paired (h : WellFormed s) (hp : AllPaired s) (whole : s.StepCutsNoPair ch)
    (step : s.step ch = some s') : AllPaired s' := by
  unfold VtTextRenderer.step at step
  unfold StepCutsNoPair at whole
  split at step
  · rename_i ground
    rw [ground] at whole
    exact stepGround_paired h hp whole step
  · exact stepEscape_paired hp step
  · cases step
    split
    · exact ⟨hp.screen, hp.held⟩
    · exact hp
  · rename_i inCsi
    rw [inCsi] at whole
    exact stepCsi_paired h hp inCsi whole step
  · cases step
    exact stepString_paired hp _
  · exact stepStringEscape_paired hp step
  · cases step
    exact stepString_paired hp _
  · exact stepStringEscape_paired hp step

end VtTextRenderer

/-- The call cuts no pair: none of its characters does, and the rows fit the new columns. -/
def Call.CutsNoPair (s : VtTextRenderer) : Call → Prop
  | .feed data => Runs.Along VtTextRenderer.step VtTextRenderer.StepCutsNoPair s data
  | .resize _ cols => VtTextRenderer.FitsWhole s.screen (clamp 1 maxCols cols.toNat)
  | .finish => s.HeldFits

lemma call_paired {s s' : VtTextRenderer} (h : WellFormed s) (hp : AllPaired s) {call : Call}
    (whole : call.CutsNoPair s) (step : call.apply s = some s') : AllPaired s' := by
  cases call with
  | feed data =>
    obtain ⟨out, fed, rfl⟩ := map_eq_some_iff.mp step
    obtain ⟨s₁, ran, rfl⟩ := map_eq_some_iff.mp fed
    have kept := along_invariant (P := fun s => WellFormed s ∧ AllPaired s)
      (fun s ch s' step whole held =>
        ⟨(VtTextRenderer.step_wellFormed held.1 ch).of_eq_some step,
          VtTextRenderer.step_paired held.1 held.2 whole step⟩) whole ran ⟨h, hp⟩
    exact ⟨kept.2.screen, kept.2.held⟩
  | resize rows cols => exact VtTextRenderer.resize_paired hp whole step
  | finish =>
    obtain ⟨out, done, rfl⟩ := map_eq_some_iff.mp step
    obtain ⟨s₁, restored, done⟩ := bind_eq_some_iff.mp done
    obtain ⟨s₂, flushed, done⟩ := bind_eq_some_iff.mp done
    have hrow := h.row_lt
    have hcol := h.col_lt
    have hp₁ : AllPaired s₁ := by
      unfold VtTextRenderer.restoreForFinish at restored
      split at restored
      · rename_i main row col shown
        rw [VtTextRenderer.clampRow_eq h, VtTextRenderer.clampCol_eq h] at restored
        exact (VtTextRenderer.normalizeScreen_paired restored (Nat.zero_lt_of_lt hrow)
          (Nat.zero_lt_of_lt hcol) ⟨hp.held _ shown, by simp⟩ (whole _ shown)).1
      · exact hp.frame restored rfl rfl
    have hp₂ := VtTextRenderer.flushScreen_paired hp₁ flushed
    cases done
    exact ⟨hp₂.screen, hp₂.held⟩

/-- Each continuation stands behind a double-width character, each such character before one. -/
structure PairedCells (cells : List Char) : Prop where
  behind : ∀ i, cells[i]? = some wideContinuation →
    ∃ j c, i = j + 1 ∧ cells[j]? = some c ∧ isWide c = true
  before : ∀ i c, cells[i]? = some c → isWide c = true → cells[i + 1]? = some wideContinuation

/-- While no call cuts a pair, the cells are paired after every call. -/
theorem wide_cells_paired (rows cols : UInt16) (calls : List Call)
    (whole : Runs.Along Call.apply (fun s call => call.CutsNoPair s) (.new rows cols) calls) :
    ∀ front, front <+: calls → Ensures (runCalls (.new rows cols) front)
      (fun s => ∀ line ∈ s.screen, PairedCells line) := by
  rintro front ⟨back, rfl⟩
  obtain ⟨along, -⟩ := along_append.mp whole
  have start := VtTextRenderer.new_wellFormed rows cols
  have blank : AllPaired (.new rows cols) :=
    ⟨fun line member => eq_of_mem_replicate member ▸ .blank _, fun main member => by
      cases member⟩
  obtain ⟨s, ran, h⟩ := runCalls_wellFormed start front
  have kept := along_invariant (P := fun s => WellFormed s ∧ AllPaired s)
    (fun s call s' step whole held => ⟨(call_wellFormed held.1 call).of_eq_some step,
      call_paired held.1 held.2 whole step⟩) along ran ⟨start, blank⟩
  refine ⟨s, ran, fun line member => ?_⟩
  have paired := kept.2.screen line member
  exact ⟨fun i here => paired.before_continuation here,
    fun i c here wide => paired.behind_wide here wide⟩

/-- A row that is cut between a character and its continuation keeps half of the pair. -/
theorem narrowing_splits_pair :
    ∃ s, runCalls (.new 1 4) [.feed ['a', '\u6f22'], .resize 1 2] = some s ∧
      ¬ ∀ line ∈ s.screen, PairedCells line := by
  refine ⟨_, rfl, fun paired => ?_⟩
  have half := (paired ['a', '\u6f22'] (by decide)).before 1 '\u6f22' rfl (by decide)
  cases half

/-- A screen that is narrowed behind a pair keeps it. -/
theorem narrowing_behind_pair :
    Ensures (runCalls (.new 1 4) [.feed ['a', '\u6f22'], .resize 1 3])
      (fun s => ∀ line ∈ s.screen, PairedCells line) := by
  refine wide_cells_paired 1 4 [.feed ['a', '\u6f22'], .resize 1 3] ?_ _ (prefix_refl _)
  have fits : VtTextRenderer.FitsWhole
      [['a', '\u6f22', wideContinuation, ' ']] (clamp 1 maxCols (3 : UInt16).toNat) := by
    intro line member
    rw [mem_singleton.mp member]
    decide
  have along : Along VtTextRenderer.step VtTextRenderer.StepCutsNoPair (.new 1 4)
      ['a', '\u6f22'] := by
    refine ⟨fun one => absurd one (by decide), fun s first => ?_⟩
    cases first
    exact ⟨fun one => absurd one (by decide), fun s' _ => trivial⟩
  refine ⟨along, fun s fed => ?_⟩
  cases fed
  exact ⟨fits, fun s' _ => trivial⟩

end VtText
