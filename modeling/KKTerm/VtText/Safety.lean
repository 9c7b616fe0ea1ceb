import KKTerm.VtText.Renderer

/-!
# The recording thread never panics

Every screen operation is first shown to return and to do no more than repaint
the screen, so the cursor, the geometry and the pending text are framed off by
one lemma. `WellFormed` is then preserved by every character, every resize and
every finish, and the run theorem follows from the loop rule.
-/

namespace VtText

open Option hiding any_eq_false get map_id mem_map
open List hiding get set
open Checked

/-- A screen of exactly `rows` rows of exactly `cols` cells. -/
structure Shape (rows cols : Nat) (screen : List (List Char)) : Prop where
  length_eq : screen.length = rows
  line_length : ∀ line ∈ screen, line.length = cols

namespace Shape
variable {rows cols : Nat} {screen : List (List Char)}

variable {i n : Nat}

lemma get (h : Shape rows cols screen) (hi : i < rows) :
    Ensures (Checked.get screen i) (fun line => line.length = cols) := by
  have hlt : i < screen.length := by rw [h.length_eq]; exact hi
  rw [get_of_lt hlt]
  exact ensures_some (h.line_length _ (getElem_mem hlt))

lemma set (h : Shape rows cols screen) (hi : i < rows) {line : List Char}
    (hl : line.length = cols) : Ensures (Checked.set screen i line) (Shape rows cols) := by
  rw [set_of_lt (by rw [h.length_eq]; exact hi)]
  refine ensures_some ⟨by rw [length_set]; exact h.length_eq, ?_⟩
  intro l hmem
  rcases mem_or_eq_of_mem_set hmem with old | new
  · exact h.line_length l old
  · rw [new]; exact hl

lemma replicate (rows cols : Nat) : Shape rows cols (List.replicate rows (blankRow cols)) := by
  refine ⟨length_replicate, fun line hl => ?_⟩
  rw [eq_of_mem_replicate hl]
  exact length_replicate

section
variable (h : Shape rows cols screen)
include h

lemma append {below : List (List Char)} (hb : Shape n cols below) :
    Shape (rows + n) cols (screen ++ below) := by
  refine ⟨by rw [length_append, h.length_eq, hb.length_eq], fun line hl => ?_⟩
  rcases mem_append.mp hl with hl | hl
  · exact h.line_length line hl
  · exact hb.line_length line hl

lemma of_sublist {kept : List (List Char)}
    (sub : kept.Sublist screen) (hn : kept.length = n) : Shape n cols kept :=
  ⟨hn, fun line hl => h.line_length line (sub.subset hl)⟩

lemma dropLast : Shape (rows - 1) cols screen.dropLast :=
  h.of_sublist (dropLast_sublist screen) (by rw [length_dropLast, h.length_eq])

lemma eraseIdx (hi : i < rows) : Shape (rows - 1) cols (screen.eraseIdx i) :=
  h.of_sublist (eraseIdx_sublist screen i)
    (by rw [length_eraseIdx_of_lt (by rw [h.length_eq]; exact hi), h.length_eq])

lemma insertIdx (hi : i ≤ rows) : Shape (rows + 1) cols (screen.insertIdx i (blankRow cols)) := by
  refine ⟨?_, fun line hl => ?_⟩
  · rw [length_insertIdx_of_le_length (by rw [h.length_eq]; exact hi), h.length_eq]
  · rcases (mem_insertIdx (by rw [h.length_eq]; exact hi)).mp hl with new | old
    · rw [new]; exact length_replicate
    · exact h.line_length line old

end

end Shape

/-- What holds of the renderer between two characters. -/
structure WellFormed (s : VtTextRenderer) : Prop where
  shape : Shape s.rows s.cols s.screen
  row_lt : s.row < s.rows
  col_lt : s.col < s.cols
  rows_le : s.rows ≤ maxRows
  cols_le : s.cols ≤ maxCols

/-- `s'` is `s` with another screen of the same shape. -/
def Repaint (s s' : VtTextRenderer) : Prop :=
  ∃ screen, Shape s.rows s.cols screen ∧ s' = { s with screen }

variable {s s₁ s₂ s₃ s' : VtTextRenderer} {m : Option VtTextRenderer}

lemma Repaint.refl (h : WellFormed s) : Repaint s s :=
  ⟨s.screen, h.shape, rfl⟩

lemma Repaint.trans (h₁ : Repaint s₁ s₂) (h₂ : Repaint s₂ s₃) : Repaint s₁ s₃ := by
  obtain ⟨screen₁, _, rfl⟩ := h₁
  obtain ⟨screen₂, hs, rfl⟩ := h₂
  exact ⟨screen₂, hs, rfl⟩

lemma Repaint.wellFormed (h : Repaint s s') (hw : WellFormed s) : WellFormed s' := by
  obtain ⟨screen, hs, rfl⟩ := h
  exact ⟨hs, hw.row_lt, hw.col_lt, hw.rows_le, hw.cols_le⟩

/-- The geometry and the held main screen are untouched, and nothing is recorded
while the main screen is held. -/
structure Quiet (s s' : VtTextRenderer) : Prop where
  rows_eq : s'.rows = s.rows
  cols_eq : s'.cols = s.cols
  mainScreen_eq : s'.mainScreen = s.mainScreen
  silent : s.mainScreen.isSome → s'.pending = s.pending

lemma Quiet.refl (s : VtTextRenderer) : Quiet s s :=
  ⟨rfl, rfl, rfl, fun _ => rfl⟩

lemma Quiet.trans (h₁ : Quiet s₁ s₂) (h₂ : Quiet s₂ s₃) : Quiet s₁ s₃ where
  rows_eq := h₂.rows_eq.trans h₁.rows_eq
  cols_eq := h₂.cols_eq.trans h₁.cols_eq
  mainScreen_eq := h₂.mainScreen_eq.trans h₁.mainScreen_eq
  silent held := (h₂.silent (h₁.mainScreen_eq ▸ held)).trans (h₁.silent held)

lemma Repaint.quiet (h : Repaint s s') : Quiet s s' := by
  obtain ⟨screen, _, rfl⟩ := h
  exact ⟨rfl, rfl, rfl, fun _ => rfl⟩

/-- The operation returns a well-formed renderer and is quiet. -/
def Safe (s : VtTextRenderer) (m : Option VtTextRenderer) : Prop :=
  Ensures m (fun s' => WellFormed s' ∧ Quiet s s')

lemma safe_of_repaint (hw : WellFormed s) (h : Ensures m (Repaint s)) : Safe s m :=
  h.mono (fun _ hr => ⟨hr.wellFormed hw, hr.quiet⟩)

lemma Safe.bind {f : VtTextRenderer → Option VtTextRenderer} (h : Safe s m)
    (next : ∀ s', WellFormed s' → Quiet s s' → Safe s' (f s')) : Safe s (m >>= f) := by
  refine Ensures.bind h (fun s₁ h₁ => ?_)
  exact (next s₁ h₁.1 h₁.2).mono (fun s₂ h₂ => ⟨h₂.1, h₁.2.trans h₂.2⟩)

lemma Safe.pre {s₀ : VtTextRenderer} (h : Safe s m) (hq : Quiet s₀ s) : Safe s₀ m :=
  h.mono (fun _ h₁ => ⟨h₁.1, hq.trans h₁.2⟩)

lemma safe_some (hw : WellFormed s') (hq : Quiet s s') : Safe s (some s') :=
  ensures_some ⟨hw, hq⟩

namespace VtTextRenderer
variable {s : VtTextRenderer}

variable {row col width : Nat} {s' : VtTextRenderer}

section
variable (h : WellFormed s)
include h

lemma setCell_repaints (hr : row < s.rows) (hc : col < s.cols) (ch : Char) :
    Ensures (s.setCell row col ch) (Repaint s) := by
  refine (h.shape.get hr).bind (fun line hl => ?_)
  rw [set_of_lt (by rw [hl]; exact hc)]
  refine (h.shape.set hr (by rw [length_set]; exact hl)).bind (fun screen hs => ?_)
  exact ensures_some ⟨screen, hs, rfl⟩

lemma cell_returns (hr : row < s.rows) (hc : col < s.cols) :
    Ensures (s.cell row col) (fun _ => True) := by
  refine (h.shape.get hr).bind (fun line hl => ?_)
  rw [get_of_lt (by rw [hl]; exact hc)]
  exact ensures_some trivial

/-- Repainting steps in sequence; the second starts from a repaint of the first. -/
lemma repaints_bind {m : Option VtTextRenderer} {f : VtTextRenderer → Option VtTextRenderer}
    (hm : Ensures m (Repaint s))
    (next : ∀ s', WellFormed s' → Repaint s s' → Ensures (f s') (Repaint s')) :
    Ensures (m >>= f) (Repaint s) := by
  refine hm.bind (fun s₁ h₁ => ?_)
  exact (next s₁ (h₁.wellFormed h) h₁).mono (fun _ h₂ => h₁.trans h₂)

lemma clearWideCell_repaints (hr : row < s.rows) (hc : col < s.cols) :
    Ensures (s.clearWideCell row col) (Repaint s) := by
  refine (cell_returns h hr hc).bind (fun here _ => ?_)
  split
  · refine repaints_bind h ?_ (fun s₁ h₁ hp => ?_)
    · split
      · rename_i hpos
        simp only [sub_of_le (show 1 ≤ col from hpos), bind_some]
        exact setCell_repaints h hr (by omega) ' '
      · exact ensures_some (.refl h)
    · obtain ⟨_, _, rfl⟩ := hp
      exact setCell_repaints h₁ hr hc ' '
  · split
    · rename_i hnext
      refine (cell_returns h hr hnext).bind (fun next _ => ?_)
      split
      · exact setCell_repaints h hr hnext ' '
      · exact ensures_some (.refl h)
    · exact ensures_some (.refl h)

lemma putChar_repaints (ch : Char) (fits : s.col + width ≤ s.cols) :
    Ensures (s.putChar ch width) (Repaint s) := by
  refine repaints_bind h (clearWideCell_repaints h h.row_lt h.col_lt) (fun s₁ h₁ hp => ?_)
  obtain ⟨_, _, rfl⟩ := hp
  split
  · rename_i wide
    have hnext : s.col + 1 < s.cols := by omega
    refine repaints_bind h₁ (clearWideCell_repaints h₁ h.row_lt hnext) (fun s₂ h₂ hp => ?_)
    obtain ⟨_, _, rfl⟩ := hp
    refine repaints_bind h₂ (setCell_repaints h₂ h.row_lt h.col_lt ch) (fun s₃ h₃ hp => ?_)
    obtain ⟨_, _, rfl⟩ := hp
    exact setCell_repaints h₃ h.row_lt hnext wideContinuation
  · exact setCell_repaints h₁ h.row_lt h.col_lt ch

end

variable {β : Type} {f : VtTextRenderer → β → Option VtTextRenderer} {stop rows cols : Nat}
  {screen : List (List Char)}

/-- A loop of repaints; the body may rely on the loop state being a repaint of the start. -/
lemma repaints_loop (h : WellFormed s) (bs : List β)
    (body : ∀ s', WellFormed s' → Repaint s s' → ∀ b ∈ bs, Ensures (f s' b) (Repaint s')) :
    Ensures (bs.foldlM f s) (Repaint s) := by
  refine ensures_foldlM bs (fun s₁ b hb h₁ => ?_) (.refl h)
  exact (body s₁ (h₁.wellFormed h) h₁ b hb).mono (fun _ h₂ => h₁.trans h₂)

lemma eraseCells_repaints (h : WellFormed s) (start : Nat) (hs : stop ≤ s.cols) :
    Ensures (s.eraseCells start stop) (Repaint s) := by
  refine repaints_loop h _ (fun s₁ h₁ hp col hcol => ?_)
  have hc : col < s₁.cols := by
    have := mem_range'_1.mp hcol
    obtain ⟨_, _, rfl⟩ := hp
    show col < s.cols
    omega
  refine repaints_bind h₁ (clearWideCell_repaints h₁ h₁.row_lt hc) (fun s₂ h₂ hp₂ => ?_)
  obtain ⟨_, _, rfl⟩ := hp₂
  exact setCell_repaints h₂ h₁.row_lt hc ' '

lemma eraseLine_repaints (h : WellFormed s) (mode : Nat) :
    Ensures (s.eraseLine mode) (Repaint s) := by
  unfold eraseLine
  split
  · exact eraseCells_repaints h _ (Nat.le_refl _)
  · exact eraseCells_repaints h _ (Nat.min_le_right _ _)
  · exact eraseCells_repaints h _ (Nat.le_refl _)
  · exact ensures_some (.refl h)

lemma eraseChars_repaints (h : WellFormed s) (count : Nat) :
    Ensures (s.eraseChars count) (Repaint s) :=
  eraseCells_repaints h _ (Nat.min_le_right _ _)

lemma fillRows_repaints (h : WellFormed s) (start : Nat) (hs : stop ≤ s.rows) :
    Ensures (s.fillRows start stop) (Repaint s) := by
  refine repaints_loop h _ (fun s₁ h₁ hp row hrow => ?_)
  have hr : row < s₁.rows := by
    have := mem_range'_1.mp hrow
    obtain ⟨_, _, rfl⟩ := hp
    show row < s.rows
    omega
  refine (h₁.shape.get hr).bind (fun line hl => ?_)
  refine (h₁.shape.set hr (by rw [length_replicate]; exact hl)).bind (fun screen hscreen => ?_)
  exact ensures_some ⟨screen, hscreen, rfl⟩

lemma insertBlanks_length (line : List Char) (hc : col ≤ line.length) (count : Nat) :
    Ensures ((range count).foldlM (fun line _ => Checked.insert line col ' ') line)
      (fun line' => line'.length = line.length + count) := by
  induction count with
  | zero => exact ensures_some rfl
  | succ count ih =>
    rw [range_succ, foldlM_append]
    refine ih.bind (fun line₁ h₁ => ?_)
    have hle : col ≤ line₁.length := by omega
    simp only [foldlM_cons, foldlM_nil, insert_of_le hle, bind_eq_bind, bind_some]
    refine ensures_some ?_
    rw [length_insertIdx_of_le_length hle, h₁, Nat.add_assoc]

lemma insertChars_repaints (h : WellFormed s) (count : Nat) :
    Ensures (s.insertChars count) (Repaint s) := by
  have hcol := h.col_lt
  unfold insertChars
  simp only [sub_of_le (Nat.le_of_lt hcol), bind_eq_bind, bind_some]
  refine repaints_bind h (clearWideCell_repaints h h.row_lt hcol) (fun s₁ h₁ hp => ?_)
  obtain ⟨screen₁, _, rfl⟩ := hp
  refine (h₁.shape.get h₁.row_lt).bind (fun line hl => ?_)
  have hl : line.length = s.cols := hl
  simp only [sub_of_le (show min count (s.cols - s.col) ≤ s.cols by omega), bind_some]
  have hkept : s.col ≤ (line.take (s.cols - min count (s.cols - s.col))).length := by
    rw [length_take, hl]
    omega
  refine (insertBlanks_length _ hkept _).bind (fun line₁ h₂ => ?_)
  have hlen : line₁.length = s.cols := by
    rw [h₂, length_take, hl]
    omega
  refine (h₁.shape.set h₁.row_lt hlen).bind (fun screen hscreen => ?_)
  exact ensures_some ⟨screen, hscreen, rfl⟩

lemma deleteChars_repaints (h : WellFormed s) (count : Nat) :
    Ensures (s.deleteChars count) (Repaint s) := by
  have hcol := h.col_lt
  unfold deleteChars
  simp only [sub_of_le (Nat.le_of_lt hcol), bind_eq_bind, bind_some]
  refine repaints_bind h (clearWideCell_repaints h h.row_lt hcol) (fun s₁ h₁ hp => ?_)
  obtain ⟨screen₁, _, rfl⟩ := hp
  refine (h₁.shape.get h₁.row_lt).bind (fun line hl => ?_)
  have hl : line.length = s.cols := hl
  simp only [drain_of_le (show s.col ≤ s.col + min count (s.cols - s.col) by omega)
    (show s.col + min count (s.cols - s.col) ≤ line.length by omega), bind_some]
  rw [get_of_lt (by rw [length_resize]; exact hcol)]
  simp only [bind_some]
  have hseam : ∀ m : Option (List Char), Ensures m (fun line => line.length = s.cols) →
      Ensures (m.bind fun line => (Checked.set screen₁ s.row line).bind fun screen =>
        some ({ s with screen } : VtTextRenderer)) (Repaint { s with screen := screen₁ }) := by
    intro m hm
    refine hm.bind (fun line₂ h₂ => ?_)
    refine (h₁.shape.set h₁.row_lt h₂).bind (fun screen hscreen => ?_)
    exact ensures_some ⟨screen, hscreen, rfl⟩
  apply hseam
  split
  · rw [set_of_lt (by rw [length_resize]; exact hcol)]
    exact ensures_some (by rw [length_set, length_resize])
  · exact ensures_some (length_resize _ _ _)

lemma insertLines_repaints (h : WellFormed s) (count : Nat) :
    Ensures (s.insertLines count) (Repaint s) := by
  unfold insertLines
  simp only [sub_of_le (Nat.le_of_lt h.row_lt), bind_eq_bind, bind_some]
  refine repaints_loop h _ (fun s₁ h₁ _ _ _ => ?_)
  have hrow := h₁.row_lt
  have hpop := h₁.shape.dropLast
  rw [insert_of_le (by rw [hpop.length_eq]; omega)]
  have hin := hpop.insertIdx (show s₁.row ≤ s₁.rows - 1 by omega)
  rw [Nat.sub_add_cancel (by omega)] at hin
  exact ensures_some ⟨_, hin, rfl⟩

lemma shape_push_blank (h : Shape (rows - 1) cols screen) (hr : 0 < rows) :
    Shape rows cols (screen ++ [blankRow cols]) := by
  have := h.append (Shape.replicate 1 cols)
  rwa [Nat.sub_add_cancel hr] at this

section
variable (h : WellFormed s)
include h

lemma deleteLines_repaints (count : Nat) : Ensures (s.deleteLines count) (Repaint s) := by
  unfold deleteLines
  simp only [sub_of_le (Nat.le_of_lt h.row_lt), bind_eq_bind, bind_some]
  refine repaints_loop h _ (fun s₁ h₁ _ _ _ => ?_)
  have hrow := h₁.row_lt
  rw [remove_of_lt (by rw [h₁.shape.length_eq]; exact hrow)]
  exact ensures_some ⟨_, shape_push_blank (h₁.shape.eraseIdx hrow) (by omega), rfl⟩

lemma scrollDown_repaints (count : Nat) : Ensures (s.scrollDown count) (Repaint s) := by
  refine repaints_loop h _ (fun s₁ h₁ _ _ _ => ?_)
  have hrow := h₁.row_lt
  unfold scrollDownOne
  rw [insert_of_le (Nat.zero_le _)]
  have hin := h₁.shape.dropLast.insertIdx (Nat.zero_le _)
  rw [Nat.sub_add_cancel (by omega)] at hin
  exact ensures_some ⟨_, hin, rfl⟩

lemma scrollUpOne_safe : Safe s s.scrollUpOne := by
  have hrow := h.row_lt
  have hshape := shape_push_blank (h.shape.eraseIdx (show 0 < s.rows by omega)) (by omega)
  unfold scrollUpOne
  rw [remove_of_lt (by rw [h.shape.length_eq]; omega)]
  refine safe_some ⟨hshape, h.row_lt, h.col_lt, h.rows_le, h.cols_le⟩ ⟨rfl, rfl, rfl, ?_⟩
  intro held
  simp [isNone_eq_false_iff.mpr held]

lemma safe_loop (bs : List β)
    (body : ∀ s', WellFormed s' → Quiet s s' → ∀ b ∈ bs, Safe s' (f s' b)) :
    Safe s (bs.foldlM f s) := by
  refine ensures_foldlM bs (fun s₁ b hb h₁ => ?_) ⟨h, .refl s⟩
  exact (body s₁ h₁.1 h₁.2 b hb).pre h₁.2

lemma scrollUp_safe (count : Nat) : Safe s (s.scrollUp count) :=
  safe_loop h _ (fun _ h₁ _ _ _ => scrollUpOne_safe h₁)

lemma lineFeed_safe : Safe s s.lineFeed := by
  unfold lineFeed
  split
  · rename_i below
    exact safe_some ⟨h.shape, below, h.col_lt, h.rows_le, h.cols_le⟩ ⟨rfl, rfl, rfl, fun _ => rfl⟩
  · exact scrollUp_safe h 1

/-- Moving the cursor inside the screen, with any wrap, save and parser fields. -/
lemma safe_move (hr : row < s.rows) (hc : col < s.cols) (wrapPending : Bool)
    (savedCursor : Option (Nat × Nat)) (state : ParserState) (csiParams : List Char)
    (csiHasIntermediate : Bool) :
    Safe s (some { s with
      row, col, wrapPending, savedCursor, state, csiParams, csiHasIntermediate }) :=
  safe_some ⟨h.shape, hr, hc, h.rows_le, h.cols_le⟩ ⟨rfl, rfl, rfl, fun _ => rfl⟩

lemma clampRow_eq (row : Nat) : s.clampRow row = some (min row (s.rows - 1)) := by
  have hrow := h.row_lt
  simp [clampRow, sub_of_le (show 1 ≤ s.rows by omega)]

lemma clampCol_eq (col : Nat) : s.clampCol col = some (min col (s.cols - 1)) := by
  have hcol := h.col_lt
  simp [clampCol, sub_of_le (show 1 ≤ s.cols by omega)]

end

lemma min_pred_lt {n m : Nat} (h : 0 < m) : min n (m - 1) < m := by
  omega

lemma reverseLineFeed_safe (h : WellFormed s) : Safe s s.reverseLineFeed := by
  have hrow := h.row_lt
  unfold reverseLineFeed
  split
  · rename_i above
    rw [sub_of_le (show 1 ≤ s.row from above)]
    exact safe_move h (by omega) h.col_lt _ _ _ _ _
  · exact safe_of_repaint h (scrollDown_repaints h 1)

lemma restoreCursor_safe (h : WellFormed s) : Safe s s.restoreCursor := by
  have hrow := h.row_lt
  have hcol := h.col_lt
  unfold restoreCursor
  split
  · rename_i row col _
    rw [clampRow_eq h, clampCol_eq h]
    exact safe_move h (min_pred_lt (by omega)) (min_pred_lt (by omega)) _ _ _ _ _
  · exact safe_some h (.refl s)

lemma resolveWrap_safe (h : WellFormed s) : Safe s s.resolveWrap := by
  have hcol := h.col_lt
  unfold resolveWrap
  split
  · have h₀ : WellFormed { s with col := 0 } :=
      ⟨h.shape, h.row_lt, by show 0 < s.cols; omega, h.rows_le, h.cols_le⟩
    have hq₀ : Quiet s { s with col := 0 } := ⟨rfl, rfl, rfl, fun _ => rfl⟩
    refine ((lineFeed_safe h₀).pre hq₀).bind (fun s₁ h₁ _ => ?_)
    exact safe_move h₁ h₁.row_lt h₁.col_lt _ _ _ _ _
  · exact safe_some h (.refl s)

lemma advance_safe (h : WellFormed s) (fits : s.col + width ≤ s.cols) :
    Safe s (s.advance width) := by
  have hcol := h.col_lt
  unfold advance
  split
  · rw [sub_of_le (show 1 ≤ s.cols by omega)]
    exact safe_move h h.row_lt (by omega) _ _ _ _ _
  · exact safe_move h h.row_lt (by omega) _ _ _ _ _

lemma lineFeed_frame (h : s.lineFeed = some s') : s'.col = s.col ∧ s'.state = s.state := by
  unfold lineFeed at h
  split at h
  · cases h
    exact ⟨rfl, rfl⟩
  · simp only [scrollUp, range_one, foldlM_cons, foldlM_nil, scrollUpOne,
      bind_eq_bind, bind_eq_some_iff, Option.pure_def, Option.some.injEq] at h
    obtain ⟨_, ⟨_, _, rfl⟩, rfl⟩ := h
    exact ⟨rfl, rfl⟩

/-- A wide character at the right margin moves to the next line, where it fits. -/
lemma makeRoom_safe (h : WellFormed s) (hw : width ≤ s.cols) :
    Ensures (if s.col + width > s.cols then lineFeed { s with col := 0 } else some s)
      (fun s' => (WellFormed s' ∧ Quiet s s') ∧ s'.col + width ≤ s'.cols) := by
  have hcol := h.col_lt
  split
  · have h₀ : WellFormed { s with col := 0 } :=
      ⟨h.shape, h.row_lt, by show 0 < s.cols; omega, h.rows_le, h.cols_le⟩
    obtain ⟨s₁, hfeed, h₁, hq⟩ := lineFeed_safe h₀
    have hc : s₁.col = 0 := (lineFeed_frame hfeed).1
    have hcols : s₁.cols = s.cols := hq.cols_eq
    refine ⟨s₁, hfeed, ⟨h₁, hq.rows_eq, hq.cols_eq, hq.mainScreen_eq, hq.silent⟩, ?_⟩
    rw [hc, hcols]
    show 0 + width ≤ s.cols
    omega
  · exact ensures_some ⟨⟨h, .refl s⟩, by omega⟩

lemma resolveWrap_state (h : s.resolveWrap = some s') : s'.state = s.state := by
  unfold resolveWrap at h
  split at h
  · obtain ⟨s₁, fed, hs⟩ := bind_eq_some_iff.mp h
    cases hs
    exact (lineFeed_frame fed).2
  · cases h
    rfl

lemma makeRoom_state
    (h : (if s.col + width > s.cols then lineFeed { s with col := 0 } else some s) = some s') :
    s'.state = s.state := by
  split at h
  · exact (lineFeed_frame h).2
  · cases h
    rfl

lemma advance_state (h : s.advance width = some s') : s'.state = s.state := by
  unfold advance at h
  split at h
  · obtain ⟨_, _, hs⟩ := bind_eq_some_iff.mp h
    cases hs
    rfl
  · cases h
    rfl

lemma print_spec (h : WellFormed s) (ch : Char) :
    Ensures (s.print ch) (fun s' => (WellFormed s' ∧ Quiet s s') ∧ s'.state = s.state) := by
  unfold print
  simp only []
  split
  · exact ensures_some ⟨⟨h, .refl s⟩, rfl⟩
  · obtain ⟨s₁, run₁, h₁, hq₁⟩ := resolveWrap_safe h
    have hwidth : min (charDisplayWidth ch) s.cols ≤ s₁.cols := by
      rw [hq₁.cols_eq]
      omega
    obtain ⟨s₂, run₂, ⟨h₂, hq₂⟩, fits⟩ := makeRoom_safe h₁ hwidth
    obtain ⟨s₃, run₃, painted⟩ := putChar_repaints h₂ ch fits
    have frame : s₃.state = s₂.state ∧ s₃.col = s₂.col ∧ s₃.cols = s₂.cols := by
      obtain ⟨_, _, rfl⟩ := painted
      exact ⟨rfl, rfl, rfl⟩
    have room : s₃.col + min (charDisplayWidth ch) s.cols ≤ s₃.cols := by
      rw [frame.2.1, frame.2.2]
      exact fits
    obtain ⟨s₄, run₄, h₄, hq₄⟩ := advance_safe (painted.wellFormed h₂) room
    refine ⟨s₄, ?_, ⟨h₄, ((hq₁.trans hq₂).trans painted.quiet).trans hq₄⟩, ?_⟩
    · simp only [bind_eq_bind, run₁, bind_some, run₂, run₃, run₄]
    · calc s₄.state = s₃.state := advance_state run₄
        _ = s₂.state := frame.1
        _ = s₁.state := makeRoom_state run₂
        _ = s.state := resolveWrap_state run₁

lemma contentRows_le (screen : List (List Char)) : contentRows screen ≤ screen.length := by
  have h := (dropWhile_sublist (fun row => row.all isBlankCell) (l := screen.reverse)).length_le
  rwa [length_reverse] at h

lemma flushScreen_safe (h : WellFormed s) : Safe s s.flushScreen := by
  unfold flushScreen
  split
  · refine safe_of_repaint h (ensures_some ⟨_, ⟨?_, fun line hl => ?_⟩, rfl⟩)
    · rw [length_map]; exact h.shape.length_eq
    · obtain ⟨old, hold, rfl⟩ := mem_map.mp hl
      rw [length_replicate]
      exact h.shape.line_length old hold
  · rename_i notHeld
    refine safe_loop h _ (fun s₁ h₁ hq₁ index hindex => ?_)
    have hi : index < s₁.rows := by
      have hlt := mem_range.mp hindex
      have hle := contentRows_le s.screen
      rw [h.shape.length_eq] at hle
      rw [hq₁.rows_eq]
      omega
    refine (h₁.shape.get hi).bind (fun line hl => ?_)
    refine (h₁.shape.set hi (by rw [length_replicate]; exact hl)).bind (fun screen hs => ?_)
    refine safe_some ⟨hs, h₁.row_lt, h₁.col_lt, h₁.rows_le, h₁.cols_le⟩ ⟨rfl, rfl, rfl, ?_⟩
    intro held
    rw [hq₁.mainScreen_eq] at held
    exact absurd held notHeld

lemma eraseDisplay_safe (h : WellFormed s) (mode : Nat) : Safe s (s.eraseDisplay mode) := by
  unfold eraseDisplay
  split
  · refine safe_of_repaint h (repaints_bind h (eraseLine_repaints h 0) (fun s₁ h₁ hp => ?_))
    exact fillRows_repaints h₁ _ (Nat.le_refl _)
  · refine safe_of_repaint h (repaints_bind h (eraseLine_repaints h 1) (fun s₁ h₁ hp => ?_))
    exact fillRows_repaints h₁ _ (Nat.le_of_lt h₁.row_lt)
  · exact flushScreen_safe h
  · exact flushScreen_safe h
  · exact safe_some h (.refl s)

/-- Closed form of the shrinking loop: the lines above the cursor leave first,
as many as are in excess, and the remaining excess leaves at the bottom. -/
lemma shrinkTo_eq (record : Bool) (rows fuel : Nat) (s : VtTextRenderer)
    (enough : s.screen.length ≤ rows + fuel) :
    shrinkTo record rows fuel s =
      let leaving := min s.row (s.screen.length - rows)
      some { s with
        screen := (s.screen.drop leaving).take rows
        row := s.row - leaving
        pending := if record then s.pending ++ (s.screen.take leaving).flatMap renderLine
          else s.pending } := by
  induction fuel generalizing s with
  | zero =>
    have none : s.screen.length - rows = 0 := by omega
    simp [shrinkTo, none, take_of_length_le (show s.screen.length ≤ rows from enough)]
  | succ fuel ih =>
    rw [shrinkTo]
    split
    · rename_i excess
      split
      · rename_i above
        cases hscreen : s.screen with
        | nil => simp [hscreen] at excess
        | cons top rest =>
          rw [hscreen] at enough excess
          simp only [length_cons] at enough excess
          have count : min s.row (rest.length + 1 - rows) =
              min (s.row - 1) (rest.length - rows) + 1 := by omega
          simp only [remove_zero_cons, sub_of_le (show 1 ≤ s.row from above), bind_eq_bind,
            bind_some]
          rw [ih _ (by show rest.length ≤ rows + fuel; omega)]
          simp only [length_cons, count, drop_succ_cons, take_succ_cons, flatMap_cons]
          have hrow : s.row - 1 - min (s.row - 1) (rest.length - rows) =
              s.row - (min (s.row - 1) (rest.length - rows) + 1) := by omega
          cases record <;> simp [hrow]
      · rename_i top
        have hrow : s.row = 0 := by omega
        rw [ih _ (by show s.screen.dropLast.length ≤ rows + fuel
                     rw [length_dropLast]; omega)]
        simp only [hrow, Nat.zero_min, drop_zero, take_zero, flatMap_nil,
          append_nil, dropLast_eq_take, take_take]
        rw [Nat.min_eq_left (by omega)]
    · rename_i fits
      have none : s.screen.length - rows = 0 := by omega
      simp [none, take_of_length_le (show s.screen.length ≤ rows by omega)]

lemma shape_padded (lines : ∀ line ∈ screen, line.length = cols) (hle : screen.length ≤ rows) :
    Shape rows cols (screen ++ List.replicate (rows - screen.length) (blankRow cols)) := by
  have h := Shape.append ⟨rfl, lines⟩ (Shape.replicate (rows - screen.length) cols)
  rwa [Nat.add_sub_cancel' hle] at h

/-- The saved or current screen cut and padded to `cols` columns. -/
def refit (screen : List (List Char)) (cols : Nat) : List (List Char) :=
  screen.map (fun row => Checked.resize row cols ' ')

@[simp] lemma length_refit (screen : List (List Char)) (cols : Nat) :
    (refit screen cols).length = screen.length :=
  length_map _

lemma refit_line_length : ∀ line ∈ refit screen cols, line.length = cols := by
  intro line hl
  obtain ⟨old, _, rfl⟩ := mem_map.mp hl
  exact length_resize old cols ' '

lemma refit_of_shape (h : Shape rows cols screen) : refit screen cols = screen := by
  refine (map_congr_left (fun line hl => ?_)).trans (map_id screen)
  rw [← h.line_length line hl]
  exact resize_length line ' '

/-- The visible part of a fitted screen: `leaving` lines are gone at the top. -/
def window (screen : List (List Char)) (rows cols leaving : Nat) : List (List Char) :=
  (screen.drop leaving).take rows ++
    List.replicate (rows - ((screen.drop leaving).take rows).length) (blankRow cols)

lemma window_shape (lines : ∀ line ∈ screen, line.length = cols) (rows leaving : Nat) :
    Shape rows cols (window screen rows cols leaving) :=
  shape_padded (fun line hl => lines line (mem_of_mem_drop (mem_of_mem_take hl)))
    (length_take_le _ _)

/-- Closed form of the re-fit after the main screen has been restored. -/
lemma normalizeScreen_eq (hr : 0 < s.rows) (hc : 0 < s.cols) :
    s.normalizeScreen =
      let leaving := min s.row (s.screen.length - s.rows)
      some { s with
        screen := window (refit s.screen s.cols) s.rows s.cols leaving
        row := min (s.row - leaving) (s.rows - 1)
        col := min s.col (s.cols - 1)
        pending := s.pending ++ ((refit s.screen s.cols).take leaving).flatMap renderLine } := by
  unfold normalizeScreen
  dsimp only [fitCols]
  rw [shrinkTo_eq]
  · simp only [bind_eq_bind, bind_some, growTo, clampRow, clampCol,
      sub_of_le (show 1 ≤ s.rows from hr), sub_of_le (show 1 ≤ s.cols from hc), Option.pure_def,
      length_map]
    rfl
  · exact Nat.le_add_left _ _

lemma normalizeScreen_wellFormed (hr : 0 < s.rows) (hrm : s.rows ≤ maxRows) (hc : 0 < s.cols)
    (hcm : s.cols ≤ maxCols) : Ensures s.normalizeScreen WellFormed := by
  rw [normalizeScreen_eq hr hc]
  exact ensures_some ⟨window_shape refit_line_length _ _, min_pred_lt hr, min_pred_lt hc, hrm, hcm⟩

lemma clamp_bounds {lo hi : Nat} (h : lo ≤ hi) (n : Nat) :
    lo ≤ clamp lo hi n ∧ clamp lo hi n ≤ hi := by
  unfold clamp
  split
  · omega
  · split <;> omega

lemma resize_wellFormed (h : WellFormed s) (rows cols : UInt16) :
    Ensures (s.resize rows cols) WellFormed := by
  have hrow := clamp_bounds (show 1 ≤ maxRows by decide) rows.toNat
  have hcol := clamp_bounds (show 1 ≤ maxCols by decide) cols.toNat
  unfold resize
  simp only []
  split
  · exact ensures_some h
  · dsimp only [fitCols]
    rw [shrinkTo_eq]
    · simp only [bind_eq_bind, bind_some, growTo, clampRow, clampCol,
        sub_of_le hrow.1, sub_of_le hcol.1, Option.pure_def]
      refine ensures_some ⟨?_, min_pred_lt hrow.1, min_pred_lt hcol.1, hrow.2, hcol.2⟩
      have lines := fun cols => @refit_line_length cols s.screen
      exact window_shape (lines _) _ _
    · exact Nat.le_add_left _ _

/-- The private mode change that enters or leaves the alternate screen. -/
def switchesScreen (s : VtTextRenderer) (finalByte : Char) : Bool :=
  (finalByte = 'h' || finalByte = 'l') && csiIsPrivate s.csiParams &&
    (csiParamValues s.csiParams).any isScreenMode

/-- The resize report, when it asks for another size than the current one. -/
def changesSize (s : VtTextRenderer) (finalByte : Char) : Bool :=
  finalByte = 't' &&
    match csiParamValues s.csiParams with
    | [8, rows, cols] =>
      decide (rows > 0 ∧ cols > 0 ∧
        ¬ (clamp 1 maxRows (UInt16.ofNat rows).toNat = s.rows ∧
          clamp 1 maxCols (UInt16.ofNat cols).toNat = s.cols))
    | _ => false

lemma resize_same (rows cols : UInt16)
    (same : clamp 1 maxRows rows.toNat = s.rows ∧ clamp 1 maxCols cols.toNat = s.cols) :
    s.resize rows cols = some s :=
  if_pos same

lemma setPrivateMode_spec (h : WellFormed s) (enable : Bool) (mode : Nat) :
    Ensures (setPrivateMode enable s mode)
      (fun s' => WellFormed s' ∧ (isScreenMode mode = false → Quiet s s')) := by
  have hrow := h.row_lt
  have hcol := h.col_lt
  unfold setPrivateMode
  split
  · rename_i screenMode
    have disturbed : ∀ s', isScreenMode mode = false → Quiet s s' := by
      intro s' other
      rw [screenMode] at other
      cases other
    split
    · refine ensures_some ⟨⟨Shape.replicate _ _, ?_, ?_, h.rows_le, h.cols_le⟩, disturbed _⟩
      · show 0 < s.rows
        omega
      · show 0 < s.cols
        omega
    · split
      · exact ensures_some ⟨h, disturbed _⟩
      · split
        · refine Ensures.mono (normalizeScreen_wellFormed ?_ h.rows_le ?_ h.cols_le)
            (fun s' hs => ⟨hs, disturbed s'⟩)
          · show 0 < s.rows
            omega
          · show 0 < s.cols
            omega
        · exact ensures_some ⟨h, disturbed _⟩
  · split
    · split
      · exact (safe_move h hrow hcol _ _ _ _ _).mono (fun _ hs => ⟨hs.1, fun _ => hs.2⟩)
      · exact (restoreCursor_safe h).mono (fun _ hs => ⟨hs.1, fun _ => hs.2⟩)
    · exact ensures_some ⟨h, fun _ => .refl s⟩

lemma setPrivateModes_spec (h : WellFormed s) (params : List Nat) (enable : Bool) :
    Ensures (s.setPrivateModes params enable)
      (fun s' => WellFormed s' ∧ (params.any isScreenMode = false → Quiet s s')) := by
  refine ensures_foldlM params (fun s₁ mode hmode h₁ => ?_) ⟨h, fun _ => .refl s⟩
  refine (setPrivateMode_spec h₁.1 enable mode).mono (fun s₂ h₂ => ⟨h₂.1, fun other => ?_⟩)
  have hm : isScreenMode mode = false := by simpa using (any_eq_false.mp other) mode hmode
  exact (h₁.2 other).trans (h₂.2 hm)

lemma param_default_pos (params : List Nat) (index : Nat) : 1 ≤ param params index 1 := by
  unfold param
  split
  · split <;> omega
  · omega

/-- Every control function returns a well-formed renderer, and all but screen
switches and size changes are quiet. -/
lemma csiDispatch_spec (h : WellFormed s) (finalByte : Char) :
    Ensures (s.csiDispatch finalByte) (fun s' => WellFormed s' ∧
      (s.switchesScreen finalByte = false → s.changesSize finalByte = false → Quiet s s')) := by
  have hrow := h.row_lt
  have hcol := h.col_lt
  have hw : WellFormed { s with wrapPending := false } :=
    ⟨h.shape, h.row_lt, h.col_lt, h.rows_le, h.cols_le⟩
  have hq : Quiet s { s with wrapPending := false } := ⟨rfl, rfl, rfl, fun _ => rfl⟩
  have p₀ := param_default_pos (csiParamValues s.csiParams) 0
  have p₁ := param_default_pos (csiParamValues s.csiParams) 1
  have quiet : ∀ {m : Option VtTextRenderer}, Safe { s with wrapPending := false } m →
      Ensures m (fun s' => WellFormed s' ∧ (s.switchesScreen finalByte = false →
        s.changesSize finalByte = false → Quiet s s')) :=
    fun hm => hm.mono (fun s' hs => ⟨hs.1, fun _ _ => hq.trans hs.2⟩)
  have inRow : ∀ n, min n (s.rows - 1) < s.rows := fun n => min_pred_lt (by omega)
  have inCol : ∀ n, min n (s.cols - 1) < s.cols := fun n => min_pred_lt (by omega)
  unfold csiDispatch
  simp only [clampRow_eq hw, clampCol_eq hw, sub_of_le p₀, sub_of_le p₁, bind_eq_bind,
    bind_some, Option.pure_def]
  split
  · exact quiet (safe_move hw (Nat.lt_of_le_of_lt (Nat.sub_le _ _) hrow) hcol _ _ _ _ _)
  · exact quiet (safe_move hw (inRow _) hcol _ _ _ _ _)
  · exact quiet (safe_move hw hrow (inCol _) _ _ _ _ _)
  · exact quiet (safe_move hw hrow (Nat.lt_of_le_of_lt (Nat.sub_le _ _) hcol) _ _ _ _ _)
  · exact quiet (safe_move hw (inRow _) (show 0 < s.cols by omega) _ _ _ _ _)
  · exact quiet (safe_move hw (Nat.lt_of_le_of_lt (Nat.sub_le _ _) hrow)
      (show 0 < s.cols by omega) _ _ _ _ _)
  · exact quiet (safe_move hw hrow (inCol _) _ _ _ _ _)
  · exact quiet (safe_move hw hrow (inCol _) _ _ _ _ _)
  · exact quiet (safe_move hw (inRow _) (inCol _) _ _ _ _ _)
  · exact quiet (safe_move hw (inRow _) (inCol _) _ _ _ _ _)
  · exact quiet (safe_move hw (inRow _) hcol _ _ _ _ _)
  · exact quiet (eraseDisplay_safe hw _)
  · exact quiet (safe_of_repaint hw (eraseLine_repaints hw _))
  · exact quiet (safe_of_repaint hw (insertChars_repaints hw _))
  · exact quiet (safe_of_repaint hw (deleteChars_repaints hw _))
  · exact quiet (safe_of_repaint hw (eraseChars_repaints hw _))
  · exact quiet (safe_of_repaint hw (insertLines_repaints hw _))
  · exact quiet (safe_of_repaint hw (deleteLines_repaints hw _))
  · exact quiet (scrollUp_safe hw _)
  · exact quiet (safe_of_repaint hw (scrollDown_repaints hw _))
  · split
    · rename_i priv
      refine (setPrivateModes_spec hw _ true).mono (fun s' hs => ⟨hs.1, fun still _ => ?_⟩)
      exact hq.trans (hs.2 (by simpa [switchesScreen, priv] using still))
    · exact quiet (safe_some hw (.refl _))
  · split
    · rename_i priv
      refine (setPrivateModes_spec hw _ false).mono (fun s' hs => ⟨hs.1, fun still _ => ?_⟩)
      exact hq.trans (hs.2 (by simpa [switchesScreen, priv] using still))
    · exact quiet (safe_some hw (.refl _))
  · split
    · exact quiet (safe_some hw (.refl _))
    · exact quiet (safe_move hw hrow hcol _ _ _ _ _)
  · split
    · exact quiet (safe_some hw (.refl _))
    · exact quiet (restoreCursor_safe hw)
  · split
    · rename_i rows cols hparams
      split
      · rename_i positive
        by_cases same : clamp 1 maxRows (UInt16.ofNat rows).toNat = s.rows ∧
            clamp 1 maxCols (UInt16.ofNat cols).toNat = s.cols
        · have unchanged : resize { s with wrapPending := false } (UInt16.ofNat rows)
              (UInt16.ofNat cols) = some { s with wrapPending := false } := resize_same _ _ same
          rw [unchanged]
          exact quiet (safe_some hw (.refl _))
        · have asked : s.changesSize 't' = true := by
            unfold changesSize
            rw [hparams]
            exact Bool.and_eq_true_iff.mpr ⟨rfl, decide_eq_true ⟨positive.1, positive.2, same⟩⟩
          refine (resize_wellFormed hw _ _).mono (fun s' hs => ⟨hs, fun _ kept => ?_⟩)
          rw [asked] at kept
          cases kept
      · exact quiet (safe_some hw (.refl _))
    · exact quiet (safe_some hw (.refl _))
  · exact quiet (safe_some hw (.refl _))

/-- A character that completes a control sequence while nothing hides it. -/
def dispatches (s : VtTextRenderer) (ch : Char) : Bool :=
  s.state = .csi && decide (0x40 ≤ ch.toNat ∧ ch.toNat ≤ 0x7e) && !s.csiHasIntermediate

/-- The character completes a switch between the main and the alternate screen. -/
def readsSwitch (s : VtTextRenderer) (ch : Char) : Bool :=
  s.dispatches ch && s.switchesScreen ch

/-- The character completes a size change. -/
def readsSizeChange (s : VtTextRenderer) (ch : Char) : Bool :=
  s.dispatches ch && s.changesSize ch

section
variable (h : WellFormed s)
include h

lemma stepGround_safe (ch : Char) : Safe s (s.stepGround ch) := by
  have hrow := h.row_lt
  have hcol := h.col_lt
  have hw : WellFormed { s with wrapPending := false } :=
    ⟨h.shape, h.row_lt, h.col_lt, h.rows_le, h.cols_le⟩
  unfold stepGround
  simp only [clampCol_eq h, bind_eq_bind, bind_some, Option.pure_def]
  split
  · exact safe_move h hrow hcol _ _ _ _ _
  split
  · exact safe_move h hrow hcol _ _ _ _ _
  split
  · exact safe_move h hrow hcol _ _ _ _ _
  split
  · exact safe_move h hrow hcol _ _ _ _ _
  split
  · exact safe_some h (.refl s)
  split
  · exact safe_move h hrow (show 0 < s.cols by omega) _ _ _ _ _
  split
  · exact (lineFeed_safe hw).pre ⟨rfl, rfl, rfl, fun _ => rfl⟩
  split
  · exact safe_move h hrow (Nat.lt_of_le_of_lt (Nat.sub_le _ _) hcol) _ _ _ _ _
  split
  · exact safe_move h hrow (min_pred_lt (by omega)) _ _ _ _ _
  split
  · exact safe_some h (.refl s)
  · exact (print_spec h ch).mono (fun _ hs => hs.1)

lemma stepEscape_safe (ch : Char) : Safe s (s.stepEscape ch) := by
  have hrow := h.row_lt
  have hcol := h.col_lt
  have hw : WellFormed { s with wrapPending := false, state := .ground } :=
    ⟨h.shape, h.row_lt, h.col_lt, h.rows_le, h.cols_le⟩
  have hq : Quiet s { s with wrapPending := false, state := .ground } :=
    ⟨rfl, rfl, rfl, fun _ => rfl⟩
  unfold stepEscape
  refine Safe.pre ?_ hq
  split
  · exact safe_move hw hrow hcol _ _ _ _ _
  · exact safe_move hw hrow hcol _ _ _ _ _
  · exact safe_move hw hrow hcol _ _ _ _ _
  · exact safe_move hw hrow hcol _ _ _ _ _
  · exact safe_move hw hrow hcol _ _ _ _ _
  · exact safe_move hw hrow hcol _ _ _ _ _
  · exact safe_move hw hrow hcol _ _ _ _ _
  · exact restoreCursor_safe hw
  · exact lineFeed_safe hw
  · have hw₀ : WellFormed { s with wrapPending := false, state := .ground, col := 0 } :=
      ⟨h.shape, h.row_lt, by show 0 < s.cols; omega, h.rows_le, h.cols_le⟩
    exact (lineFeed_safe hw₀).pre ⟨rfl, rfl, rfl, fun _ => rfl⟩
  · exact reverseLineFeed_safe hw
  · refine (flushScreen_safe hw).bind (fun s₁ h₁ _ => ?_)
    have hrow₁ := h₁.row_lt
    have hcol₁ := h₁.col_lt
    exact safe_move h₁ (by omega) (by omega) _ _ _ _ _
  · split
    · exact safe_move hw hrow hcol _ _ _ _ _
    · exact safe_some hw (.refl _)

lemma stepString_safe (ch : Char) (onEscape : ParserState) :
    Safe s (some (s.stepString ch onEscape)) := by
  unfold stepString
  split
  · exact safe_move h h.row_lt h.col_lt _ _ _ _ _
  · split
    · exact safe_move h h.row_lt h.col_lt _ _ _ _ _
    · exact safe_some h (.refl s)

lemma stepStringEscape_safe (ch : Char) : Safe s (s.stepStringEscape ch) := by
  unfold stepStringEscape
  split
  · exact safe_move h h.row_lt h.col_lt _ _ _ _ _
  · have hw : WellFormed { s with state := .escape } :=
      ⟨h.shape, h.row_lt, h.col_lt, h.rows_le, h.cols_le⟩
    exact (stepEscape_safe hw ch).pre ⟨rfl, rfl, rfl, fun _ => rfl⟩

lemma stepCsi_spec (inCsi : s.state = .csi) (ch : Char) :
    Ensures (s.stepCsi ch) (fun s' => WellFormed s' ∧
      (s.readsSwitch ch = false → s.readsSizeChange ch = false → Quiet s s')) := by
  have quiet : ∀ {m : Option VtTextRenderer}, Safe s m →
      Ensures m (fun s' => WellFormed s' ∧
        (s.readsSwitch ch = false → s.readsSizeChange ch = false → Quiet s s')) :=
    fun hm => hm.mono (fun s' hs => ⟨hs.1, fun _ _ => hs.2⟩)
  have hw : WellFormed { s with state := .ground } :=
    ⟨h.shape, h.row_lt, h.col_lt, h.rows_le, h.cols_le⟩
  unfold stepCsi
  dsimp only
  split
  · split
    · exact quiet (safe_move h h.row_lt h.col_lt _ _ _ _ _)
    · exact quiet (safe_some h (.refl s))
  split
  · exact quiet (safe_move h h.row_lt h.col_lt _ _ _ _ _)
  split
  · rename_i final
    split
    · exact quiet (safe_move h h.row_lt h.col_lt _ _ _ _ _)
    · rename_i shown
      have reads : s.dispatches ch = true := by simp [dispatches, inCsi, final, shown]
      refine (csiDispatch_spec hw ch).mono (fun s' hs => ⟨hs.1, fun noSwitch noSize => ?_⟩)
      simp only [readsSwitch, readsSizeChange, reads, Bool.true_and] at noSwitch noSize
      obtain ⟨hr, hc, hm, hp⟩ := hs.2 noSwitch noSize
      exact ⟨hr, hc, hm, hp⟩
  split
  · exact quiet (safe_move h h.row_lt h.col_lt _ _ _ _ _)
  split
  · exact quiet (stepGround_safe h ch)
  · exact quiet (safe_move h h.row_lt h.col_lt _ _ _ _ _)

/-- One character: the renderer returns, stays well formed, and is quiet unless
the character completes a screen switch or a size change. -/
lemma step_spec (ch : Char) :
    Ensures (s.step ch) (fun s' => WellFormed s' ∧
      (s.readsSwitch ch = false → s.readsSizeChange ch = false → Quiet s s')) := by
  have quiet : ∀ {m : Option VtTextRenderer}, Safe s m →
      Ensures m (fun s' => WellFormed s' ∧
        (s.readsSwitch ch = false → s.readsSizeChange ch = false → Quiet s s')) :=
    fun hm => hm.mono (fun s' hs => ⟨hs.1, fun _ _ => hs.2⟩)
  unfold step
  split
  · exact quiet (stepGround_safe h ch)
  · exact quiet (stepEscape_safe h ch)
  · split
    · exact quiet (safe_move h h.row_lt h.col_lt _ _ _ _ _)
    · exact quiet (safe_some h (.refl s))
  · exact stepCsi_spec h ‹_› ch
  · exact quiet (stepString_safe h ch _)
  · exact quiet (stepStringEscape_safe h ch)
  · exact quiet (stepString_safe h ch _)
  · exact quiet (stepStringEscape_safe h ch)

lemma step_wellFormed (ch : Char) : Ensures (s.step ch) WellFormed :=
  (step_spec h ch).mono (fun _ hs => hs.1)

lemma feedChars_wellFormed (data : List Char) : Ensures (s.feedChars data) WellFormed :=
  ensures_foldlM data (fun _ ch _ hs => step_wellFormed hs ch) h

lemma takePending_wellFormed : WellFormed s.takePending.2 :=
  ⟨h.shape, h.row_lt, h.col_lt, h.rows_le, h.cols_le⟩

lemma feed_wellFormed (data : List Char) :
    Ensures (s.feed data) (fun out => WellFormed out.2) := by
  obtain ⟨s', hfeed, hs⟩ := feedChars_wellFormed h data
  unfold feed
  rw [hfeed]
  exact ensures_some (takePending_wellFormed hs)

lemma restoreForFinish_wellFormed : Ensures s.restoreForFinish WellFormed := by
  have hrow := h.row_lt
  have hcol := h.col_lt
  unfold restoreForFinish
  split
  · rw [clampRow_eq h, clampCol_eq h]
    exact normalizeScreen_wellFormed (show 0 < s.rows by omega) h.rows_le
      (show 0 < s.cols by omega) h.cols_le
  · exact ensures_some h

lemma finish_wellFormed : Ensures s.finish (fun out => WellFormed out.2) := by
  refine (restoreForFinish_wellFormed h).bind (fun s₁ h₁ => ?_)
  refine Ensures.bind (flushScreen_safe h₁) (fun s₂ h₂ => ensures_some ?_)
  have hrow := h₂.1.row_lt
  have hcol := h₂.1.col_lt
  exact takePending_wellFormed
    ⟨h₂.1.shape, by show 0 < s₂.rows; omega, by show 0 < s₂.cols; omega, h₂.1.rows_le, h₂.1.cols_le⟩

end

lemma new_wellFormed (rows cols : UInt16) : WellFormed (new rows cols) := by
  have hrow := clamp_bounds (show 1 ≤ maxRows by decide) rows.toNat
  have hcol := clamp_bounds (show 1 ≤ maxCols by decide) cols.toNat
  exact ⟨Shape.replicate _ _, hrow.1, hcol.1, hrow.2, hcol.2⟩

end VtTextRenderer

inductive Call where
  | feed (data : List Char)
  | resize (rows cols : UInt16)
  | finish

/-- The renderer after a call, whatever text the call hands out. -/
def Call.apply (s : VtTextRenderer) : Call → Option VtTextRenderer
  | .feed data => (s.feed data).map Prod.snd
  | .resize rows cols => s.resize rows cols
  | .finish => s.finish.map Prod.snd

def runCalls (s : VtTextRenderer) (calls : List Call) : Option VtTextRenderer :=
  calls.foldlM Call.apply s

lemma ensures_map_snd {α β : Type} {m : Option (α × β)} {Q : β → Prop}
    (h : Ensures m (fun out => Q out.2)) : Ensures (m.map Prod.snd) Q := by
  obtain ⟨out, rfl, hq⟩ := h
  exact ensures_some hq

variable {s : VtTextRenderer}

lemma call_wellFormed (h : WellFormed s) (call : Call) : Ensures (call.apply s) WellFormed := by
  cases call with
  | feed data => exact ensures_map_snd (VtTextRenderer.feed_wellFormed h data)
  | resize rows cols => exact VtTextRenderer.resize_wellFormed h rows cols
  | finish => exact ensures_map_snd (VtTextRenderer.finish_wellFormed h)

lemma runCalls_wellFormed (h : WellFormed s) (calls : List Call) :
    Ensures (runCalls s calls) WellFormed :=
  ensures_foldlM calls (fun _ call _ hs => call_wellFormed hs call) h

/-- Every run returns. After any calls and any part of a further chunk, that is
between any two characters, the screen has the stated geometry and the cursor
is inside it. -/
theorem recorder_never_panics (rows cols : UInt16) (calls : List Call) (data : List Char) :
    Ensures (runCalls (.new rows cols) calls >>= fun s => s.feedChars data) (fun s =>
      s.screen.length = s.rows ∧ (∀ line ∈ s.screen, line.length = s.cols) ∧
      s.row < s.rows ∧ s.col < s.cols ∧ 1 ≤ s.rows ∧ s.rows ≤ 1024 ∧
      1 ≤ s.cols ∧ s.cols ≤ 4096) := by
  have run := (runCalls_wellFormed (VtTextRenderer.new_wellFormed rows cols) calls).bind
    (fun s hs => VtTextRenderer.feedChars_wellFormed hs data)
  refine run.mono (fun s hs => ?_)
  have hrow := hs.row_lt
  have hcol := hs.col_lt
  exact ⟨hs.shape.length_eq, hs.shape.line_length, hrow, hcol, by omega, hs.rows_le, by omega,
    hs.cols_le⟩

end VtText
