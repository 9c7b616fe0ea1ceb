import Mathlib.Data.List.Basic
import Mathlib.Data.UInt
import Mathlib.Tactic.IntervalCases

/-!
# Find and replace in a note

A text is the list of its UTF-16 units. A note is a row of text nodes and of other tokens (the
borders of nodes, images), each of which takes one position; a unit of a text takes one as well.
-/

namespace Notes

open List

abbrev JsString := List UInt16

/-- Lower case: of a text that is not empty it is not empty, and a unit of it is lower case. -/
structure Lowering where
  toLowerCase : JsString → JsString
  nonempty : ∀ t, t ≠ [] → toLowerCase t ≠ []
  settled : ∀ t, ∀ unit ∈ toLowerCase t, toLowerCase [unit] = [unit]

/-- The units from `start`, at most `length` of them. -/
def slice {α : Type} (t : List α) (start length : Nat) : List α :=
  (t.drop start).take length

/-- The first place at or after `position` where the needle is. -/
def indexOf (haystack needle : JsString) (position : Nat) : Option Nat :=
  (List.range (haystack.length + 1)).find? fun k =>
    position ≤ k ∧ slice haystack k needle.length = needle

lemma le_of_slice {haystack needle : JsString} {k : Nat} (nonempty : needle ≠ [])
    (found : slice haystack k needle.length = needle) : k + needle.length ≤ haystack.length := by
  have size := congrArg List.length found
  have pos := length_pos_of_ne_nil nonempty
  rw [slice, length_take, length_drop] at size
  omega

section IndexOf
variable {haystack needle : JsString} {position k : Nat}

lemma indexOf_eq_some (nonempty : needle ≠ []) :
    indexOf haystack needle position = some k ↔
      position ≤ k ∧ slice haystack k needle.length = needle ∧
        ∀ j < k, position ≤ j → slice haystack j needle.length ≠ needle := by
  simp only [indexOf, find?_range_eq_some, decide_eq_true_eq, mem_range,
    Bool.not_eq_true', decide_eq_false_iff_not, not_and]
  constructor
  · rintro ⟨⟨after, here⟩, -, before⟩
    exact ⟨after, here, before⟩
  · rintro ⟨after, here, before⟩
    have inside := le_of_slice nonempty here
    exact ⟨⟨after, here⟩, by omega, before⟩

lemma indexOf_eq_none (nonempty : needle ≠ []) :
    indexOf haystack needle position = none ↔
      ∀ k, position ≤ k → slice haystack k needle.length ≠ needle := by
  simp only [indexOf, find?_range_eq_none, Bool.not_eq_true', decide_eq_false_iff_not, not_and]
  constructor
  · intro missed k after here
    have inside := le_of_slice nonempty here
    exact missed k (by omega) after here
  · intro missed k _ after
    exact missed k after

end IndexOf

/-- The places that the loop finds from `position` on. -/
def matchIndexes (haystack needle : JsString) (nonempty : needle ≠ []) (position : Nat) :
    List Nat :=
  match _found : indexOf haystack needle position with
  | none => []
  | some index => index :: matchIndexes haystack needle nonempty (index + needle.length)
termination_by haystack.length + 1 - position
decreasing_by
  have ⟨after, here, _⟩ := (indexOf_eq_some nonempty).mp _found
  have inside := le_of_slice nonempty here
  have pos := List.length_pos_of_ne_nil nonempty
  omega

section MatchIndexes
variable {haystack needle : JsString} {nonempty : needle ≠ []} {position : Nat}

lemma mem_matchIndexes {k : Nat} (member : k ∈ matchIndexes haystack needle nonempty position) :
    position ≤ k ∧ slice haystack k needle.length = needle := by
  fun_induction matchIndexes haystack needle nonempty position with
  | case1 => simp at member
  | case2 position index found ih =>
    obtain ⟨after, here, -⟩ := (indexOf_eq_some nonempty).mp found
    rcases mem_cons.mp member with rfl | later
    · exact ⟨after, here⟩
    · have rest := ih later
      exact ⟨by omega, rest.2⟩

lemma pairwise_matchIndexes :
    (matchIndexes haystack needle nonempty position).Pairwise fun a b => a + needle.length ≤ b := by
  fun_induction matchIndexes haystack needle nonempty position with
  | case1 => exact Pairwise.nil
  | case2 position index found ih =>
    exact pairwise_cons.mpr ⟨fun k later => (mem_matchIndexes later).1, ih⟩

/-- Every place of the needle is covered by a place that is found. -/
lemma matchIndexes_covers {k : Nat} (after : position ≤ k)
    (here : slice haystack k needle.length = needle) :
    ∃ index ∈ matchIndexes haystack needle nonempty position,
      index ≤ k ∧ k < index + needle.length := by
  fun_induction matchIndexes haystack needle nonempty position with
  | case1 position missed => exact absurd here ((indexOf_eq_none nonempty).mp missed k after)
  | case2 position index found ih =>
    obtain ⟨-, -, before⟩ := (indexOf_eq_some nonempty).mp found
    have first : index ≤ k := by
      by_contra earlier
      exact before k (by omega) after here
    by_cases inside : k < index + needle.length
    · exact ⟨index, mem_cons_self, first, inside⟩
    · obtain ⟨other, member, covered⟩ := ih (by omega)
      exact ⟨other, mem_cons_of_mem _ member, covered⟩

end MatchIndexes

structure NoteSearchMatch where
  start : Nat
  stop : Nat
deriving DecidableEq

inductive Piece (τ : Type) where
  | text (units : JsString)
  | token (t : τ)

inductive Cell (τ : Type) where
  | unit (u : UInt16)
  | token (t : τ)
deriving DecidableEq

section Doc
variable {τ : Type}

def Piece.cells : Piece τ → List (Cell τ)
  | .text units => units.map .unit
  | .token t => [.token t]

def cells (doc : List (Piece τ)) : List (Cell τ) :=
  doc.flatMap Piece.cells

/-- The text nodes that are not empty, with their positions. -/
def textNodes (position : Nat) : List (Piece τ) → List (Nat × JsString)
  | [] => []
  | .text units :: doc =>
    if units = [] then textNodes position doc
    else (position, units) :: textNodes (position + units.length) doc
  | .token _ :: doc => textNodes (position + 1) doc

variable (lower : Lowering)

def cased (caseSensitive : Bool) (t : JsString) : JsString :=
  if caseSensitive then t else lower.toLowerCase t

lemma cased_ne_nil {caseSensitive : Bool} {t : JsString} (nonempty : t ≠ []) :
    cased lower caseSensitive t ≠ [] := by
  unfold cased
  split
  · exact nonempty
  · exact lower.nonempty t nonempty

def nodeMatches (term : JsString) (caseSensitive : Bool) (node : Nat × JsString) :
    List NoteSearchMatch :=
  if nonempty : term = [] then []
  else
    (matchIndexes (cased lower caseSensitive node.2) (cased lower caseSensitive term)
      (cased_ne_nil lower nonempty) 0).map fun index =>
        { start := node.1 + index, stop := node.1 + index + term.length }

def findMatches (doc : List (Piece τ)) (term : JsString) (caseSensitive : Bool) :
    List NoteSearchMatch :=
  (textNodes 0 doc).flatMap (nodeMatches lower term caseSensitive)

/-- The transaction's `insertText`: the range is replaced by the text. -/
def insertText (replacement : JsString) (cells : List (Cell τ)) (range : NoteSearchMatch) :
    List (Cell τ) :=
  cells.take range.start ++ replacement.map .unit ++ cells.drop range.stop

/-- The matches are those of the note; they are replaced from the last to the first. -/
def replaceAllNoteMatches (doc : List (Piece τ)) (term : JsString) (caseSensitive : Bool)
    (replacement : JsString) : List (Cell τ) :=
  ((findMatches lower doc term caseSensitive).mergeSort fun left right =>
    right.start ≤ left.start).foldl (insertText replacement) (cells doc)

/-- The ranges, in order, replaced from the first to the last; `position` is where the rest
starts. -/
def replaceRanges (replacement : JsString) : Nat → List NoteSearchMatch → List (Cell τ) →
    List (Cell τ)
  | _, [], rest => rest
  | position, range :: ranges, rest =>
    rest.take (range.start - position) ++ replacement.map .unit ++
      replaceRanges replacement range.stop ranges (rest.drop (range.stop - position))

/-- Ranges in order, apart from one another and inside the note. -/
def Apart (size position : Nat) : List NoteSearchMatch → Prop
  | [] => position ≤ size
  | range :: ranges =>
    position ≤ range.start ∧ range.start ≤ range.stop ∧ Apart size range.stop ranges

variable {size position : Nat} {ranges : List NoteSearchMatch} {width : Nat} {doc : List (Piece τ)}
  {node : Nat × JsString}

lemma Apart.le (apart : Apart size position ranges) : position ≤ size := by
  induction ranges generalizing position with
  | nil => exact apart
  | cons range ranges ih =>
    obtain ⟨before, ordered, rest⟩ := apart
    have inside := ih rest
    omega

/-- Replacing from the back leaves what is in front of the ranges as it was. -/
lemma foldr_insertText {replacement : JsString} {cells : List (Cell τ)}
    (apart : Apart cells.length position ranges) :
    ranges.foldr (fun range cells => insertText replacement cells range) cells =
      cells.take position ++ replaceRanges replacement position ranges (cells.drop position) := by
  induction ranges generalizing position with
  | nil => exact (take_append_drop _ _).symm
  | cons range ranges ih =>
    obtain ⟨before, ordered, rest⟩ := apart
    have inside := rest.le
    have size : (cells.take range.stop).length = range.stop := by
      rw [length_take]
      omega
    have front : cells.take position ++ (cells.drop position).take (range.start - position) =
        cells.take range.start := by
      rw [← take_add, Nat.add_sub_cancel' before]
    rw [foldr_cons, ih rest, insertText, take_append_of_le_length (by omega),
      take_take, Nat.min_eq_left ordered, drop_left' size, replaceRanges, drop_drop,
      Nat.add_sub_cancel' (by omega), append_assoc, ← append_assoc (cells.take position),
      ← append_assoc (cells.take position), front, append_assoc]

lemma Apart.weaken {before : Nat} (apart : Apart size position ranges) (le : before ≤ position) :
    Apart size before ranges := by
  cases ranges with
  | nil => exact le.trans apart
  | cons range ranges => exact ⟨le.trans apart.1, apart.2⟩

lemma Apart.append {middle : Nat} {ranges' : List NoteSearchMatch}
    (apart : Apart middle position ranges) (apart' : Apart size middle ranges') :
    Apart size position (ranges ++ ranges') := by
  induction ranges generalizing position with
  | nil => exact apart'.weaken apart
  | cons range ranges ih => exact ⟨apart.1, apart.2.1, ih apart.2.2⟩

lemma Apart.le_start (apart : Apart size position ranges) :
    ∀ range ∈ ranges, position ≤ range.start := by
  induction ranges generalizing position with
  | nil => simp
  | cons range ranges ih =>
    obtain ⟨before, ordered, rest⟩ := apart
    intro other member
    rcases mem_cons.mp member with rfl | later
    · exact before
    · have := ih rest other later
      omega

lemma Apart.pairwise (apart : Apart size position ranges) :
    ranges.Pairwise fun a b => a.stop ≤ b.start := by
  induction ranges generalizing position with
  | nil => exact Pairwise.nil
  | cons range ranges ih => exact pairwise_cons.mpr ⟨apart.2.2.le_start, ih apart.2.2⟩

/-- Ranges of one width in order are sorted backwards by being reversed. -/
lemma mergeSort_eq_reverse (widths : ∀ range ∈ ranges, range.stop = range.start + width)
    (ordered : ranges.Pairwise fun a b => a.stop ≤ b.start) :
    ranges.mergeSort (fun left right => right.start ≤ left.start) = ranges.reverse := by
  refine @Perm.eq_of_pairwise _ (fun left right => right.start ≤ left.start) _ _ ?_ ?_ ?_
    ((mergeSort_perm _ _).trans (reverse_perm _).symm)
  · intro a b left right below above
    have width' := widths a ((mergeSort_perm _ _).mem_iff.mp left)
    have width'' := widths b (mem_reverse.mp right)
    have same : a.start = b.start := Nat.le_antisymm above below
    cases a
    cases b
    simp_all
  · have sorted := @pairwise_mergeSort _
      (fun left right : NoteSearchMatch => decide (right.start ≤ left.start)) ?_ ?_ ranges
    · simpa using sorted
    · intro a b c
      simp only [decide_eq_true_eq]
      omega
    · intro a b
      simp only [Bool.or_eq_true, decide_eq_true_eq]
      omega
  · rw [pairwise_reverse]
    refine ordered.imp_of_mem fun {a b} left _ before => ?_
    have := widths a left
    omega

variable {lower}

lemma length_cells_text (units : JsString) :
    (Piece.text units : Piece τ).cells.length = units.length :=
  length_map _

lemma slice_cells (member : node ∈ textNodes position doc) :
    ∃ front back, cells doc = front ++ node.2.map .unit ++ back ∧
      position + front.length = node.1 := by
  induction doc generalizing position with
  | nil => simp [textNodes] at member
  | cons piece doc ih =>
    have later {shift : Nat} (size : piece.cells.length = shift)
        (member : node ∈ textNodes (position + shift) doc) :
        ∃ front back, cells (piece :: doc) = front ++ node.2.map .unit ++ back ∧
          position + front.length = node.1 := by
      obtain ⟨front, back, split, place⟩ := ih member
      refine ⟨piece.cells ++ front, back, ?_, ?_⟩
      · rw [cells, flatMap_cons, ← cells, split]
        simp only [append_assoc]
      · rw [length_append, size]
        omega
    cases piece with
    | token t => exact later rfl member
    | text units =>
      rw [textNodes] at member
      split at member
      · rename_i empty
        exact @later 0 (by rw [length_cells_text, empty, length_nil]) member
      · rcases mem_cons.mp member with rfl | member
        · exact ⟨[], cells doc, rfl, rfl⟩
        · exact later (length_cells_text units) member

lemma slice_textNode (member : node ∈ textNodes 0 doc) {index n : Nat}
    (inside : index + n ≤ node.2.length) :
    slice (cells doc) (node.1 + index) n = (slice node.2 index n).map .unit := by
  obtain ⟨front, back, split, place⟩ := slice_cells member
  have start : node.1 + index = front.length + index := by omega
  have room : n ≤ ((node.2.map Cell.unit : List (Cell τ)).drop index).length := by
    rw [length_drop, length_map]
    omega
  have behind : (cells doc).drop (node.1 + index) =
      (node.2.map Cell.unit).drop index ++ back := by
    rw [split, start, append_assoc, drop_length_add_append, drop_append_of_le_length]
    rw [length_map]
    omega
  rw [slice, behind, take_append_of_le_length room, slice, map_take, map_drop]

/-- Matches that are apart in every node are apart in the note. -/
lemma apart_flatMap {find : Nat × JsString → List NoteSearchMatch}
    (each : ∀ node ∈ textNodes position doc, Apart (node.1 + node.2.length) node.1 (find node)) :
    Apart (position + (cells doc).length) position ((textNodes position doc).flatMap find) := by
  induction doc generalizing position with
  | nil => exact Nat.le_refl position
  | cons piece doc ih =>
    have size : (cells (piece :: doc)).length = piece.cells.length + (cells doc).length := by
      rw [cells, flatMap_cons, length_append, ← cells]
    rw [size, ← Nat.add_assoc]
    cases piece with
    | token t => exact (ih each).weaken (Nat.le_succ position)
    | text units =>
      rw [length_cells_text]
      rw [textNodes] at each ⊢
      split at each
      · rename_i empty
        simp only [empty, if_true, length_nil, Nat.add_zero]
        exact ih each
      · rename_i nonempty
        rw [if_neg nonempty, flatMap_cons]
        exact (each _ mem_cons_self).append
          (ih fun node member => each node (mem_cons_of_mem _ member))

/-- The match is in its node, and what it covers is the term. -/
def Covers (lower : Lowering) (doc : List (Piece τ)) (term : JsString) (caseSensitive : Bool)
    (node : Nat × JsString) (found : NoteSearchMatch) : Prop :=
  node.1 ≤ found.start ∧ found.stop ≤ node.1 + node.2.length ∧
    ∃ content, slice (cells doc) found.start (found.stop - found.start) = content.map .unit ∧
      cased lower caseSensitive content = cased lower caseSensitive term

/-- Replacing touches the matches, which are right, and nothing else. -/
structure TouchesOnlyMatches (lower : Lowering) (doc : List (Piece τ)) (term : JsString)
    (caseSensitive : Bool) : Prop where
  covered : ∀ node ∈ textNodes 0 doc, ∀ found ∈ nodeMatches lower term caseSensitive node,
    Covers lower doc term caseSensitive node found
  disjoint : (findMatches lower doc term caseSensitive).Pairwise fun a b => a.stop ≤ b.start
  replaced : ∀ replacement, replaceAllNoteMatches lower doc term caseSensitive replacement =
    replaceRanges replacement 0 (findMatches lower doc term caseSensitive) (cells doc)

/-- The case mapping goes unit by unit over a text: it maps each part to the same part. -/
structure InStep (f : JsString → JsString) (t : JsString) : Prop where
  length : (f t).length = t.length
  slices : ∀ start n, start + n ≤ t.length → f (slice t start n) = slice (f t) start n

lemma inStep_id (t : JsString) : InStep (fun t => t) t :=
  ⟨rfl, fun _ _ _ => rfl⟩

def Occurs (needle haystack : JsString) : Prop :=
  ∃ k, slice haystack k needle.length = needle

lemma apart_indexes {low : Nat} {indexes : List Nat} (room : low ≤ size)
    (inside : ∀ index ∈ indexes, low ≤ index ∧ index + width ≤ size)
    (ordered : indexes.Pairwise fun a b => a + width ≤ b) :
    Apart (position + size) (position + low)
      (indexes.map fun index => ⟨position + index, position + index + width⟩) := by
  induction indexes generalizing low with
  | nil => exact Nat.add_le_add_left room position
  | cons index indexes ih =>
    obtain ⟨below, ordered⟩ := pairwise_cons.mp ordered
    obtain ⟨after, fits⟩ := inside index mem_cons_self
    have rest := ih fits (fun other member =>
      ⟨below other member, (inside other (mem_cons_of_mem _ member)).2⟩) ordered
    rw [← Nat.add_assoc] at rest
    exact ⟨Nat.add_le_add_left after position, Nat.le_add_right _ _, rest⟩

section Right
variable {doc : List (Piece τ)} {term : JsString} {caseSensitive : Bool} {node : Nat × JsString}

/-- In a text that is mapped unit by unit, the places in the mapped text are the places in the
text. -/
lemma node_right (member : node ∈ textNodes 0 doc)
    (step : Occurs (cased lower caseSensitive term) (cased lower caseSensitive node.2) →
      (cased lower caseSensitive term).length = term.length ∧
        InStep (cased lower caseSensitive) node.2) :
    Apart (node.1 + node.2.length) node.1 (nodeMatches lower term caseSensitive node) ∧
      ∀ found ∈ nodeMatches lower term caseSensitive node,
        Covers lower doc term caseSensitive node found := by
  unfold nodeMatches
  split
  · exact ⟨Nat.le_add_right _ _, by simp⟩
  · rename_i nonempty
    have here {index : Nat} (found : index ∈ matchIndexes (cased lower caseSensitive node.2)
        (cased lower caseSensitive term) (cased_ne_nil lower nonempty) 0) :
        index + term.length ≤ node.2.length ∧
          cased lower caseSensitive (slice node.2 index term.length) =
            cased lower caseSensitive term := by
      have place := (mem_matchIndexes found).2
      obtain ⟨width, step⟩ := step ⟨index, place⟩
      have inside := le_of_slice (cased_ne_nil lower nonempty) place
      rw [step.length, width] at inside
      rw [width] at place
      exact ⟨inside, (step.slices index _ inside).trans place⟩
    constructor
    · have ordered := @pairwise_matchIndexes (cased lower caseSensitive node.2)
        (cased lower caseSensitive term) (cased_ne_nil lower nonempty) 0
      cases all : matchIndexes (cased lower caseSensitive node.2) (cased lower caseSensitive term)
          (cased_ne_nil lower nonempty) 0 with
      | nil => exact Nat.le_add_right _ _
      | cons first rest =>
        have found : first ∈ matchIndexes (cased lower caseSensitive node.2)
            (cased lower caseSensitive term) (cased_ne_nil lower nonempty) 0 := by simp [all]
        rw [(step ⟨first, (mem_matchIndexes found).2⟩).1, all] at ordered
        exact apart_indexes (Nat.zero_le _) (fun index member =>
          ⟨Nat.zero_le _, (here (all ▸ member)).1⟩) ordered
    · intro range found
      obtain ⟨index, listed, rfl⟩ := mem_map.mp found
      obtain ⟨inside, same⟩ := here listed
      have content := slice_textNode member inside
      refine ⟨Nat.le_add_right _ _, ?_, slice node.2 index term.length, ?_, same⟩
      · simp only
        omega
      · simp only [Nat.add_sub_cancel_left]
        exact content

lemma touchesOnlyMatches (step : ∀ node ∈ textNodes 0 doc,
      Occurs (cased lower caseSensitive term) (cased lower caseSensitive node.2) →
        (cased lower caseSensitive term).length = term.length ∧
          InStep (cased lower caseSensitive) node.2) :
    TouchesOnlyMatches lower doc term caseSensitive := by
  have apart : Apart (0 + (cells doc).length) 0 (findMatches lower doc term caseSensitive) :=
    apart_flatMap fun node member => (node_right member (step node member)).1
  have widths : ∀ range ∈ findMatches lower doc term caseSensitive,
      range.stop = range.start + term.length := by
    intro range member
    obtain ⟨node, -, found⟩ := mem_flatMap.mp member
    unfold nodeMatches at found
    split at found
    · simp at found
    · obtain ⟨index, -, rfl⟩ := mem_map.mp found
      rfl
  refine ⟨fun node member => (node_right member (step node member)).2, apart.pairwise,
    fun replacement => ?_⟩
  rw [Nat.zero_add] at apart
  rw [replaceAllNoteMatches, mergeSort_eq_reverse widths apart.pairwise, foldl_reverse,
    foldr_insertText apart, take_zero, nil_append, drop_zero]

/-- If a text node gets longer in lower case, its last unit there is found beyond the node. -/
lemma longer_goes_wrong (member : node ∈ textNodes 0 doc)
    (longer : node.2.length < (lower.toLowerCase node.2).length) :
    ∃ unit, ¬ TouchesOnlyMatches lower doc [unit] false := by
  have some_ : lower.toLowerCase node.2 ≠ [] := ne_nil_of_length_pos (by omega)
  have settled := lower.settled node.2 _ (getLast_mem some_)
  refine ⟨(lower.toLowerCase node.2).getLast some_, fun touches => ?_⟩
  have needle : cased lower false [(lower.toLowerCase node.2).getLast some_] =
      [(lower.toLowerCase node.2).getLast some_] := settled
  have here : slice (cased lower false node.2) ((lower.toLowerCase node.2).length - 1)
      (cased lower false [(lower.toLowerCase node.2).getLast some_]).length =
        cased lower false [(lower.toLowerCase node.2).getLast some_] := by
    rw [needle, slice]
    have := drop_length_sub_one some_
    simp [cased, this]
  obtain ⟨index, found, before, after⟩ := @matchIndexes_covers _ _
    (cased_ne_nil lower (cons_ne_nil _ _)) 0 _ (Nat.zero_le _) here
  rw [needle, length_singleton] at after
  have inside := (touches.covered node member _ (by
    rw [nodeMatches, dif_neg (cons_ne_nil _ _)]
    exact mem_map_of_mem found)).2.1
  simp only [length_singleton] at inside
  omega

end Right

end Doc

/-- The capital I with a dot takes two units in lower case; ASCII letters take one. -/
def lowerUnit (unit : UInt16) : JsString :=
  if unit = 0x130 then [0x69, 0x307]
  else if 0x41 ≤ unit ∧ unit ≤ 0x5a then [unit + 0x20]
  else [unit]

lemma lowerUnit_settled (unit : UInt16) :
    ∀ lowered ∈ lowerUnit unit, lowerUnit lowered = [lowered] := by
  intro lowered member
  rw [lowerUnit] at member
  split at member
  · simp only [mem_cons, not_mem_nil, or_false] at member
    rcases member with rfl | rfl <;> rfl
  · split at member
    · rename_i letter
      rw [mem_singleton.mp member, lowerUnit, if_neg, if_neg]
      · grind
      · grind
    · rw [mem_singleton.mp member, lowerUnit, if_neg ‹_›, if_neg ‹_›]

def sampleLowering : Lowering where
  toLowerCase t := t.flatMap lowerUnit
  nonempty t some_ := by
    obtain ⟨unit, rest, rfl⟩ := List.exists_cons_of_ne_nil some_
    rw [List.flatMap_cons, lowerUnit]
    split
    · simp
    · split <;> simp
  settled t unit member := by
    obtain ⟨upper, -, lowered⟩ := List.mem_flatMap.mp member
    rw [List.flatMap_singleton]
    exact lowerUnit_settled upper unit lowered

end Notes
