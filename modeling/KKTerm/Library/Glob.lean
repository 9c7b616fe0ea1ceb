import Mathlib.Data.List.Forall2
import Mathlib.Data.List.Induction

/-!
# Wildcard patterns

A pattern matches a value that can be cut into pieces, one for each character of
the pattern. The row of all prefixes that a pattern matches is computed from the
row of the pattern without its last character.
-/

namespace Glob

open List

/-- A piece of the value that one character of the pattern may stand for. -/
def Fits (c : Char) (piece : List Char) : Prop :=
  c = '*' ∨ ∃ d, piece = [d] ∧ (c = '?' ∨ c = d)

def Matches : List Char → List Char → Prop
  | [], value => value = []
  | c :: pattern, value =>
    ∃ piece rest, value = piece ++ rest ∧ Fits c piece ∧ Matches pattern rest

variable {pattern value : List Char} {c d : Char}

lemma matches_append {front back : List Char} :
    Matches (front ++ back) value ↔
      ∃ before after, value = before ++ after ∧ Matches front before ∧ Matches back after := by
  induction front generalizing value with
  | nil =>
    constructor
    · intro h
      exact ⟨[], value, rfl, rfl, h⟩
    · rintro ⟨_, after, rfl, rfl, h⟩
      exact h
  | cons c front ih =>
    constructor
    · rintro ⟨piece, rest, rfl, fits, h⟩
      obtain ⟨before, after, rfl, hf, hb⟩ := ih.mp h
      exact ⟨piece ++ before, after, (append_assoc _ _ _).symm, ⟨piece, before, rfl, fits, hf⟩, hb⟩
    · rintro ⟨_, after, rfl, ⟨piece, rest, rfl, fits, hf⟩, hb⟩
      exact ⟨piece, rest ++ after, append_assoc _ _ _, fits, ih.mpr ⟨rest, after, rfl, hf, hb⟩⟩

lemma matches_iff_pieces :
    Matches pattern value ↔ ∃ pieces, Forall₂ Fits pattern pieces ∧ pieces.flatten = value := by
  induction pattern generalizing value with
  | nil =>
    simp only [Matches, forall₂_nil_left_iff, exists_eq_left, flatten_nil]
    exact eq_comm
  | cons c pattern ih =>
    constructor
    · rintro ⟨piece, rest, rfl, fits, h⟩
      obtain ⟨pieces, all, rfl⟩ := ih.mp h
      exact ⟨piece :: pieces, .cons fits all, rfl⟩
    · rintro ⟨_, fits | ⟨fits, all⟩, rfl⟩
      exact ⟨_, _, rfl, fits, ih.mpr ⟨_, all, rfl⟩⟩

lemma matches_single : Matches [c] value ↔ Fits c value := by
  constructor
  · rintro ⟨piece, rest, rfl, fits, empty⟩
    rw [Matches] at empty
    rw [empty, append_nil]
    exact fits
  · intro fits
    exact ⟨value, [], (append_nil value).symm, fits, rfl⟩

/-- A last star either stands for nothing, or for one character more. -/
lemma matches_star_snoc : Matches (pattern ++ ['*']) (value ++ [d]) ↔
    Matches pattern (value ++ [d]) ∨ Matches (pattern ++ ['*']) value := by
  simp only [matches_append, matches_single]
  constructor
  · rintro ⟨before, after, cut, h, -⟩
    rcases eq_nil_or_concat after with rfl | ⟨init, last, rfl⟩
    · rw [cut, append_nil]
      exact .inl h
    · rw [concat_eq_append, ← append_assoc] at cut
      exact .inr ⟨before, init, (append_inj' cut rfl).1, h, .inl rfl⟩
  · rintro (h | ⟨before, after, rfl, h, -⟩)
    · exact ⟨value ++ [d], [], (append_nil _).symm, h, .inl rfl⟩
    · exact ⟨before, after ++ [d], append_assoc _ _ _, h, .inl rfl⟩

lemma matches_star_nil : Matches (pattern ++ ['*']) [] ↔ Matches pattern [] := by
  simp only [matches_append, matches_single]
  constructor
  · rintro ⟨before, after, cut, h, -⟩
    rw [(append_eq_nil_iff.mp cut.symm).1] at h
    exact h
  · intro h
    exact ⟨[], [], rfl, h, .inl rfl⟩

lemma matches_char_snoc (plain : c ≠ '*') : Matches (pattern ++ [c]) (value ++ [d]) ↔
    Matches pattern value ∧ (c = '?' ∨ c = d) := by
  simp only [matches_append, matches_single]
  constructor
  · rintro ⟨before, after, cut, h, fits⟩
    obtain ⟨e, rfl, one⟩ := fits.resolve_left plain
    obtain ⟨rfl, last⟩ := append_inj' cut rfl
    cases last
    exact ⟨h, one⟩
  · rintro ⟨h, one⟩
    exact ⟨value, [d], rfl, h, .inr ⟨d, rfl, one⟩⟩

lemma not_matches_char_nil (plain : c ≠ '*') : ¬ Matches (pattern ++ [c]) [] := by
  simp only [matches_append, matches_single]
  rintro ⟨before, after, cut, -, fits⟩
  obtain ⟨e, rfl, -⟩ := fits.resolve_left plain
  exact absurd (append_eq_nil_iff.mp cut.symm).2 (cons_ne_nil e [])

/-- A row says of every prefix of the value whether the pattern matches it. -/
def Row (pattern value : List Char) (row : List Bool) : Prop :=
  row.length = value.length + 1 ∧
    ∀ j, j ≤ value.length → (row[j]? = some true ↔ Matches pattern (value.take j))

/-- The row after a star: a prefix matches with the prefixes before it. -/
def starRow : Bool → List Bool → List Bool
  | _, [] => []
  | before, here :: rest => (here || before) :: starRow (here || before) rest

/-- The row after another character: a prefix matches with its last character. -/
def charRow (c : Char) (row : List Bool) (value : List Char) : List Bool :=
  false :: List.zipWith (fun previous d => previous && (c == '?' || c == d)) row value

variable (before : Bool) (row : List Bool)

lemma length_starRow : (starRow before row).length = row.length := by
  induction row generalizing before with
  | nil => rfl
  | cons here rest ih => exact congrArg (· + 1) (ih (here || before))

lemma starRow_zero : (starRow before row)[0]? = row[0]?.map (· || before) := by
  cases row <;> rfl

lemma starRow_succ (j : Nat) :
    (starRow before row)[j + 1]? =
      row[j + 1]?.bind (fun here => (starRow before row)[j]?.map (here || ·)) := by
  induction row generalizing before j with
  | nil => rfl
  | cons here rest ih =>
    rw [starRow, getElem?_cons_succ, getElem?_cons_succ]
    cases j with
    | zero =>
      rw [starRow_zero, getElem?_cons_zero]
      cases rest <;> rfl
    | succ j => rw [ih, getElem?_cons_succ]

lemma Row.star {row : List Bool} (r : Row pattern value row) :
    Row (pattern ++ ['*']) value (starRow false row) := by
  refine ⟨(length_starRow false row).trans r.1, fun j => ?_⟩
  induction j with
  | zero =>
    intro _
    rw [starRow_zero, take_zero, matches_star_nil, ← take_zero (l := value),
      ← r.2 0 (Nat.zero_le _)]
    simp
  | succ j ih =>
    intro small
    have here := r.2 (j + 1) small
    have before := ih (Nat.le_of_lt small)
    have inside : j < (starRow false row).length := by
      rw [length_starRow, r.1]
      omega
    rw [take_succ_eq_append_getElem small] at here ⊢
    rw [matches_star_snoc, ← here, ← before, starRow_succ,
      getElem?_eq_getElem (l := row) (i := j + 1) (by rw [r.1]; omega),
      getElem?_eq_getElem inside]
    simp

lemma Row.char {row : List Bool} (r : Row pattern value row) (plain : c ≠ '*') :
    Row (pattern ++ [c]) value (charRow c row value) := by
  have length : (zipWith (fun previous d => previous && (c == '?' || c == d)) row
      value).length = value.length := by
    rw [length_zipWith, r.1]
    omega
  refine ⟨congrArg (· + 1) length, fun j small => ?_⟩
  cases j with
  | zero =>
    rw [take_zero]
    exact iff_of_false (fun h => Bool.false_ne_true (Option.some.inj h)) (not_matches_char_nil plain)
  | succ j =>
    have before := r.2 j (Nat.le_of_lt small)
    rw [take_succ_eq_append_getElem small, matches_char_snoc plain, ← before, charRow,
      getElem?_cons_succ, getElem?_zipWith, getElem?_eq_getElem small,
      getElem?_eq_getElem (l := row) (i := j) (by rw [r.1]; omega)]
    simp

def wildcardRow (pattern value : List Char) : List Bool :=
  pattern.foldl (fun row c => if c = '*' then starRow false row else charRow c row value)
    (true :: List.replicate value.length false)

lemma row_wildcardRow (pattern value : List Char) : Row pattern value (wildcardRow pattern value) := by
  induction pattern using reverseRecOn with
  | nil =>
    refine ⟨congrArg (· + 1) length_replicate, fun j small => ?_⟩
    cases j with
    | zero => exact iff_of_true rfl rfl
    | succ j =>
      rw [Matches, take_succ_eq_append_getElem small]
      refine iff_of_false ?_ (append_ne_nil_of_right_ne_nil _ (cons_ne_nil _ _))
      change (replicate value.length false)[j]? ≠ some true
      rw [getElem?_replicate_of_lt small]
      nofun
  | append_singleton pattern c ih =>
    rw [wildcardRow, foldl_concat, ← wildcardRow]
    by_cases star : c = '*'
    · rw [if_pos star, star]
      exact ih.star
    · rw [if_neg star]
      exact ih.char star

end Glob
