import Mathlib.Data.List.Basic

/-!
# Slots kept for what is to come

A slot is free or is kept for something. Something gets the first slot that is kept for it
and else the first free one; a slot that is kept is never given away.
-/

namespace Slots

open List

universe u
variable {α : Type u} [DecidableEq α]

/-- The first free slot, or a new one at the end. -/
def firstFree (slots : List (Option α)) : Nat × List (Option α) :=
  let index := slots.idxOf none
  if index < slots.length then (index, slots) else (slots.length, slots ++ [none])

/-- The first slot kept for something, or a free one. -/
def find (slots : List (Option α)) (a : α) : Nat × List (Option α) :=
  let index := slots.idxOf (some a)
  if index < slots.length then (index, slots) else firstFree slots

def reserve (slots : List (Option α)) (a : α) : List (Option α) :=
  (find slots a).2.set (find slots a).1 (some a)

def Kept (slots : List (Option α)) (i : Nat) (a : α) : Prop :=
  slots[i]? = some (some a)

variable {slots : List (Option α)} {a b : α} {i : Nat}

omit [DecidableEq α] in
lemma Kept.lt (kept : Kept slots i a) : i < slots.length :=
  (List.getElem?_eq_some_iff.mp kept).1

omit [DecidableEq α] in
lemma Kept.mem (kept : Kept slots i a) : some a ∈ slots :=
  mem_of_getElem? kept

omit [DecidableEq α] in
lemma kept_concat_none : Kept (slots ++ [none]) i a ↔ Kept slots i a := by
  rw [Kept, Kept]
  rcases Nat.lt_or_ge i slots.length with inside | outside
  · rw [getElem?_append_left inside]
  · rw [getElem?_append_right outside, getElem?_eq_none outside]
    cases i - slots.length with
    | zero => simp
    | succ n => simp

/-- A free slot is at hand, and nothing has been given away. -/
lemma firstFree_spec (slots : List (Option α)) :
    (firstFree slots).2[(firstFree slots).1]? = some none ∧
      ∀ i a, Kept (firstFree slots).2 i a ↔ Kept slots i a := by
  rw [firstFree]
  by_cases inside : slots.idxOf none < slots.length
  · simp only [inside, if_true]
    refine ⟨?_, by simp⟩
    rw [getElem?_eq_getElem inside, getElem_idxOf inside]
  · simp only [inside, if_false]
    refine ⟨?_, fun i a => kept_concat_none⟩
    simp

/-- The slot found is kept for what was looked for, or is free when no slot is. -/
lemma find_spec (slots : List (Option α)) (a : α) :
    (Kept (find slots a).2 (find slots a).1 a ∨
      (find slots a).2[(find slots a).1]? = some none ∧ some a ∉ slots) ∧
      ∀ i b, Kept (find slots a).2 i b ↔ Kept slots i b := by
  rw [find]
  by_cases inside : slots.idxOf (some a) < slots.length
  · simp only [inside, if_true]
    refine ⟨.inl ?_, by simp⟩
    rw [Kept, getElem?_eq_getElem inside, getElem_idxOf inside]
  · simp only [inside, if_false]
    obtain ⟨free, same⟩ := firstFree_spec slots
    refine ⟨.inr ⟨free, ?_⟩, same⟩
    exact fun member => inside (idxOf_lt_length_iff.mpr member)

lemma find_lt (slots : List (Option α)) (a : α) : (find slots a).1 < (find slots a).2.length := by
  rcases (find_spec slots a).1 with kept | ⟨free, -⟩
  · exact kept.lt
  · exact (List.getElem?_eq_some_iff.mp free).1

lemma find_ne (kept : Kept slots i b) (other : b ≠ a) : (find slots a).1 ≠ i := by
  rintro rfl
  obtain ⟨found, same⟩ := find_spec slots a
  have here := (same _ b).mpr kept
  rcases found with mine | ⟨free, -⟩
  · exact other (Option.some.inj (Option.some.inj (here.symm.trans mine)))
  · cases here.symm.trans free

lemma kept_reserve_self (slots : List (Option α)) (a : α) :
    Kept (reserve slots a) (find slots a).1 a := by
  rw [Kept, reserve, getElem?_set_self (find_lt slots a)]

lemma Kept.reserve (kept : Kept slots i b) : Kept (reserve slots a) i b := by
  by_cases same : b = a
  · subst same
    by_cases here : (find slots b).1 = i
    · rw [← here]
      exact kept_reserve_self slots b
    · rw [Kept, Slots.reserve, getElem?_set_ne here]
      exact ((find_spec slots b).2 i b).mpr kept
  · rw [Kept, Slots.reserve, getElem?_set_ne (find_ne kept same)]
    exact ((find_spec slots a).2 i b).mpr kept

lemma kept_of_reserve (kept : Kept (reserve slots a) i b) : Kept slots i b ∨ b = a := by
  by_cases here : (find slots a).1 = i
  · have mine := kept_reserve_self slots a
    rw [here] at mine
    exact .inr (Option.some.inj (Option.some.inj (kept.symm.trans mine)))
  · rw [Kept, reserve, getElem?_set_ne here] at kept
    exact .inl (((find_spec slots a).2 i b).mp kept)

end Slots
