import Mathlib.Data.List.Basic

/-!
# Checked list operations and the computations that return

A growable array is a list, and every operation that can abort the program at
a bad index is an `Option` whose `none` is the abort. `Ensures` is the total
correctness judgement over such computations: the computation returns, and the
returned value satisfies the postcondition.
-/

namespace Checked

open List

universe u
variable {α β : Type u}

/-- The computation returns a value satisfying `Q`; an abort satisfies nothing. -/
def Ensures (m : Option α) (Q : α → Prop) : Prop :=
  ∃ a, m = some a ∧ Q a

variable {Q : α → Prop} {m : Option α} {l : List α} {i : Nat}

variable {a : α} {P : α → Prop}

lemma ensures_some (h : Q a) : Ensures (some a) Q :=
  ⟨a, rfl, h⟩

lemma Ensures.mono (h : Ensures m P) (weaker : ∀ a, P a → Q a) : Ensures m Q := by
  obtain ⟨a, hm, hp⟩ := h
  exact ⟨a, hm, weaker a hp⟩

/-- Sequencing: the continuation only has to return on the values the first
computation can produce. -/
lemma Ensures.bind {f : α → Option β} {Q : β → Prop} (h : Ensures m P)
    (next : ∀ a, P a → Ensures (f a) Q) : Ensures (m >>= f) Q := by
  obtain ⟨a, rfl, hp⟩ := h
  exact next a hp

lemma Ensures.of_eq_some (h : Ensures m Q) (ha : m = some a) : Q a := by
  obtain ⟨b, hb, hq⟩ := h
  exact Option.some.inj (hb.symm.trans ha) ▸ hq

/-- The loop rule. A body that returns and keeps `Inv` on every element of a
list can be repeated over the whole list. -/
lemma ensures_foldlM {Inv : α → Prop} {f : α → β → Option α} (bs : List β)
    (body : ∀ a, ∀ b ∈ bs, Inv a → Ensures (f a b) Inv) (h : Inv a) :
    Ensures (bs.foldlM f a) Inv := by
  induction bs generalizing a with
  | nil => exact ensures_some h
  | cons b bs ih =>
    rw [foldlM_cons]
    refine (body a b mem_cons_self h).bind (fun a' ha => ?_)
    exact ih (fun a c hc => body a c (mem_cons_of_mem b hc)) ha

/-- Unsigned subtraction that aborts instead of wrapping below zero. -/
def sub (a b : Nat) : Option Nat :=
  if b ≤ a then some (a - b) else none

def get (l : List α) (i : Nat) : Option α :=
  l[i]?

def set (l : List α) (i : Nat) (x : α) : Option (List α) :=
  if i < l.length then some (l.set i x) else none

/-- Remove the element at `i` and return it with the rest. -/
def remove (l : List α) (i : Nat) : Option (α × List α) :=
  l[i]?.map (fun x => (x, l.eraseIdx i))

/-- Insert before position `i`, which may be the end. -/
def insert (l : List α) (i : Nat) (x : α) : Option (List α) :=
  if i ≤ l.length then some (l.insertIdx i x) else none

/-- Delete the half-open range from `i` to `j`. -/
def drain (l : List α) (i j : Nat) : Option (List α) :=
  if i ≤ j ∧ j ≤ l.length then some (l.take i ++ l.drop j) else none

/-- Cut or pad to exactly `n` elements. -/
def resize (l : List α) (n : Nat) (x : α) : List α :=
  l.take n ++ List.replicate (n - l.length) x

@[simp] lemma length_resize (l : List α) (n : Nat) (x : α) : (resize l n x).length = n := by
  simp only [resize, length_append, length_take, length_replicate]
  omega

lemma resize_length (l : List α) (x : α) : resize l l.length x = l := by
  simp [resize]

lemma sub_of_le {a b : Nat} (h : b ≤ a) : sub a b = some (a - b) :=
  if_pos h

lemma get_of_lt (h : i < l.length) : get l i = some l[i] :=
  getElem?_eq_getElem h

lemma set_of_lt (h : i < l.length) (x : α) : set l i x = some (l.set i x) :=
  if_pos h

lemma insert_of_le (h : i ≤ l.length) (x : α) : insert l i x = some (l.insertIdx i x) :=
  if_pos h

lemma remove_of_lt (h : i < l.length) : remove l i = some (l[i], l.eraseIdx i) := by
  simp [remove, getElem?_eq_getElem h]

lemma remove_zero_cons (x : α) (l : List α) : remove (x :: l) 0 = some (x, l) :=
  rfl

lemma drain_of_le {j : Nat} (hij : i ≤ j) (hj : j ≤ l.length) :
    drain l i j = some (l.take i ++ l.drop j) :=
  if_pos ⟨hij, hj⟩

end Checked
