import Mathlib.Data.Finset.Card

/-!
# Forest orders

In a forest the elements above a given one form a chain. A parent is the lowest
element above, and the elements above a child are its parent and those above the
parent.
-/

universe u

/-- A relation that orders a finite set as a forest. -/
structure ForestOrder {ι : Type u} (Above : ι → ι → Prop) (part : Finset ι) : Prop where
  irrefl : ∀ a, ¬ Above a a
  trans : ∀ {a b c}, Above a b → Above b c → Above a c
  chain : ∀ {a b c}, a ∈ part → b ∈ part → Above a c → Above b c → a = b ∨ Above a b ∨ Above b a

namespace ForestOrder

open Finset

variable {ι : Type u} {Above : ι → ι → Prop} {part : Finset ι} {a b c d p q : ι}

/-- `p` is above `c`, and everything else above `c` is above `p`. -/
structure IsParent (Above : ι → ι → Prop) (part : Finset ι) (p c : ι) : Prop where
  mem : p ∈ part
  above : Above p c
  lowest : ∀ a ∈ part, Above a c → a = p ∨ Above a p

/-- The elements of the part above one. -/
def ancestors (Above : ι → ι → Prop) [DecidableRel Above] (part : Finset ι) (c : ι) : Finset ι :=
  part.filter (Above · c)

section
variable (forest : ForestOrder Above part)
include forest

lemma asymm (h : Above a b) : ¬ Above b a :=
  fun back => forest.irrefl a (forest.trans h back)

lemma IsParent.unique (hp : IsParent Above part p c) (hq : IsParent Above part q c) : p = q := by
  rcases hp.lowest q hq.mem hq.above with same | below
  · exact same.symm
  · rcases hq.lowest p hp.mem hp.above with same | above
    · exact same
    · exact absurd above (forest.asymm below)

lemma IsParent.not_above_sibling (hc : IsParent Above part p c)
    (hd : IsParent Above part p d) (member : c ∈ part) : ¬ Above c d := by
  intro above
  rcases hd.lowest c member above with rfl | higher
  · exact forest.irrefl _ hc.above
  · exact forest.asymm hc.above higher

end

variable [DecidableRel Above]

/-- The elements above a child are its parent and those above the parent. -/
lemma IsParent.card_ancestors [DecidableEq ι] (forest : ForestOrder Above part)
    (h : IsParent Above part p c) :
    (ancestors Above part c).card = (ancestors Above part p).card + 1 := by
  have split : ancestors Above part c = insert p (ancestors Above part p) := by
    ext a
    simp only [ancestors, mem_filter, mem_insert]
    constructor
    · rintro ⟨member, above⟩
      rcases h.lowest a member above with same | higher
      · exact .inl same
      · exact .inr ⟨member, higher⟩
    · rintro (rfl | ⟨member, higher⟩)
      · exact ⟨h.mem, h.above⟩
      · exact ⟨member, forest.trans higher h.above⟩
  have fresh : p ∉ ancestors Above part p := fun member => forest.irrefl p (mem_filter.mp member).2
  rw [split, card_insert_of_notMem fresh]

/-- With a rank that grows downwards, an element has at most as many others above
it as its rank says. -/
lemma card_ancestors_le (forest : ForestOrder Above part) (rank : ι → Nat)
    (grows : ∀ {a b}, Above a b → rank a < rank b) (c : ι) :
    (ancestors Above part c).card ≤ rank c := by
  have ranks : ∀ a ∈ ancestors Above part c, rank a ∈ range (rank c) := by
    intro a member
    exact mem_range.mpr (grows (mem_filter.mp member).2)
  have distinct : Set.InjOn rank (ancestors Above part c) := by
    intro a ha b hb same
    obtain ⟨mem_a, above_a⟩ := mem_filter.mp (mem_coe.mp ha)
    obtain ⟨mem_b, above_b⟩ := mem_filter.mp (mem_coe.mp hb)
    rcases forest.chain mem_a mem_b above_a above_b with equal | above | above
    · exact equal
    · exact absurd same (Nat.ne_of_lt (grows above))
    · exact absurd same.symm (Nat.ne_of_lt (grows above))
  exact (card_le_card_of_injOn rank ranks distinct).trans_eq (card_range (rank c))

end ForestOrder
