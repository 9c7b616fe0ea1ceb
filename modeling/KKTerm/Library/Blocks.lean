import Mathlib.Algebra.Order.BigOperators.Group.Finset
import Mathlib.Algebra.Order.Ring.Nat
import Mathlib.Order.Interval.Finset.Nat

/-!
# Aligned blocks

A block of `2 ^ level` consecutive numbers begins at a multiple of its size. Two
blocks are nested or disjoint, and disjoint blocks inside another one have at
most its size in total.
-/

structure Block where
  level : Nat
  base : Nat
  aligned : 2 ^ level ∣ base

namespace Block

open Finset

def size (b : Block) : Nat :=
  2 ^ b.level

def points (b : Block) : Finset Nat :=
  Finset.Ico b.base (b.base + b.size)

variable {a b : Block} {x y : Nat}

lemma size_pos (b : Block) : 0 < b.size :=
  Nat.two_pow_pos b.level

lemma card_points (b : Block) : b.points.card = b.size := by
  rw [points, Nat.card_Ico]
  omega

/-- A point belongs to the block that it is rounded down to. -/
lemma mem_points : x ∈ b.points ↔ x / b.size * b.size = b.base := by
  obtain ⟨k, base⟩ : b.size ∣ b.base := b.aligned
  have positive := b.size_pos
  rw [points, mem_Ico, base, ← Nat.mul_succ]
  constructor
  · rintro ⟨low, high⟩
    rw [Nat.div_eq_of_lt_le (Nat.mul_comm b.size k ▸ low) (Nat.mul_comm b.size (k + 1) ▸ high)]
    exact Nat.mul_comm k b.size
  · intro rounded
    rw [Nat.mul_comm] at rounded
    have quotient := Nat.eq_of_mul_eq_mul_left positive rounded
    have low := Nat.div_mul_le_self x b.size
    have high := Nat.lt_mul_div_succ x positive
    rw [quotient] at low high
    exact ⟨Nat.mul_comm k b.size ▸ low, high⟩

lemma base_mem (b : Block) : b.base ∈ b.points :=
  left_mem_Ico.mpr (Nat.lt_add_of_pos_right b.size_pos)

/-- Of two blocks that meet, the one of the smaller level lies in the other. -/
lemma subset_of_meet (level : a.level ≤ b.level) (ha : x ∈ a.points) (hb : x ∈ b.points) :
    a.points ⊆ b.points := by
  intro y hy
  obtain ⟨m, size⟩ : a.size ∣ b.size := Nat.pow_dvd_pow 2 level
  have same : y / a.size = x / a.size :=
    Nat.eq_of_mul_eq_mul_right a.size_pos ((mem_points.mp hy).trans (mem_points.mp ha).symm)
  have rounded : y / b.size = x / b.size := by
    rw [size, ← Nat.div_div_eq_div_mul, ← Nat.div_div_eq_div_mul, same]
  exact mem_points.mpr (rounded ▸ mem_points.mp hb)

lemma base_eq_of_meet (level : a.level = b.level) (ha : x ∈ a.points) (hb : x ∈ b.points) :
    a.base = b.base := by
  have size : a.size = b.size := congrArg (2 ^ ·) level
  rw [← mem_points.mp ha, ← mem_points.mp hb, size]

lemma level_le_of_subset (inside : a.points ⊆ b.points) : a.level ≤ b.level := by
  have smaller := card_le_card inside
  rw [card_points, card_points] at smaller
  exact (Nat.pow_le_pow_iff_right (by omega)).mp smaller

/-- The sizes of disjoint blocks add up to at most the size of a block around them. -/
lemma total_size_le {ι : Type*} {blocks : Finset ι} {block : ι → Block}
    (apart : ∀ i ∈ blocks, ∀ j ∈ blocks, i ≠ j → Disjoint (block i).points (block j).points)
    (inside : ∀ i ∈ blocks, (block i).points ⊆ b.points) : ∑ i ∈ blocks, (block i).size ≤ b.size := by
  have union : blocks.biUnion (fun i => (block i).points) ⊆ b.points := biUnion_subset.mpr inside
  have cards := card_le_card union
  rw [card_biUnion apart, card_points] at cards
  calc ∑ i ∈ blocks, (block i).size = ∑ i ∈ blocks, (block i).points.card :=
        sum_congr rfl (fun i _ => (card_points (block i)).symm)
    _ ≤ b.size := cards

end Block
