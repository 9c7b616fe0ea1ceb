import Mathlib.Tactic.Common

/-!
# Tables with constraints

Each row meets a check, and no two rows conflict, as under a primary key or a
unique index. An insertion that would break a constraint is ignored.
-/

structure Table {ρ : Type} (check : ρ → Prop) (conflict : ρ → ρ → Prop) where
  rows : List ρ
  checked : ∀ r ∈ rows, check r
  apart : rows.Pairwise (fun old new => ¬ conflict old new)

namespace Table

open List

variable {ρ : Type} {check : ρ → Prop} {conflict : ρ → ρ → Prop}

def empty : Table check conflict where
  rows := []
  checked := fun _ h => absurd h not_mem_nil
  apart := .nil

def Accepts (t : Table check conflict) (new : ρ) : Prop :=
  check new ∧ ∀ old ∈ t.rows, ¬ conflict old new

def push (t : Table check conflict) (new : ρ) (h : t.Accepts new) : Table check conflict where
  rows := t.rows ++ [new]
  checked := by
    intro r hr
    rcases mem_append.mp hr with before | last
    · exact t.checked r before
    · rw [mem_singleton.mp last]
      exact h.1
  apart := by
    refine pairwise_append.mpr ⟨t.apart, pairwise_singleton _ _, ?_⟩
    intro old before r last
    rw [mem_singleton.mp last]
    exact h.2 old before

variable [DecidablePred check] [DecidableRel conflict]

instance acceptsDecidable (t : Table check conflict) (new : ρ) : Decidable (t.Accepts new) :=
  inferInstanceAs (Decidable (check new ∧ ∀ old ∈ t.rows, ¬ conflict old new))

/-- The table with the new row, or nothing when no row was inserted. -/
def insertOrIgnore (t : Table check conflict) (new : ρ) : Option (Table check conflict) :=
  if h : t.Accepts new then some (t.push new h) else none

lemma insertOrIgnore_of_accepts {t : Table check conflict} {new : ρ} (h : t.Accepts new) :
    t.insertOrIgnore new = some (t.push new h) :=
  dif_pos h

end Table
