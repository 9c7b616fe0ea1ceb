import Mathlib.Dynamics.PeriodicPts.Defs

/-!
# Quarter turns

A map that is the identity when done four times over gives an action of the quarter turns.
A family of maps that grows by one such turn at a time is this action, and what goes with
one turn goes with all.
-/

namespace QuarterTurn

universe u v
variable {α : Type u} {β : Type v} {turn : α → α} {turn' : β → β}

def turned (turn : α → α) (a : Fin 4) : α → α :=
  turn^[a.val]

lemma turned_add (four : ∀ x, turn (turn (turn (turn x))) = x) (a b : Fin 4) (x : α) :
    turned turn (a + b) x = turned turn b (turned turn a x) := by
  have periodic : Function.IsPeriodicPt turn 4 x := four x
  rw [turned, turned, turned, ← Function.iterate_add_apply, Fin.val_add,
    periodic.iterate_mod_apply, Nat.add_comm]

lemma turned_commutes {f : α → β} (commutes : ∀ x, f (turn x) = turn' (f x)) (a : Fin 4)
    (x : α) : f (turned turn a x) = turned turn' a (f x) := by
  have semiconj : Function.Semiconj f turn turn' := commutes
  exact semiconj.iterate_right a.val x

/-- A family that starts with the identity and grows by one turn at a time. -/
structure Family (turn : α → α) (family : Fin 4 → α → α) : Prop where
  zero : ∀ x, family 0 x = x
  one : ∀ x, family 1 x = turn (family 0 x)
  two : ∀ x, family 2 x = turn (family 1 x)
  three : ∀ x, family 3 x = turn (family 2 x)

variable {family : Fin 4 → α → α}

lemma Family.eq_turned (h : Family turn family) (a : Fin 4) (x : α) :
    family a x = turned turn a x := by
  match a with
  | 0 => exact h.zero x
  | 1 => rw [h.one, h.zero]; rfl
  | 2 => rw [h.two, h.one, h.zero]; rfl
  | 3 => rw [h.three, h.two, h.one, h.zero]; rfl

lemma Family.add (h : Family turn family) (four : ∀ x, turn (turn (turn (turn x))) = x)
    (a b : Fin 4) (x : α) : family (a + b) x = family b (family a x) := by
  rw [h.eq_turned, h.eq_turned, h.eq_turned, turned_add four]

lemma family_add_one : Family (fun c : Fin 4 => c + 1) (fun a c => c + a) where
  zero c := by omega
  one c := by omega
  two c := by omega
  three c := by omega

end QuarterTurn
