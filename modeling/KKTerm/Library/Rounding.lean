import Mathlib.Data.Rat.Cast.Order

/-!
# Rounded arithmetic

What can be said of the result of an operation on binary floating-point numbers: it is the
exact result, rounded. Rounding keeps the order and leaves the short dyadic fractions alone.
Overflow and underflow are left out.
-/

structure Rounding where
  round : ℚ → ℚ
  mono : Monotone round
  exact : ∀ (n : ℤ) (e : ℕ), n.natAbs ≤ 2 ^ 53 → e ≤ 1022 → round (n / 2 ^ e) = n / 2 ^ e

namespace Rounding

def none : Rounding where
  round := id
  mono := monotone_id
  exact _ _ _ _ := rfl

variable (r : Rounding)

lemma round_int {n : ℤ} (small : n.natAbs ≤ 2 ^ 53) : r.round n = n := by
  have exact := r.exact n 0 small (by omega)
  simpa using exact

@[simp] lemma round_zero : r.round 0 = 0 := by
  have exact := r.round_int (n := 0) (by simp)
  simpa using exact

lemma round_nonneg {x : ℚ} (h : 0 ≤ x) : 0 ≤ r.round x := by
  have le := r.mono h
  rwa [round_zero] at le

lemma round_nonpos {x : ℚ} (h : x ≤ 0) : r.round x ≤ 0 := by
  have le := r.mono h
  rwa [round_zero] at le

end Rounding
