import Mathlib.Data.List.Basic

/-!
# Comparing lists of which one may be shorter

Items are compared in turn, and an item that is missing counts as a given one. The order
of the items becomes an order of the lists.
-/

namespace PaddedOrder

open Std List

universe u
variable {κ : Type u} {cmp : κ → κ → Ordering} {bot : κ}

def compareMissing (cmp : κ → κ → Ordering) (bot : κ) : List κ → Ordering
  | [] => .eq
  | y :: ys => (cmp bot y).then (compareMissing cmp bot ys)

def compareLists (cmp : κ → κ → Ordering) (bot : κ) : List κ → List κ → Ordering
  | [], ys => compareMissing cmp bot ys
  | x :: xs, ys => (cmp x (ys.headD bot)).then (compareLists cmp bot xs ys.tail)

def pad (bot : κ) (n : Nat) (xs : List κ) : List κ :=
  xs ++ List.replicate (n - xs.length) bot

lemma pad_succ_nil (n : Nat) : pad bot (n + 1) [] = bot :: pad bot n [] :=
  rfl

lemma pad_succ_cons (n : Nat) (x : κ) (xs : List κ) :
    pad bot (n + 1) (x :: xs) = x :: pad bot n xs := by
  rw [pad, length_cons, Nat.add_sub_add_right]
  rfl

lemma compareLists_eq_pad [ReflCmp cmp] {n : Nat} {xs ys : List κ} (first : xs.length ≤ n)
    (second : ys.length ≤ n) :
    compareLists cmp bot xs ys = List.compareLex cmp (pad bot n xs) (pad bot n ys) := by
  induction n generalizing xs ys with
  | zero =>
    cases length_eq_zero_iff.mp (Nat.le_zero.mp first)
    cases length_eq_zero_iff.mp (Nat.le_zero.mp second)
    rfl
  | succ n ih =>
    cases xs with
    | nil =>
      cases ys with
      | nil =>
        have own : List.compareLex cmp (pad bot (n + 1) []) (pad bot (n + 1) []) = .eq :=
          ReflCmp.compare_self
        exact own.symm
      | cons y ys =>
        have rest : compareLists cmp bot [] ys = _ :=
          ih (Nat.zero_le n) (Nat.le_of_succ_le_succ second)
        rw [pad_succ_nil, pad_succ_cons, List.compareLex_cons_cons, ← rest]
        rfl
    | cons x xs =>
      cases ys with
      | nil =>
        have rest : compareLists cmp bot xs [] = _ :=
          ih (Nat.le_of_succ_le_succ first) (Nat.zero_le n)
        rw [pad_succ_nil, pad_succ_cons, List.compareLex_cons_cons, ← rest]
        rfl
      | cons y ys =>
        rw [pad_succ_cons, pad_succ_cons, List.compareLex_cons_cons,
          ← ih (Nat.le_of_succ_le_succ first) (Nat.le_of_succ_le_succ second)]
        rfl

lemma compareLists_cons (x y : κ) (xs ys : List κ) :
    compareLists cmp bot (x :: xs) (y :: ys) = (cmp x y).then (compareLists cmp bot xs ys) :=
  rfl

lemma compareLists_swap [OrientedCmp cmp] (xs ys : List κ) :
    compareLists cmp bot ys xs = (compareLists cmp bot xs ys).swap := by
  have first : xs.length ≤ max xs.length ys.length := Nat.le_max_left _ _
  have second : ys.length ≤ max xs.length ys.length := Nat.le_max_right _ _
  rw [compareLists_eq_pad first second, compareLists_eq_pad second first]
  exact OrientedCmp.eq_swap

lemma compareLists_trans [TransCmp cmp] {xs ys zs : List κ}
    (first : (compareLists cmp bot xs ys).isLE) (second : (compareLists cmp bot ys zs).isLE) :
    (compareLists cmp bot xs zs).isLE := by
  let n := max xs.length (max ys.length zs.length)
  have x_le : xs.length ≤ n := Nat.le_max_left _ _
  have y_le : ys.length ≤ n := Nat.le_trans (Nat.le_max_left _ _) (Nat.le_max_right _ _)
  have z_le : zs.length ≤ n := Nat.le_trans (Nat.le_max_right _ _) (Nat.le_max_right _ _)
  rw [compareLists_eq_pad x_le y_le] at first
  rw [compareLists_eq_pad y_le z_le] at second
  rw [compareLists_eq_pad x_le z_le]
  exact TransCmp.isLE_trans first second

/-- A longer list is greater unless what it has more counts as missing. -/
lemma compareLists_nil (least : ∀ k, (cmp k bot).isGE) (xs : List κ) :
    ((∀ x ∈ xs, cmp x bot = .eq) ∧ compareLists cmp bot xs [] = .eq) ∨
      (¬ (∀ x ∈ xs, cmp x bot = .eq) ∧ compareLists cmp bot xs [] = .gt) := by
  induction xs with
  | nil => exact .inl ⟨fun x member => absurd member not_mem_nil, rfl⟩
  | cons x xs ih =>
    have step : compareLists cmp bot (x :: xs) [] = (cmp x bot).then (compareLists cmp bot xs []) :=
      rfl
    have above := least x
    rw [step]
    cases here : cmp x bot with
    | lt =>
      rw [here] at above
      cases above
    | gt =>
      refine Or.inr ⟨fun all => ?_, rfl⟩
      cases here.symm.trans (all x mem_cons_self)
    | eq =>
      simp only [forall_mem_cons, here, true_and]
      exact ih

section Greatest
variable {α : Type u}

def maxBy (cmp : α → α → Ordering) : List α → Option α
  | [] => none
  | x :: xs => some (xs.foldl (fun best y => if cmp best y = .gt then best else y) x)

lemma isLE_self {o : Ordering} (own : o = o.swap) : o.isLE := by
  cases o with
  | lt => rfl
  | eq => rfl
  | gt => cases own

/-- When the items are in order, none is greater than the one chosen. -/
lemma maxBy_greatest {cmp : α → α → Ordering} {xs : List α} {best : α}
    (swap : ∀ a ∈ xs, ∀ b ∈ xs, cmp b a = (cmp a b).swap)
    (trans : ∀ a ∈ xs, ∀ b ∈ xs, ∀ c ∈ xs, (cmp a b).isLE → (cmp b c).isLE → (cmp a c).isLE)
    (chosen : maxBy cmp xs = some best) : best ∈ xs ∧ ∀ a ∈ xs, (cmp a best).isLE := by
  cases xs with
  | nil => cases chosen
  | cons x xs =>
    -- after each round the best is the greatest of the items so far
    have loop : ∀ (rest done : List α) (best : α), (∀ a ∈ done ++ rest, a ∈ x :: xs) →
        best ∈ done → (∀ a ∈ done, (cmp a best).isLE) →
        ∀ last, rest.foldl (fun best y => if cmp best y = .gt then best else y) best = last →
          last ∈ done ++ rest ∧ ∀ a ∈ done ++ rest, (cmp a last).isLE := by
      intro rest
      induction rest with
      | nil =>
        rintro done best inside member greatest last rfl
        rw [append_nil]
        exact ⟨member, greatest⟩
      | cons y rest ih =>
        intro done best inside member greatest last ended
        have y_in := inside y (mem_append_right _ mem_cons_self)
        have best_in := inside best (mem_append_left _ member)
        have again : done ++ y :: rest = (done ++ [y]) ++ rest := by simp
        rw [again] at inside ⊢
        rw [foldl_cons] at ended
        split_ifs at ended with above
        · refine ih (done ++ [y]) best inside (mem_append_left _ member) ?_ last ended
          intro a from_
          rcases mem_append.mp from_ with old | new
          · exact greatest a old
          · rw [mem_singleton.mp new, swap best best_in y y_in, above]
            rfl
        · refine ih (done ++ [y]) y inside (mem_append_right _ (mem_singleton.mpr rfl)) ?_
            last ended
          have below : (cmp best y).isLE := by
            cases order : cmp best y <;> first | rfl | exact absurd order above
          intro a from_
          rcases mem_append.mp from_ with old | new
          · exact trans a (inside a (mem_append_left _ from_)) best best_in y y_in
              (greatest a old) below
          · rw [mem_singleton.mp new]
            exact isLE_self (swap y y_in y y_in)
    refine loop xs [x] x (fun a member => member) (mem_singleton.mpr rfl) ?_ best
      (Option.some.inj chosen)
    intro a member
    rw [mem_singleton.mp member]
    exact isLE_self (swap x mem_cons_self x mem_cons_self)

end Greatest

end PaddedOrder
