import Mathlib.Tactic.Common

/-!
# Computations that may be rejected

What it means for a chain of checks, a loop of checks and a fold to succeed.
-/

namespace Fallible

open List Option

universe u v
variable {ε α β : Type}

/-- Fail when the condition holds. -/
def reject (c : Prop) [Decidable c] (e : ε) : Except ε Unit :=
  if c then .error e else .ok ()

/-- The value, or the failure when there is none. -/
def require (x : Option α) (e : ε) : Except ε α :=
  x.elim (.error e) .ok

lemma require_eq_ok {x : Option α} {e : ε} {a : α} : require x e = .ok a ↔ x = some a := by
  cases x <;> simp [require]

lemma bind_eq_ok {x : Except ε α} {f : α → Except ε β} {b : β} :
    (x >>= f) = .ok b ↔ ∃ a, x = .ok a ∧ f a = .ok b := by
  cases x with
  | error e =>
    constructor
    · intro h
      cases h
    · rintro ⟨a, h, _⟩
      cases h
  | ok a =>
    constructor
    · intro h
      exact ⟨a, rfl, h⟩
    · rintro ⟨a', h, done⟩
      cases h
      exact done

/-- Only the values that occur matter to what is done next. -/
lemma bind_congr_ok {x : Except ε α} {f g : α → Except ε β}
    (h : ∀ a, x = .ok a → f a = g a) : (x >>= f) = (x >>= g) := by
  cases x with
  | error e => rfl
  | ok a => exact h a rfl

lemma reject_eq_ok {c : Prop} [Decidable c] {e : ε} : reject c e = .ok () ↔ ¬ c := by
  by_cases h : c <;> simp [reject, h]

lemma reject_bind_ok {c : Prop} [Decidable c] {e : ε} {f : Unit → Except ε β} {b : β} :
    (reject c e >>= f) = .ok b ↔ ¬ c ∧ f () = .ok b := by
  by_cases h : c
  · simp [reject, h, bind, Except.bind]
  · simp [reject, h, bind, Except.bind]

lemma forM_eq_ok {xs : List α} {f : α → Except ε PUnit} :
    forM xs f = .ok () ↔ ∀ x ∈ xs, f x = .ok () := by
  induction xs with
  | nil => simp [pure, Except.pure]
  | cons x xs ih =>
    rw [forM_cons, bind_eq_ok, forall_mem_cons, ← ih]
    constructor
    · rintro ⟨⟨⟩, first, rest⟩
      exact ⟨first, rest⟩
    · rintro ⟨first, rest⟩
      exact ⟨⟨⟩, first, rest⟩

/-- A loop has the list of its results when every round has one. -/
lemma mapM_returns {α : Type u} {β : Type v} {f : α → Option β} {P : α → β → Prop} {xs : List α} :
    (∃ ys, xs.mapM f = some ys ∧ Forall₂ P xs ys) ↔ ∀ x ∈ xs, ∃ y, f x = some y ∧ P x y := by
  induction xs with
  | nil =>
    constructor
    · rintro _ x ⟨⟩
    · intro _
      exact ⟨[], rfl, .nil⟩
  | cons x xs ih =>
    rw [forall_mem_cons, ← ih]
    constructor
    · rintro ⟨ys, all, held⟩
      rw [mapM_cons] at all
      obtain ⟨y, first, all⟩ := bind_eq_some_iff.mp all
      obtain ⟨ys, rest, all⟩ := bind_eq_some_iff.mp all
      cases all
      cases held with
      | cons here there => exact ⟨⟨_, first, here⟩, _, rest, there⟩
    · rintro ⟨⟨y, first, here⟩, ys, rest, there⟩
      refine ⟨y :: ys, ?_, .cons here there⟩
      rw [mapM_cons, first, rest]
      rfl

lemma exists_mapM {α : Type u} {β : Type v} {f : α → Option β} {xs : List α} :
    (∃ ys, xs.mapM f = some ys) ↔ ∀ x ∈ xs, ∃ y, f x = some y := by
  constructor
  · rintro ⟨ys, all⟩
    induction xs generalizing ys with
    | nil => rintro x ⟨⟩
    | cons x xs ih =>
      rw [mapM_cons] at all
      obtain ⟨y, first, all⟩ := bind_eq_some_iff.mp all
      obtain ⟨ys, rest, all⟩ := bind_eq_some_iff.mp all
      exact forall_mem_cons.mpr ⟨⟨y, first⟩, ih ys rest⟩
  · intro each
    have all : ∀ x ∈ xs, ∃ y, f x = some y ∧ True := by
      intro x member
      obtain ⟨y, found⟩ := each x member
      exact ⟨y, found, trivial⟩
    obtain ⟨ys, done, _⟩ := mapM_returns.mpr all
    exact ⟨ys, done⟩

lemma exists_foldlM {α : Type u} {β : Type v} {f : β → α → Option β} {xs : List α} (b : β)
    (each : ∀ x ∈ xs, ∀ b, ∃ b', f b x = some b') : ∃ b', xs.foldlM f b = some b' := by
  induction xs generalizing b with
  | nil => exact ⟨b, rfl⟩
  | cons x xs ih =>
    obtain ⟨b₁, first⟩ := each x mem_cons_self b
    obtain ⟨b', rest⟩ := ih b₁ (fun y member => each y (mem_cons_of_mem x member))
    refine ⟨b', ?_⟩
    rw [foldlM_cons, first]
    exact rest

def ErrorsSatisfy (P : ε → Prop) (x : Except ε α) : Prop :=
  ∀ e, x = .error e → P e

section Errors
variable {P : ε → Prop}

lemma errorsSatisfy_ok (a : α) : ErrorsSatisfy P (.ok a : Except ε α) := by
  intro e h
  cases h

lemma errorsSatisfy_error {e : ε} (h : P e) : ErrorsSatisfy P (.error e : Except ε α) := by
  rintro e' ⟨⟩
  exact h

lemma errorsSatisfy_reject {c : Prop} [Decidable c] {e : ε} (h : P e) :
    ErrorsSatisfy P (reject c e) := by
  by_cases failed : c
  · rw [reject, if_pos failed]
    exact errorsSatisfy_error h
  · rw [reject, if_neg failed]
    exact errorsSatisfy_ok ()

lemma errorsSatisfy_require {x : Option α} {e : ε} (h : P e) : ErrorsSatisfy P (require x e) := by
  cases x with
  | none => exact errorsSatisfy_error h
  | some a => exact errorsSatisfy_ok a

lemma errorsSatisfy_bind {x : Except ε α} {f : α → Except ε β} (first : ErrorsSatisfy P x)
    (rest : ∀ a, ErrorsSatisfy P (f a)) : ErrorsSatisfy P (x >>= f) := by
  intro e h
  cases x with
  | error e' =>
    cases h
    exact first e rfl
  | ok a => exact rest a e h

lemma errorsSatisfy_foldlM {f : β → α → Except ε β} {xs : List α} {b : β}
    (each : ∀ b x, x ∈ xs → ErrorsSatisfy P (f b x)) : ErrorsSatisfy P (xs.foldlM f b) := by
  induction xs generalizing b with
  | nil => exact errorsSatisfy_ok b
  | cons x xs ih =>
    rw [foldlM_cons]
    refine errorsSatisfy_bind (each b x mem_cons_self) (fun b' => ?_)
    exact ih (fun b y member => each b y (mem_cons_of_mem x member))

lemma errorsSatisfy_forM {f : α → Except ε PUnit} {xs : List α}
    (each : ∀ x ∈ xs, ErrorsSatisfy P (f x)) : ErrorsSatisfy P (xs.forM f) := by
  induction xs with
  | nil => exact errorsSatisfy_ok ()
  | cons x xs ih =>
    refine errorsSatisfy_bind (each x mem_cons_self) (fun _ => ?_)
    exact ih (fun y member => each y (mem_cons_of_mem x member))

end Errors

/-- A failure comes from the first part or from the rest. -/
lemma error_of_bind {x : Except ε α} {f : α → Except ε β} {e : ε} (h : (x >>= f) = .error e) :
    x = .error e ∨ ∃ a, x = .ok a ∧ f a = .error e := by
  cases x with
  | error e' =>
    cases h
    exact .inl rfl
  | ok a => exact .inr ⟨a, rfl, h⟩

/-- What every round of a fold preserves holds at its end. -/
lemma foldlM_invariant {P : β → Prop} {f : β → α → Except ε β} {xs : List α} {b b' : β}
    (keeps : ∀ b x b', x ∈ xs → f b x = .ok b' → P b → P b') (done : xs.foldlM f b = .ok b')
    (h : P b) : P b' := by
  induction xs generalizing b with
  | nil =>
    cases done
    exact h
  | cons x xs ih =>
    rw [foldlM_cons] at done
    obtain ⟨b₁, first, rest⟩ := bind_eq_ok.mp done
    exact ih (fun b y b' hy => keeps b y b' (mem_cons_of_mem x hy)) rest
      (keeps b x b₁ mem_cons_self first h)

/-- A loop that creates something for each item runs to its end when every round succeeds
on a key that is not there yet. -/
lemma foldlM_creates {κ : Type} {f : β → α → Except ε β} (Inv : β → Prop) (keys : β → List κ)
    {key : α → κ} {xs : List α} {b : β}
    (round : ∀ b, ∀ x ∈ xs, Inv b → key x ∉ keys b →
      ∃ b', f b x = .ok b' ∧ Inv b' ∧ keys b' = keys b ++ [key x])
    (start : Inv b) (nodup : (keys b ++ xs.map key).Nodup) :
    ∃ b', xs.foldlM f b = .ok b' ∧ Inv b' ∧ keys b' = keys b ++ xs.map key := by
  induction xs generalizing b with
  | nil => exact ⟨b, rfl, start, by simp⟩
  | cons x xs ih =>
    have new : key x ∉ keys b := by
      intro old
      exact (nodup_append.mp nodup).2.2 _ old _ mem_cons_self rfl
    obtain ⟨b₁, first, kept, grown⟩ := round b x mem_cons_self start new
    have order : keys b₁ ++ xs.map key = keys b ++ (x :: xs).map key := by
      rw [grown, append_assoc]
      rfl
    obtain ⟨b', rest, done, all⟩ := ih (fun b y member => round b y (mem_cons_of_mem x member))
      kept (order ▸ nodup)
    refine ⟨b', ?_, done, all.trans order⟩
    rw [foldlM_cons]
    exact bind_eq_ok.mpr ⟨b₁, first, rest⟩

end Fallible
