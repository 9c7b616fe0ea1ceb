import Mathlib.Data.List.Basic

/-!
# Runs of a partial step function

An action that is not possible in a state has no successor. A run is a list of
actions that are all possible in turn; invariants and first changes are carried
from steps to runs here once.
-/

namespace Runs

open List

universe u v
variable {σ : Type u} {α : Type v} {step : σ → α → Option σ}

def run (step : σ → α → Option σ) (s : σ) (actions : List α) : Option σ :=
  actions.foldlM step s

lemma run_nil (s : σ) : run step s [] = some s :=
  rfl

variable {s s' : σ} {P : σ → Prop} {actions : List α} {C : σ → α → Prop}

lemma run_cons_eq_some {a : α} {rest : List α} :
    run step s (a :: rest) = some s' ↔ ∃ s₁, step s a = some s₁ ∧ run step s₁ rest = some s' := by
  rw [run, foldlM_cons]
  exact Option.bind_eq_some_iff

lemma run_append_eq_some {front back : List α} :
    run step s (front ++ back) = some s' ↔
      ∃ s₁, run step s front = some s₁ ∧ run step s₁ back = some s' := by
  rw [run, foldlM_append]
  exact Option.bind_eq_some_iff

/-- What every step preserves holds at the end of every run. -/
lemma run_invariant (keeps : ∀ s a s', step s a = some s' → P s → P s')
    (ran : run step s actions = some s') (h : P s) : P s' := by
  induction actions generalizing s with
  | nil =>
    cases ran
    exact h
  | cons a rest ih =>
    obtain ⟨s₁, taken, ran⟩ := run_cons_eq_some.mp ran
    exact ih ran (keeps s a s₁ taken h)

/-- A run is no longer than a measure that every step of it decreases. -/
lemma run_length_le {m : σ → Nat}
    (decreases : ∀ a ∈ actions, ∀ s s', step s a = some s' → m s' < m s)
    (ran : run step s actions = some s') : actions.length + m s' ≤ m s := by
  induction actions generalizing s with
  | nil =>
    cases ran
    exact Nat.le_of_eq (Nat.zero_add _)
  | cons a rest ih =>
    obtain ⟨s₁, taken, ran⟩ := run_cons_eq_some.mp ran
    have first := decreases a mem_cons_self s s₁ taken
    have later := ih (fun b member => decreases b (mem_cons_of_mem a member)) ran
    rw [length_cons]
    omega

/-- A property that fails at the start and holds at the end begins to hold at
some step, and fails in every state before it. -/
lemma run_first_change (ran : run step s actions = some s') (start : ¬ P s) (finish : P s') :
    ∃ before a after s₁ s₂, actions = before ++ a :: after ∧
      run step s before = some s₁ ∧ step s₁ a = some s₂ ∧ run step s₂ after = some s' ∧
      ¬ P s₁ ∧ P s₂ ∧
      ∀ front back t, before = front ++ back → run step s front = some t → ¬ P t := by
  induction actions generalizing s with
  | nil =>
    cases ran
    exact absurd finish start
  | cons a rest ih =>
    obtain ⟨s₁, taken, ran⟩ := run_cons_eq_some.mp ran
    by_cases now : P s₁
    · refine ⟨[], a, rest, s, s₁, rfl, rfl, taken, ran, start, now, ?_⟩
      intro front back t cut reached
      obtain ⟨rfl, -⟩ := append_eq_nil_iff.mp cut.symm
      cases reached
      exact start
    · obtain ⟨before, b, after, t₁, t₂, rfl, ran₁, stepped, ran₂, off, on, earlier⟩ := ih ran now
      refine ⟨a :: before, b, after, t₁, t₂, rfl, run_cons_eq_some.mpr ⟨s₁, taken, ran₁⟩, stepped,
        ran₂, off, on, ?_⟩
      intro front back t cut reached
      cases front with
      | nil =>
        cases reached
        exact start
      | cons c front =>
        obtain ⟨rfl, tail⟩ := List.cons.inj cut
        obtain ⟨u, taken', reached⟩ := run_cons_eq_some.mp reached
        rw [taken] at taken'
        cases taken'
        exact earlier front back t tail reached

/-- Every action of a run meets a condition in the state in which it is taken. -/
def Along (step : σ → α → Option σ) (C : σ → α → Prop) (s : σ) : List α → Prop
  | [] => True
  | a :: rest => C s a ∧ ∀ s' ∈ step s a, Along step C s' rest

instance decidableAlong {C : σ → α → Prop} [∀ s a, Decidable (C s a)] :
    (s : σ) → (actions : List α) → Decidable (Along step C s actions)
  | _, [] => .isTrue trivial
  | s, a :: rest =>
    have : DecidablePred (fun s' => Along step C s' rest) := fun s' => decidableAlong s' rest
    inferInstanceAs (Decidable (C s a ∧ ∀ s' ∈ step s a, Along step C s' rest))

lemma along_append {front back : List α} :
    Along step C s (front ++ back) ↔
      Along step C s front ∧ ∀ s₁ ∈ run step s front, Along step C s₁ back := by
  induction front generalizing s with
  | nil => exact ⟨fun h => ⟨trivial, fun s₁ same => Option.some.inj same ▸ h⟩, fun h => h.2 s rfl⟩
  | cons a rest ih =>
    constructor
    · rintro ⟨first, later⟩
      refine ⟨⟨first, fun s₁ taken => (ih.mp (later s₁ taken)).1⟩, fun s₂ ran => ?_⟩
      obtain ⟨s₁, taken, ran⟩ := run_cons_eq_some.mp ran
      exact (ih.mp (later s₁ taken)).2 s₂ ran
    · rintro ⟨⟨first, later⟩, last⟩
      refine ⟨first, fun s₁ taken => ih.mpr ⟨later s₁ taken, fun s₂ ran => ?_⟩⟩
      exact last s₂ (run_cons_eq_some.mpr ⟨s₁, taken, ran⟩)

lemma along_of_forall (all : ∀ a ∈ actions, ∀ s, C s a) (s : σ) : Along step C s actions := by
  induction actions generalizing s with
  | nil => trivial
  | cons a rest ih =>
    obtain ⟨first, later⟩ := forall_mem_cons.mp all
    exact ⟨first s, fun s' _ => ih later s'⟩

/-- What every step that meets the condition preserves holds at the end of every
run whose steps all meet it. -/
lemma along_invariant (keeps : ∀ s a s', step s a = some s' → C s a → P s → P s')
    (along : Along step C s actions) (ran : run step s actions = some s') (h : P s) : P s' := by
  induction actions generalizing s with
  | nil =>
    cases ran
    exact h
  | cons a rest ih =>
    obtain ⟨s₁, taken, ran⟩ := run_cons_eq_some.mp ran
    exact ih (along.2 s₁ taken) ran (keeps s a s₁ taken along.1 h)

end Runs
