import Mathlib.Tactic.Common

/-!
# Steps that change a state and may stop

A computation changes a state and returns a value, or stops with an error; what it has
changed before it stops stays changed. An invariant of the state is kept by a computation
when all its steps keep it.
-/

namespace Effects

variable {σ ε α β : Type}

abbrev Action (σ ε α : Type) := ExceptT ε (StateM σ) α

/-- The result, and the state that is left. -/
def after (x : Action σ ε α) (s : σ) : Except ε α × σ :=
  x.run.run s

/-- The invariant is kept, also when the computation stops, and what is returned has the
property. -/
def Keeps (I : σ → Prop) (x : Action σ ε α) (R : α → Prop) : Prop :=
  ∀ s, I s → I (after x s).2 ∧ ∀ a, (after x s).1 = .ok a → R a

/-- One step, which is not interrupted. -/
def step (f : σ → Except ε α × σ) : Action σ ε α :=
  ExceptT.mk f

variable {I : σ → Prop} {R : α → Prop} {Q : β → Prop}

lemma keeps_pure {a : α} (h : R a) : Keeps I (pure a : Action σ ε α) R := by
  intro s start
  refine ⟨start, ?_⟩
  rintro b ⟨⟩
  exact h

lemma keeps_throw (e : ε) : Keeps I (throw e : Action σ ε α) R :=
  fun _ start => ⟨start, fun _ h => nomatch h⟩

lemma after_step (f : σ → Except ε α × σ) (s : σ) : after (step f) s = f s :=
  rfl

lemma after_pure (a : α) (s : σ) : after (pure a : Action σ ε α) s = (.ok a, s) :=
  rfl

lemma after_throw (e : ε) (s : σ) : after (throw e : Action σ ε α) s = (.error e, s) :=
  rfl

lemma after_bind (x : Action σ ε α) (f : α → Action σ ε β) (s : σ) :
    after (x >>= f) s =
      match after x s with
      | (.ok a, s') => after (f a) s'
      | (.error e, s') => (.error e, s') := by
  unfold after
  rw [ExceptT.run_bind, StateT.run_bind]
  rcases StateT.run x.run s with ⟨_ | _, _⟩ <;> rfl

lemma after_bind_ok {x : Action σ ε α} {s s' : σ} {a : α} (returns : after x s = (.ok a, s'))
    (f : α → Action σ ε β) : after (x >>= f) s = after (f a) s' := by
  rw [after_bind, returns]

lemma keeps_bind {x : Action σ ε α} {f : α → Action σ ε β} (first : Keeps I x R)
    (rest : ∀ a, R a → Keeps I (f a) Q) : Keeps I (x >>= f) Q := by
  intro s start
  obtain ⟨kept, returns⟩ := first s start
  rw [after_bind]
  rcases run : after x s with ⟨_ | a, s'⟩
  · rw [run] at kept
    exact ⟨kept, fun _ h => nomatch h⟩
  · rw [run] at kept returns
    exact rest a (returns a rfl) s' kept

lemma keeps_step {f : σ → Except ε α × σ}
    (h : ∀ s, I s → I (f s).2 ∧ ∀ a, (f s).1 = .ok a → R a) : Keeps I (step f) R :=
  h

lemma keeps_forM {xs : List α} {f : α → Action σ ε PUnit}
    (each : ∀ x ∈ xs, Keeps I (f x) (fun _ => True)) : Keeps I (forM xs f : Action σ ε PUnit) (fun _ => True) := by
  induction xs with
  | nil => exact keeps_pure trivial
  | cons x xs ih =>
    obtain ⟨first, rest⟩ := List.forall_mem_cons.mp each
    rw [List.forM_cons]
    exact keeps_bind first (fun _ _ => ih rest)

/-- Started in `P`, the computation returns in `Q` or stops in `E`. -/
def Triple (P : σ → Prop) (x : Action σ ε α) (Q : α → σ → Prop) (E : ε → σ → Prop) : Prop :=
  ∀ s, P s → (∀ a s', after x s = (.ok a, s') → Q a s') ∧
    ∀ e s', after x s = (.error e, s') → E e s'

section Triples
variable {P : σ → Prop} {E : ε → σ → Prop}

lemma triple_pure {Q : α → σ → Prop} {a : α} (h : ∀ s, P s → Q a s) :
    Triple P (pure a : Action σ ε α) Q E := by
  intro s start
  constructor
  · rintro b s' ⟨⟩
    exact h s start
  · rintro e s' ⟨⟩

lemma triple_throw {Q : α → σ → Prop} {e : ε} (h : ∀ s, P s → E e s) :
    Triple P (throw e : Action σ ε α) Q E := by
  intro s start
  constructor
  · rintro b s' ⟨⟩
  · rintro e' s' ⟨⟩
    exact h s start

lemma triple_step {Q : α → σ → Prop} {f : σ → Except ε α × σ}
    (returns : ∀ s a s', P s → f s = (.ok a, s') → Q a s')
    (stops : ∀ s e s', P s → f s = (.error e, s') → E e s') : Triple P (step f) Q E :=
  fun s start => ⟨fun a s' h => returns s a s' start h, fun e s' h => stops s e s' start h⟩

variable {x : Action σ ε α}

lemma triple_bind {M : α → σ → Prop} {Q : β → σ → Prop} {f : α → Action σ ε β}
    (first : Triple P x M E) (rest : ∀ a, Triple (M a) (f a) Q E) : Triple P (x >>= f) Q E := by
  intro s start
  obtain ⟨returns, stops⟩ := first s start
  rw [after_bind]
  rcases run : after x s with ⟨e | a, s'⟩
  · refine ⟨fun _ _ h => (nomatch h), ?_⟩
    rintro e' s₁ ⟨⟩
    exact stops e s' run
  · exact rest a s' (returns a s' run)

lemma triple_forM {xs : List α} {f : α → Action σ ε PUnit}
    (each : ∀ x ∈ xs, Triple P (f x) (fun _ => P) E) :
    Triple P (forM xs f : Action σ ε PUnit) (fun _ => P) E := by
  induction xs with
  | nil => exact triple_pure fun _ start => start
  | cons x xs ih =>
    obtain ⟨first, rest⟩ := List.forall_mem_cons.mp each
    rw [List.forM_cons]
    exact triple_bind first fun _ => ih rest

/-- What a handler starts from is what the computation stops in. -/
lemma triple_tryCatch {M : ε → σ → Prop} {Q : α → σ → Prop} {handle : ε → Action σ ε α}
    (first : Triple P x Q M) (rest : ∀ e, Triple (M e) (handle e) Q E) :
    Triple P (tryCatch x handle) Q E := by
  intro s start
  obtain ⟨returns, stops⟩ := first s start
  have split : after (tryCatch x handle) s =
      match after x s with
      | (.ok a, s') => (.ok a, s')
      | (.error e, s') => after (handle e) s' := by
    unfold after
    rw [ExceptT.run_tryCatch, StateT.run_bind]
    rcases x.run.run s with ⟨_ | _, _⟩ <;> rfl
  rw [split]
  rcases run : after x s with ⟨e | a, s'⟩
  · exact rest e s' (stops e s' run)
  · refine ⟨?_, fun _ _ h => nomatch h⟩
    rintro b s₁ ⟨⟩
    exact returns a s' run

lemma triple_weaken {P' : σ → Prop} {Q Q' : α → σ → Prop} {E' : ε → σ → Prop} (h : Triple P x Q E)
    (before : ∀ s, P' s → P s) (returns : ∀ a s, Q a s → Q' a s) (stops : ∀ e s, E e s → E' e s) :
    Triple P' x Q' E' :=
  fun s start => ⟨fun a s' run => returns a s' ((h s (before s start)).1 a s' run),
    fun e s' run => stops e s' ((h s (before s start)).2 e s' run)⟩

lemma triple_of_and {Q : α → σ → Prop} {φ : Prop} (h : φ → Triple P x Q E) :
    Triple (fun s => P s ∧ φ) x Q E :=
  fun s start => h start.2 s start.1

end Triples

/-- A step that only looks at the state stops there, or goes on with what it has found. -/
lemma iff_of_look {g : σ → Except ε α} {f : α → Action σ ε β} {s : σ}
    {Outcome : Except ε β × σ → Prop} {C : Prop}
    (stops : ∀ e, g s = .error e → Outcome (.error e, s) ∧ C)
    (goes_on : ∀ a, g s = .ok a → (Outcome (after (f a) s) ↔ C)) :
    Outcome (after (step (fun s => (g s, s)) >>= f) s) ↔ C := by
  rw [after_bind, after_step]
  cases found : g s with
  | error e =>
    obtain ⟨left, right⟩ := stops e found
    exact iff_of_true left right
  | ok a => exact goes_on a found

end Effects
