import KKTerm.Library.Effects
import KKTerm.Library.Fallible

/-!
# Processes that may be stopped

A process changes a state call by call. It may be stopped before any call, and what it has changed
by then stays changed. A computation is described by the number of calls that it takes, by its
result and by the state that it leaves when it is not stopped.
-/

namespace Mortal

open Effects

inductive Stop (ε : Type) where
  | stopped
  | failed (error : ε)
  deriving DecidableEq

/-- A process that is stopped lives to see so many calls. -/
structure Process (σ : Type) where
  state : σ
  lives : Option Nat

variable {σ ε α β : Type}

abbrev Task (σ ε α : Type) := Action (Process σ) (Stop ε) α

def call (change : σ → Except ε σ) : Task σ ε Unit :=
  step fun p =>
    if p.lives = some 0 then (.error .stopped, p)
    else
      match change p.state with
      | .ok state => (.ok (), ⟨state, p.lives.map Nat.pred⟩)
      | .error e => (.error (.failed e), ⟨p.state, p.lives.map Nat.pred⟩)

def look (find : σ → Except ε α) : Task σ ε α :=
  step fun p => ((find p.state).mapError .failed, p)

def fail (error : ε) : Task σ ε α :=
  throw (.failed error)

/-- Nothing handles that the process is stopped. -/
def onFailure (x : Task σ ε α) (handle : ε → Task σ ε α) : Task σ ε α :=
  tryCatch x fun stop =>
    match stop with
    | .stopped => throw .stopped
    | .failed error => handle error

/-- With so many calls the computation ends, with fewer it is stopped. -/
structure Takes (x : Task σ ε α) (s : σ) (cost : Nat) (result : Except ε α) (s' : σ) : Prop where
  ends : ∀ lives : Option Nat, after x ⟨s, lives.map (· + cost)⟩ =
    (result.mapError .failed, ⟨s', lives⟩)
  stopped : ∀ n < cost, (after x ⟨s, some n⟩).1 = .error .stopped

section Takes
variable {x : Task σ ε α} {f : α → Task σ ε β} {handle : ε → Task σ ε α} {change : σ → Except ε σ}
  {find : σ → Except ε α} {s s' s'' : σ} {cost cost' n : Nat} {a : α} {e : ε}
  {result : Except ε α} {result' : Except ε β}

variable (lives : Option Nat) {γ : Type} {changes : List γ} {perform : γ → σ → Except ε σ}

lemma map_add_zero : lives.map (· + 0) = lives := by
  cases lives <;> rfl

lemma takes_pure (a : α) (s : σ) : Takes (pure a : Task σ ε α) s 0 (.ok a) s where
  ends lives := by
    rw [map_add_zero]
    rfl
  stopped _ less := absurd less (Nat.not_lt_zero _)

lemma takes_fail (e : ε) (s : σ) : Takes (fail e : Task σ ε α) s 0 (.error e) s where
  ends lives := by
    rw [map_add_zero]
    rfl
  stopped _ less := absurd less (Nat.not_lt_zero _)

lemma takes_look (find : σ → Except ε α) (s : σ) : Takes (look find) s 0 (find s) s where
  ends lives := by
    rw [map_add_zero]
    rfl
  stopped _ less := absurd less (Nat.not_lt_zero _)

lemma after_call :
    after (call change) ⟨s, lives.map (· + 1)⟩ =
      match change s with
      | .ok state => (.ok (), ⟨state, lives⟩)
      | .error e => (.error (.failed e), ⟨s, lives⟩) := by
  have alive : lives.map (· + 1) ≠ some 0 := by cases lives <;> simp
  have spent : (lives.map (· + 1)).map Nat.pred = lives := by cases lives <;> rfl
  rw [call, after_step, if_neg alive]
  cases change s <;> simp only [spent]

lemma takes_call (changed : change s = .ok s') : Takes (call change) s 1 (.ok ()) s' where
  ends lives := by
    rw [after_call, changed]
    rfl
  stopped n less := by
    rw [Nat.lt_one_iff.mp less]
    rfl

lemma takes_call_error (failed : change s = .error e) : Takes (call change) s 1 (.error e) s where
  ends lives := by
    rw [after_call, failed]
    rfl
  stopped n less := by
    rw [Nat.lt_one_iff.mp less]
    rfl

lemma after_of_stopped (stopped : (after x ⟨s, some n⟩).1 = .error .stopped)
    (f : α → Task σ ε β) : (after (x >>= f) ⟨s, some n⟩).1 = .error .stopped := by
  rw [after_bind]
  rcases run : after x ⟨s, some n⟩ with ⟨_ | a, s'⟩
  · rw [run] at stopped
    cases stopped
    rfl
  · rw [run] at stopped
    cases stopped

lemma map_add (first second : Nat) :
    lives.map (· + (first + second)) = (lives.map (· + second)).map (· + first) := by
  cases lives with
  | none => rfl
  | some n =>
    have sum : n + (first + second) = n + second + first := by omega
    exact congrArg some sum

lemma Takes.bind (first : Takes x s cost (.ok a) s') (rest : Takes (f a) s' cost' result' s'') :
    Takes (x >>= f) s (cost + cost') result' s'' where
  ends lives := by
    rw [map_add, after_bind_ok (first.ends _), rest.ends]
  stopped n less := by
    rcases Nat.lt_or_ge n cost with early | late
    · exact after_of_stopped (first.stopped n early) f
    · obtain ⟨more, rfl⟩ := Nat.exists_eq_add_of_le' late
      have begun := first.ends (some more)
      rw [Option.map_some] at begun
      rw [after_bind_ok begun]
      exact rest.stopped more (by omega)

lemma Takes.bind_error (first : Takes x s cost (.error e) s') (f : α → Task σ ε β) :
    Takes (x >>= f) s cost (.error e) s' where
  ends lives := by
    rw [after_bind, first.ends]
    rfl
  stopped n less := after_of_stopped (first.stopped n less) f

lemma after_onFailure (p : Process σ) :
    after (onFailure x handle) p =
      match after x p with
      | (.ok a, p') => (.ok a, p')
      | (.error .stopped, p') => (.error .stopped, p')
      | (.error (.failed e), p') => after (handle e) p' := by
  rw [onFailure]
  unfold after
  rw [ExceptT.run_tryCatch, StateT.run_bind]
  rcases x.run.run p with ⟨⟨_ | _⟩ | _, _⟩ <;> rfl

lemma onFailure_stopped (stopped : (after x ⟨s, some n⟩).1 = .error .stopped) :
    (after (onFailure x handle) ⟨s, some n⟩).1 = .error .stopped := by
  rw [after_onFailure]
  rcases run : after x ⟨s, some n⟩ with ⟨⟨_ | e⟩ | a, p'⟩
  · rfl
  · rw [run] at stopped
    cases stopped
  · rw [run] at stopped
    cases stopped

lemma Takes.onFailure (first : Takes x s cost (.ok a) s') (handle : ε → Task σ ε α) :
    Takes (onFailure x handle) s cost (.ok a) s' where
  ends lives := by
    rw [after_onFailure, first.ends]
    rfl
  stopped n less := onFailure_stopped (first.stopped n less)

lemma Takes.onFailure_error (first : Takes x s cost (.error e) s')
    (rest : Takes (handle e) s' cost' result s'') :
    Takes (Mortal.onFailure x handle) s (cost + cost') result s'' where
  ends lives := by
    rw [map_add, after_onFailure, first.ends]
    exact rest.ends lives
  stopped n less := by
    rcases Nat.lt_or_ge n cost with early | late
    · exact onFailure_stopped (first.stopped n early)
    · obtain ⟨more, rfl⟩ := Nat.exists_eq_add_of_le' late
      have begun := first.ends (some more)
      rw [Option.map_some] at begun
      rw [after_onFailure, begun]
      exact rest.stopped more (by omega)

lemma Takes.after_zero (takes : Takes x s 0 result s') (lives : Option Nat) :
    after x ⟨s, lives⟩ = (result.mapError .failed, ⟨s', lives⟩) := by
  have ended := takes.ends lives
  rwa [map_add_zero] at ended

lemma takes_forM (changed : changes.foldlM (fun s c => perform c s) s = .ok s') :
    Takes (forM changes fun c => call (perform c)) s changes.length (.ok ()) s' := by
  induction changes generalizing s with
  | nil =>
    cases changed
    exact takes_pure _ _
  | cons c changes ih =>
    rw [List.foldlM_cons] at changed
    obtain ⟨s₁, first, rest⟩ := Fallible.bind_eq_ok.mp changed
    rw [List.forM_cons, List.length_cons, Nat.add_comm]
    exact (takes_call first).bind (ih rest)

lemma takes_forM_error (failed : changes.foldlM (fun s c => perform c s) s = .error e) :
    ∃ cost s', Takes (forM changes fun c => call (perform c)) s cost (.error e) s' := by
  induction changes generalizing s with
  | nil => cases failed
  | cons c changes ih =>
    rw [List.foldlM_cons] at failed
    rw [List.forM_cons]
    rcases Fallible.error_of_bind failed with first | ⟨s₁, first, rest⟩
    · exact ⟨1, s, (takes_call_error first).bind_error _⟩
    · obtain ⟨cost, s', rest⟩ := ih rest
      exact ⟨1 + cost, s', (takes_call first).bind rest⟩

/-- The computation ends when it is not stopped. -/
def Ends (x : Task σ ε α) : Prop :=
  ∀ s, ∃ cost result s', Takes x s cost result s'

lemma ends_pure (a : α) : Ends (pure a : Task σ ε α) :=
  fun s => ⟨0, _, s, takes_pure a s⟩

lemma ends_look (find : σ → Except ε α) : Ends (look find) :=
  fun s => ⟨0, _, s, takes_look find s⟩

lemma ends_call (change : σ → Except ε σ) : Ends (call change) := by
  intro s
  cases changed : change s with
  | ok s' => exact ⟨1, _, s', takes_call changed⟩
  | error e => exact ⟨1, _, s, takes_call_error changed⟩

lemma Ends.bind (first : Ends x) (rest : ∀ a, Ends (f a)) : Ends (x >>= f) := by
  intro s
  obtain ⟨cost, result, s', begun⟩ := first s
  cases result with
  | error e => exact ⟨cost, _, s', begun.bind_error f⟩
  | ok a =>
    obtain ⟨cost', result', s'', ended⟩ := rest a s'
    exact ⟨cost + cost', result', s'', begun.bind ended⟩

lemma ends_forM {list : List γ} {body : γ → Task σ ε PUnit} (each : ∀ c ∈ list, Ends (body c)) :
    Ends (forM list body) := by
  induction list with
  | nil => exact ends_pure _
  | cons c list ih =>
    obtain ⟨first, rest⟩ := List.forall_mem_cons.mp each
    rw [List.forM_cons]
    exact first.bind fun _ => ih rest

end Takes

/-- The state keeps the property to the end, or to wherever the process is stopped. -/
def Throughout (J : σ → Prop) (x : Task σ ε α) (R : α → Prop) : Prop :=
  Keeps (fun p => J p.state) x R

section Throughout
variable {J : σ → Prop} {R : α → Prop} {Q : β → Prop} {x : Task σ ε α} {f : α → Task σ ε β}
  {handle : ε → Task σ ε α} {change : σ → Except ε σ} {find : σ → Except ε α}

lemma throughout_pure {a : α} (returned : R a) : Throughout J (pure a : Task σ ε α) R :=
  keeps_pure returned

lemma throughout_fail (e : ε) : Throughout J (fail e : Task σ ε α) R :=
  keeps_throw _

lemma throughout_call (keeps : ∀ s s', J s → change s = .ok s' → J s') :
    Throughout J (call change) (fun _ => True) := by
  intro p start
  rw [call, after_step]
  split_ifs with dead
  · exact ⟨start, nofun⟩
  · cases changed : change p.state with
    | error e => exact ⟨start, nofun⟩
    | ok s' => exact ⟨keeps _ _ start changed, fun _ _ => trivial⟩

lemma throughout_look (found : ∀ s a, J s → find s = .ok a → R a) :
    Throughout J (look find) R := by
  intro p start
  rw [look, after_step]
  refine ⟨start, fun a same => ?_⟩
  cases looked : find p.state with
  | error e =>
    rw [looked] at same
    cases same
  | ok b =>
    rw [looked] at same
    cases same
    exact found _ _ start looked

lemma Throughout.bind (first : Throughout J x R) (rest : ∀ a, R a → Throughout J (f a) Q) :
    Throughout J (x >>= f) Q :=
  keeps_bind first rest

lemma throughout_forM {γ : Type} {list : List γ} {body : γ → Task σ ε PUnit}
    (each : ∀ c ∈ list, Throughout J (body c) (fun _ => True)) :
    Throughout J (forM list body) (fun _ => True) :=
  keeps_forM each

lemma Throughout.onFailure (first : Throughout J x R) (rest : ∀ e, Throughout J (handle e) R) :
    Throughout J (onFailure x handle) R := by
  intro p start
  obtain ⟨kept, returns⟩ := first p start
  rw [after_onFailure]
  rcases run : after x p with ⟨⟨_ | e⟩ | a, p'⟩
  · rw [run] at kept
    exact ⟨kept, nofun⟩
  · rw [run] at kept
    exact rest e p' kept
  · rw [run] at kept returns
    exact ⟨kept, returns⟩

/-- A handler is not needed for a call that does not fail. -/
lemma throughout_onFailure_call {handle : ε → Task σ ε Unit}
    (keeps : ∀ s, J s → ∃ s', change s = .ok s' ∧ J s') :
    Throughout J (Mortal.onFailure (call change) handle) (fun _ => True) := by
  intro p start
  obtain ⟨s', changed, kept⟩ := keeps p.state start
  rw [after_onFailure, call, after_step]
  split_ifs with dead
  · exact ⟨start, nofun⟩
  · rw [changed]
    exact ⟨kept, fun _ _ => trivial⟩

end Throughout

end Mortal
