import KKTerm.Library.Runs
import KKTerm.SystemCleaner.Execution

/-!
# Cancelling a cleanup

Every run of a cleanup, and every call that cancels, shares one flag of the process. A run
clears the flag at the end of its start-up and tests it before each item.
-/

namespace SystemCleaner

open List Runs

inductive Phase where
  | absent
  | starting (call : Call)
  /-- Before the test of the flag for the next item. -/
  | looping (e : Execution) (todo : List CachedPlanItem) (t : Tally)
  /-- Behind the test for an item, which found the flag clear. -/
  | cleaning (e : Execution) (item : CachedPlanItem) (todo : List CachedPlanItem) (t : Tally)
  | returned (result : Except (List Char) CleanupResult) (t : Tally)

namespace Phase

def Active : Phase → Prop
  | absent | returned .. => False
  | _ => True

/-- The items that the filter lets through and whose test of the flag is still to come. -/
def pending : Phase → List CachedPlanItem
  | starting call =>
    match startUp call with
    | .ok e => e.todo
    | .error _ => []
  | looping _ todo _ | cleaning _ _ todo _ => todo
  | absent | returned .. => []

def inHand : Phase → Option CachedPlanItem
  | cleaning _ item _ _ => some item
  | _ => none

def tally : Phase → Tally
  | looping _ _ t | cleaning _ _ _ t | returned _ t => t
  | absent | starting _ => Tally.start

end Phase

/-- The flag of the process, and the runs by number. -/
structure Cleanups where
  cancelFlag : Bool
  runs : Nat → Phase

def Cleanups.initial : Cleanups :=
  ⟨false, fun _ => .absent⟩

def Cleanups.setRun (s : Cleanups) (r : Nat) (p : Phase) : Cleanups :=
  { s with runs := fun k => if k = r then p else s.runs k }

inductive Event where
  | enter (r : Nat) (call : Call)
  /-- The start-up ends: it fails, or it clears the flag. -/
  | start (r : Nat)
  | test (r : Nat)
  | clean (r : Nat) (m : Moment)
  | finish (r : Nat) (record : HistoryRecord → Except (List Char) Unit) (runId : List Char)
  | cancelCleanup

def enter (s : Cleanups) (r : Nat) (call : Call) : Option Cleanups :=
  match s.runs r with
  | .absent => some (s.setRun r (.starting call))
  | _ => none

def start (s : Cleanups) (r : Nat) : Option Cleanups :=
  match s.runs r with
  | .starting call =>
    match startUp call with
    | .error error => some (s.setRun r (.returned (.error error) Tally.start))
    | .ok e => some ({ s with cancelFlag := false }.setRun r (.looping e e.todo Tally.start))
  | _ => none

def test (s : Cleanups) (r : Nat) : Option Cleanups :=
  match s.runs r with
  | .looping e (item :: todo) t =>
    some (s.setRun r (if s.cancelFlag then .looping e todo (cancelItem item t)
      else .cleaning e item todo t))
  | _ => none

def clean (environment : Environment) (s : Cleanups) (r : Nat) (m : Moment) : Option Cleanups :=
  match s.runs r with
  | .cleaning e item todo t =>
    some (s.setRun r (.looping e todo (cleanItem environment e.blocked m item t)))
  | _ => none

def finishRun (s : Cleanups) (r : Nat) (record : HistoryRecord → Except (List Char) Unit)
    (runId : List Char) : Option Cleanups :=
  match s.runs r with
  | .looping e [] t => some (s.setRun r (.returned (finish record runId e t) t))
  | _ => none

def step (environment : Environment) (s : Cleanups) : Event → Option Cleanups
  | .enter r call => enter s r call
  | .start r => start s r
  | .test r => test s r
  | .clean r m => clean environment s r m
  | .finish r record runId => finishRun s r record runId
  | .cancelCleanup => some { s with cancelFlag := true }

variable {environment : Environment} {s s' : Cleanups} {r k : Nat} {p q : Phase}

lemma setRun_same : (s.setRun r p).runs r = p :=
  if_pos rfl

lemma setRun_other (differ : k ≠ r) : (s.setRun r p).runs k = s.runs k :=
  if_neg differ

/-- A step clears the flag of the process. -/
def Clears (s : Cleanups) (a : Event) : Prop :=
  ∃ r call e, a = .start r ∧ s.runs r = .starting call ∧ startUp call = .ok e

/-- What one run does in a step of its own, with the flag before and behind the step. -/
inductive Moves (environment : Environment) (flag : Bool) : Bool → Phase → Phase → Prop
  | enter (call : Call) : Moves environment flag flag .absent (.starting call)
  | refuse {call : Call} {error : List Char} (fails : startUp call = .error error) :
      Moves environment flag flag (.starting call) (.returned (.error error) Tally.start)
  | start {call : Call} {e : Execution} (succeeds : startUp call = .ok e) :
      Moves environment flag false (.starting call) (.looping e e.todo Tally.start)
  | cancel {e : Execution} {item : CachedPlanItem} {todo : List CachedPlanItem} {t : Tally}
      (set : flag = true) :
      Moves environment flag flag (.looping e (item :: todo) t)
        (.looping e todo (cancelItem item t))
  | pass {e : Execution} {item : CachedPlanItem} {todo : List CachedPlanItem} {t : Tally}
      (clear : flag = false) :
      Moves environment flag flag (.looping e (item :: todo) t) (.cleaning e item todo t)
  | clean {e : Execution} {item : CachedPlanItem} {todo : List CachedPlanItem} {t : Tally}
      (m : Moment) :
      Moves environment flag flag (.cleaning e item todo t)
        (.looping e todo (cleanItem environment e.blocked m item t))
  | finish {e : Execution} {t : Tally} (record : HistoryRecord → Except (List Char) Unit)
      (runId : List Char) :
      Moves environment flag flag (.looping e [] t) (.returned (finish record runId e t) t)

variable {a : Event} {q' : Phase} {flag flag' : Bool} {after : List Event}

section
variable (h : step environment s a = some s')
include h

/-- A step sets the flag, or it moves one run and leaves the flag alone unless it clears it. -/
lemma step_cases :
    (a = .cancelCleanup ∧ s' = { s with cancelFlag := true }) ∨
      ∃ r q flag, s' = Cleanups.setRun ⟨flag, s.runs⟩ r q ∧ a ≠ .cancelCleanup ∧
        Moves environment s.cancelFlag flag (s.runs r) q ∧
        (flag = s.cancelFlag ∨ flag = false ∧ Clears s a) := by
  cases a with
  | enter r call =>
    simp only [step, enter] at h
    split at h
    · rename_i absent
      refine Or.inr ⟨r, _, _, (Option.some.inj h).symm, Event.noConfusion, ?_, .inl rfl⟩
      rw [absent]
      exact Moves.enter call
    · cases h
  | start r =>
    simp only [step, start] at h
    split at h
    · rename_i call starting
      split at h
      · rename_i error fails
        refine Or.inr ⟨r, _, _, (Option.some.inj h).symm, Event.noConfusion, ?_, .inl rfl⟩
        rw [starting]
        exact Moves.refuse fails
      · rename_i e succeeds
        refine Or.inr ⟨r, _, _, (Option.some.inj h).symm, Event.noConfusion, ?_,
          Or.inr ⟨rfl, r, call, e, rfl, starting, succeeds⟩⟩
        rw [starting]
        exact Moves.start succeeds
    · cases h
  | test r =>
    simp only [step, test] at h
    split at h
    · rename_i e item todo t looping
      refine Or.inr ⟨r, _, _, (Option.some.inj h).symm, Event.noConfusion, ?_, .inl rfl⟩
      rw [looping]
      split
      · rename_i set
        exact Moves.cancel set
      · rename_i clear
        exact Moves.pass (Bool.eq_false_iff.mpr clear)
    · cases h
  | clean r m =>
    simp only [step, clean] at h
    split at h
    · rename_i e item todo t cleaning
      refine Or.inr ⟨r, _, _, (Option.some.inj h).symm, Event.noConfusion, ?_, .inl rfl⟩
      rw [cleaning]
      exact Moves.clean m
    · cases h
  | finish r record runId =>
    simp only [step, finishRun] at h
    split at h
    · rename_i e t looping
      refine Or.inr ⟨r, _, _, (Option.some.inj h).symm, Event.noConfusion, ?_, .inl rfl⟩
      rw [looping]
      exact Moves.finish record runId
    · cases h
  | cancelCleanup => exact .inl ⟨rfl, (Option.some.inj h).symm⟩

lemma step_run (k : Nat) :
    s'.runs k = s.runs k ∨ Moves environment s.cancelFlag s'.cancelFlag (s.runs k) (s'.runs k) := by
  rcases step_cases h with ⟨-, rfl⟩ | ⟨r, q, flag, rfl, -, moves, -⟩
  · exact .inl rfl
  · by_cases same : k = r
    · subst same
      rw [setRun_same]
      exact .inr moves
    · exact .inl (setRun_other same)

lemma step_flag :
    a = .cancelCleanup ∧ s'.cancelFlag = true ∨
      a ≠ .cancelCleanup ∧ (s'.cancelFlag = s.cancelFlag ∨ s'.cancelFlag = false ∧ Clears s a) := by
  rcases step_cases h with ⟨cancels, rfl⟩ | ⟨r, q, flag, rfl, own, -, kept⟩
  · exact .inl ⟨cancels, rfl⟩
  · exact .inr ⟨own, kept⟩

end

def Phase.deleted (p : Phase) : List CachedPlanItem :=
  p.tally.removed.map Prod.fst

def cancelledSkip (item : CachedPlanItem) : CleanupSkip :=
  ⟨item.shown.path, "cancelled".toList⟩

/-- From one phase to a later one a run deletes the item in hand at most, and every item
whose test was still to come is reported as skipped once its turn is over. -/
structure Stopped (p q : Phase) : Prop where
  deleted : q.deleted = p.deleted ∨ ∃ item ∈ p.inHand, q.deleted = p.deleted ++ [item]
  skipped : ∃ done inHand, p.pending = done ++ q.pending ∧ inHand.length ≤ p.inHand.toList.length ∧
    q.tally.skipped = p.tally.skipped ++ inHand ++ done.map cancelledSkip

/-- What a run returns is what it counted. -/
def Reported (q : Phase) : Prop :=
  ∀ result t, q = .returned (.ok result) t →
    result.skipped = t.skipped ∧ result.deletedItems = t.deletedItems ∧
      result.cancelled = t.cancelled

lemma Stopped.refl (p : Phase) : Stopped p p :=
  ⟨.inl rfl, [], [], rfl, Nat.zero_le _, by simp⟩

lemma cleanItem_cases (environment : Environment) (blocked : List (List Char)) (m : Moment)
    (item : CachedPlanItem) (t : Tally) :
    (∃ reason, cleanItem environment blocked m item t = t.skip item reason) ∨
      (cleanItem environment blocked m item t).removed = t.removed ++ [(item, m.fs)] ∧
        (cleanItem environment blocked m item t).skipped = t.skipped ∧
        (cleanItem environment blocked m item t).cancelled = t.cancelled := by
  unfold cleanItem
  split
  · exact .inl ⟨_, rfl⟩
  · split
    · exact .inl ⟨_, rfl⟩
    · split
      · exact .inr ⟨rfl, rfl, rfl⟩
      · exact .inl ⟨_, rfl⟩

lemma Stopped.forward (h : Stopped p q) (pending : q'.pending = q.pending)
    (tally : q'.tally = q.tally) : Stopped p q' := by
  obtain ⟨deleted, skipped⟩ := h
  refine ⟨?_, ?_⟩
  · rwa [Phase.deleted, tally]
  · rwa [pending, tally]

/-- The run has not moved since, or it has no item in hand any more. -/
def Since (p q : Phase) : Prop :=
  q = p ∨ q.inHand = none ∧ Stopped p q

lemma Since.stopped (h : Since p q) : Stopped p q := by
  rcases h with rfl | ⟨-, h⟩
  · exact Stopped.refl q
  · exact h

/-- While the flag is set whenever an item is left to test, no item passes the test. -/
lemma Since.moves (h : Since p q) (present : q ≠ .absent) (flagged : q.pending ≠ [] → flag = true)
    (moves : Moves environment flag flag' q q') :
    Since p q' ∧ q' ≠ .absent ∧ (q'.pending ≠ [] → q.pending ≠ []) := by
  cases moves with
  | enter call => exact absurd rfl present
  | @refuse call error fails =>
    have pending : (Phase.starting call).pending = [] := by rw [Phase.pending, fails]
    exact ⟨.inr ⟨rfl, h.stopped.forward pending.symm rfl⟩, Phase.noConfusion,
      fun left => absurd rfl left⟩
  | @start call e succeeds =>
    have pending : (Phase.starting call).pending = e.todo := by rw [Phase.pending, succeeds]
    refine ⟨.inr ⟨rfl, h.stopped.forward pending.symm rfl⟩, Phase.noConfusion, fun left => ?_⟩
    rw [pending]
    exact left
  | @cancel e item todo t set =>
    obtain ⟨deleted, done, inHand, pending, at_most, skipped⟩ := h.stopped
    refine ⟨.inr ⟨rfl, deleted, done ++ [item], inHand, ?_, at_most, ?_⟩, Phase.noConfusion,
      fun _ => cons_ne_nil _ _⟩
    · rw [pending, append_assoc]
      rfl
    · change t.skipped ++ [cancelledSkip item] = _
      change t.skipped = _ at skipped
      rw [skipped, map_append, ← append_assoc]
      rfl
  | @pass e item todo t clear =>
    have set := flagged (cons_ne_nil item todo)
    rw [clear] at set
    exact absurd set Bool.false_ne_true
  | @clean e item todo t m =>
    have unmoved : Phase.cleaning e item todo t = p := by
      rcases h with same | ⟨none_in_hand, -⟩
      · exact same
      · exact absurd none_in_hand (Option.some_ne_none item)
    subst unmoved
    refine ⟨.inr ⟨rfl, ?_⟩, Phase.noConfusion, id⟩
    rcases cleanItem_cases environment e.blocked m item t with
      ⟨reason, outcome⟩ | ⟨removed, skipped, -⟩
    · rw [outcome]
      exact ⟨.inl rfl, [], [⟨item.shown.path, reason⟩], rfl, Nat.le_refl 1, (append_nil _).symm⟩
    · refine ⟨.inr ⟨item, rfl, ?_⟩, [], [], rfl, Nat.zero_le _, ?_⟩
      · change map Prod.fst (cleanItem environment e.blocked m item t).removed = _
        rw [removed, map_append]
        rfl
      · change (cleanItem environment e.blocked m item t).skipped = _
        rw [skipped]
        exact (append_nil _).symm.trans (append_nil _).symm
  | @finish e t record runId => exact ⟨.inr ⟨rfl, h.stopped.forward rfl rfl⟩, Phase.noConfusion, id⟩

/-- No step clears the flag while the run has an item left to test. -/
def KeepsCancel (r : Nat) (s : Cleanups) (a : Event) : Prop :=
  Clears s a → (s.runs r).pending = []

lemma stopped_of_along (active : (s.runs r).Active) (flagged : s.cancelFlag = true)
    (kept : Along (step environment) (KeepsCancel r) s after)
    (ran : run (step environment) s after = some s') : Stopped (s.runs r) (s'.runs r) := by
  have start : Since (s.runs r) (s.runs r) ∧ s.runs r ≠ .absent ∧
      ((s.runs r).pending ≠ [] → s.cancelFlag = true) := by
    refine ⟨.inl rfl, fun absent => ?_, fun _ => flagged⟩
    rw [absent] at active
    exact active
  refine (along_invariant (P := fun t => Since (s.runs r) (t.runs r) ∧ t.runs r ≠ .absent ∧
    ((t.runs r).pending ≠ [] → t.cancelFlag = true)) ?_ kept ran start).1.stopped
  rintro t a t' taken keeps ⟨since, present, set⟩
  have moved : Since (s.runs r) (t'.runs r) ∧ t'.runs r ≠ .absent ∧
      ((t'.runs r).pending ≠ [] → (t.runs r).pending ≠ []) := by
    rcases step_run taken r with same | moves
    · rw [same]
      exact ⟨since, present, id⟩
    · exact since.moves present set moves
  refine ⟨moved.1, moved.2.1, fun left => ?_⟩
  have before := moved.2.2 left
  rcases step_flag taken with ⟨-, now_set⟩ | ⟨-, same | ⟨-, clears⟩⟩
  · exact now_set
  · rw [same]
    exact set before
  · exact absurd (keeps clears) before

lemma Reported.moves (moves : Moves environment flag flag' q q') : Reported q' := by
  cases moves with
  | finish record runId =>
    intro result t returned
    obtain ⟨counted, rfl⟩ := Phase.returned.inj returned
    rw [finish_ok counted]
    exact ⟨rfl, rfl, rfl⟩
  | _ =>
    intro result t returned
    cases returned

lemma reported_of_run {events : List Event}
    (ran : run (step environment) Cleanups.initial events = some s) (r : Nat) :
    Reported (s.runs r) := by
  refine run_invariant (P := fun t => Reported (t.runs r)) ?_ ran ?_
  · intro t a t' taken h
    rcases step_run taken r with same | moves
    · rw [same]
      exact h
    · exact Reported.moves moves
  · intro result t returned
    cases returned

/-- No cancel falls into the time of the run. -/
def NotOverlapped (r : Nat) (s : Cleanups) (a : Event) : Prop :=
  a = .cancelCleanup → ¬ (s.runs r).Active

/-- The run has not seen the flag set, and it finds it clear at its next test. -/
def Undisturbed (flag : Bool) (q : Phase) : Prop :=
  q ≠ .absent ∧ q.tally.cancelled = false ∧
    ((∀ call, q ≠ .starting call) → q.Active → flag = false)

lemma Undisturbed.moves (h : Undisturbed flag q) (moves : Moves environment flag flag' q q') :
    Undisturbed flag' q' := by
  obtain ⟨present, clean, clear⟩ := h
  cases moves with
  | enter call => exact absurd rfl present
  | refuse fails => exact ⟨Phase.noConfusion, rfl, fun _ active => active.elim⟩
  | start succeeds => exact ⟨Phase.noConfusion, rfl, fun _ _ => rfl⟩
  | cancel set =>
    have now_clear := clear (fun _ => Phase.noConfusion) trivial
    rw [set] at now_clear
    exact absurd now_clear Bool.noConfusion
  | pass was_clear => exact ⟨Phase.noConfusion, clean, fun _ _ => was_clear⟩
  | @clean e item todo t m =>
    refine ⟨Phase.noConfusion, ?_, fun _ _ => clear (fun _ => Phase.noConfusion) trivial⟩
    change (cleanItem environment e.blocked m item t).cancelled = false
    rcases cleanItem_cases environment e.blocked m item t with ⟨reason, outcome⟩ | ⟨-, -, same⟩
    · rw [outcome]
      exact clean
    · rw [same]
      exact clean
  | finish record runId => exact ⟨Phase.noConfusion, clean, fun _ active => active.elim⟩

lemma not_cancelled_of_along {call : Call} (entered : s.runs r = .starting call)
    (apart : Along (step environment) (NotOverlapped r) s after)
    (ran : run (step environment) s after = some s') :
    (s'.runs r).tally.cancelled = false := by
  have start : Undisturbed s.cancelFlag (s.runs r) := by
    rw [entered]
    exact ⟨Phase.noConfusion, rfl, fun other => absurd rfl (other call)⟩
  refine (along_invariant (P := fun t => Undisturbed t.cancelFlag (t.runs r)) ?_ apart ran
    start).2.1
  intro t a t' taken outside h
  rcases step_run taken r with same | moves
  · rw [same]
    refine ⟨h.1, h.2.1, fun not_starting active => ?_⟩
    rcases step_flag taken with ⟨cancels, -⟩ | ⟨-, unchanged | ⟨clear, -⟩⟩
    · exact absurd active (outside cancels)
    · rw [unchanged]
      exact h.2.2 not_starting active
    · exact clear
  · exact h.moves moves

/-- In every interleaving of any number of runs and cancels: a run that a cancel overlaps
deletes the item in hand at most and reports every later item as skipped, as long as no
start-up clears the flag while the run has an item left to test; and a run that no cancel
overlaps is never cancelled. -/
theorem cancel_stops_run (environment : Environment) {before : List Event} {s : Cleanups}
    (reached : Runs.run (step environment) Cleanups.initial before = some s) (r : Nat) :
    (∀ s₁ after s₂, (s.runs r).Active → step environment s .cancelCleanup = some s₁ →
      Runs.Along (step environment) (KeepsCancel r) s₁ after →
      Runs.run (step environment) s₁ after = some s₂ →
      Stopped (s.runs r) (s₂.runs r) ∧ Reported (s₂.runs r)) ∧
    (∀ call after s₂, s.runs r = .starting call →
      Runs.Along (step environment) (NotOverlapped r) s after →
      Runs.run (step environment) s after = some s₂ →
      (s₂.runs r).tally.cancelled = false ∧ Reported (s₂.runs r)) := by
  constructor
  · intro s₁ after s₂ active cancels kept ran
    cases cancels
    have through : run (step environment) Cleanups.initial
        (before ++ .cancelCleanup :: after) = some s₂ :=
      run_append_eq_some.mpr ⟨s, reached, run_cons_eq_some.mpr ⟨_, rfl, ran⟩⟩
    exact ⟨stopped_of_along (s := ⟨true, s.runs⟩) active rfl kept ran, reported_of_run through r⟩
  · intro call after s₂ entered apart ran
    exact ⟨not_cancelled_of_along entered apart ran,
      reported_of_run (run_append_eq_some.mpr ⟨s, reached, ran⟩) r⟩

section Example

def cachedFile (name : List Char) : CachedPlanItem :=
  ⟨⟨"temp".toList, "C:\\Temp\\".toList ++ name, 3, 0, 0⟩, "C:\\Temp".toList⟩

def twoFiles : CachedPlan :=
  { shown := ⟨"token".toList, "now".toList, 6, 0, [], [], []⟩
    items := [cachedFile "a".toList, cachedFile "b".toList]
    recipeProcesses := [] }

def cleanTwo : Call :=
  ⟨some twoFiles, 0, fun _ => some 0, [], none⟩

/-- A file system whose paths are canonical and whose files have not changed. -/
def unchanged : Moment :=
  ⟨⟨fun _ => .ok ⟨false, true, false, 3, 0⟩, some, fun _ => 0, fun _ => none⟩, .ok ()⟩

def noVariables : Environment :=
  fun _ => none

def cancelLate : List Event :=
  [.enter 0 cleanTwo, .start 0, .test 0]

def afterCancel : List Event :=
  [.clean 0 unchanged, .test 0, .finish 0 (fun _ => .ok ()) "run".toList]

theorem cancel_stops_run_in_use :
    (∃ s s₁ s₂, Runs.run (step noVariables) Cleanups.initial cancelLate = some s ∧
      step noVariables s .cancelCleanup = some s₁ ∧
      Runs.run (step noVariables) s₁ afterCancel = some s₂ ∧
      Stopped (s.runs 0) (s₂.runs 0) ∧ Reported (s₂.runs 0)) ∧
    (∃ s s₂, Runs.run (step noVariables) Cleanups.initial [.enter 0 cleanTwo] = some s ∧
      Runs.run (step noVariables) s [.start 0, .test 0, .clean 0 unchanged] = some s₂ ∧
      (s₂.runs 0).tally.cancelled = false) := by
  constructor
  · refine ⟨_, _, _, rfl, rfl, rfl, ?_⟩
    have reached : run (step noVariables) Cleanups.initial cancelLate = some _ := rfl
    refine (cancel_stops_run noVariables reached 0).1 _ afterCancel _ trivial rfl
      ⟨?_, fun _ _ => ⟨?_, fun _ _ => ⟨?_, fun _ _ => trivial⟩⟩⟩ rfl
    all_goals
      rintro ⟨r, call, e, start, -⟩
      cases start
  · refine ⟨_, _, rfl, rfl, ?_⟩
    have reached : run (step noVariables) Cleanups.initial [.enter 0 cleanTwo] = some _ := rfl
    refine ((cancel_stops_run noVariables reached 0).2 cleanTwo
      [.start 0, .test 0, .clean 0 unchanged] _ rfl
      ⟨?_, fun _ _ => ⟨?_, fun _ _ => ⟨?_, fun _ _ => trivial⟩⟩⟩ rfl).1
    all_goals exact fun cancels => Event.noConfusion cancels

/-- A cancel that arrives before the start-up is over is erased: both files are deleted. -/
theorem cancel_erased :
    ∃ s s₁ s₂, Runs.run (step noVariables) Cleanups.initial [.enter 0 cleanTwo] = some s ∧
      (s.runs 0).Active ∧ step noVariables s .cancelCleanup = some s₁ ∧
      Runs.run (step noVariables) s₁ [.start 0, .test 0, .clean 0 unchanged, .test 0,
        .clean 0 unchanged, .finish 0 (fun _ => .ok ()) "run".toList] = some s₂ ∧
      ¬ Stopped (s.runs 0) (s₂.runs 0) := by
  refine ⟨_, _, _, rfl, trivial, rfl, rfl, ?_⟩
  rintro ⟨unchanged_or_one, -⟩
  rcases unchanged_or_one with none_deleted | ⟨item, in_hand, -⟩
  · exact absurd (congrArg length none_deleted) (by decide)
  · cases in_hand

end Example

end SystemCleaner
