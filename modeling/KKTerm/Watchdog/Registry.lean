import KKTerm.Watchdog.Interventions
import Mathlib.Data.List.AList

/-!
# Terminal states and the log of a watchdog

A terminal state is written once, with one announcement, by the last section of
the task; calls leave a terminal entry alone. All the while the ring of ticks and
the triggers agree with the events that went out.
-/

namespace Watchdog

open List Runs

namespace WatchdogEvent

def sample : WatchdogEvent → Option (Value × Bool)
  | tick value predicateMet _ => some (value, predicateMet)
  | _ => none

def isTrigger : WatchdogEvent → Bool
  | trigger _ _ => true
  | _ => false

def isComplete : WatchdogEvent → Bool
  | complete _ => true
  | _ => false

end WatchdogEvent

def WatchdogTick.sample (t : WatchdogTick) : Value × Bool :=
  (t.value, t.predicateMet)

namespace WatchdogRun

def samples (w : WatchdogRun) : List (Value × Bool) :=
  w.events.filterMap WatchdogEvent.sample

/-- The entry holds what was announced. -/
structure Logged (w : WatchdogRun) : Prop where
  ticks : w.entry.ticks.map WatchdogTick.sample = w.samples.rtake tickRingCap
  polls : w.entry.pollCount = min w.samples.length u32Max
  triggers : w.entry.triggers.length = w.events.countP WatchdogEvent.isTrigger

/-- A watchdog either runs, or has announced its one terminal state. -/
inductive Ended (w : WatchdogRun) : Prop where
  | running (p : Program) (task : w.task = .running p) (alive : w.entry.state.isTerminal = false)
      (quiet : w.events.countP WatchdogEvent.isComplete = 0)
  | returned (task : w.task = .returned) (terminal : w.entry.state.isTerminal = true)
      (announced : w.events.countP WatchdogEvent.isComplete = 1)

variable {calendar : Nat → LocalTime} {w w' : WatchdogRun} {a : Action}

variable (sec : LockSection) (config : WatchdogConfig) (startedAt : Nat) {α : Type}
  {more : List WatchdogEvent} {actions : List Action}

lemma tail_rtake (xs : List α) (n : Nat) (full : n < xs.length) :
    (xs.rtake (n + 1)).tail = xs.rtake n := by
  rw [rtake, rtake, tail_drop]
  congr 1
  omega

/-- A ring that drops its oldest element when it is full holds the latest ones. -/
lemma ring_push {β : Type} {f : α → β} {ring : List α} {all : List β} {n : Nat}
    (latest : ring.map f = all.rtake (n + 1)) (x : α) :
    ((if n + 1 ≤ ring.length then ring.tail else ring) ++ [x]).map f =
      (all ++ [f x]).rtake (n + 1) := by
  have length : ring.length = min (n + 1) all.length := by
    have counted := congrArg List.length latest
    rw [length_map, rtake, length_drop] at counted
    omega
  rw [map_append, rtake_concat_succ]
  refine congrArg (· ++ [f x]) ?_
  by_cases full : n + 1 ≤ ring.length
  · rw [if_pos full, map_tail, latest]
    exact tail_rtake all n (by omega)
  · rw [if_neg full, latest, rtake, rtake]
    congr 1
    omega

lemma execute_events (next : Entry → Program) :
    (w.execute sec next).events = w.events ++ sec.emits :=
  rfl

lemma samples_append (events : w'.events = w.events ++ more) :
    w'.samples = w.samples ++ more.filterMap WatchdogEvent.sample := by
  rw [samples, events, filterMap_append]
  rfl

/-- Neither the log of the entry nor the announcements of it grow. -/
lemma Logged.quiet (l : Logged w) (ticks : w'.entry.ticks = w.entry.ticks)
    (polls : w'.entry.pollCount = w.entry.pollCount)
    (triggers : w'.entry.triggers = w.entry.triggers) (events : w'.events = w.events ++ more)
    (unsampled : more.filterMap WatchdogEvent.sample = [])
    (untriggered : more.countP WatchdogEvent.isTrigger = 0) : Logged w' := by
  have same : w'.samples = w.samples := by rw [samples_append events, unsampled, append_nil]
  constructor
  · rw [ticks, same]
    exact l.ticks
  · rw [polls, same]
    exact l.polls
  · rw [triggers, events, countP_append, untriggered]
    exact l.triggers

lemma Logged.execute (l : Logged w) (sec : LockSection) (next : Entry → Program) :
    Logged (w.execute sec next) := by
  cases sec with
  | pushTick value predicateMet now pollCount =>
    have events := execute_events (w := w) (.pushTick value predicateMet now pollCount) next
    have grown := samples_append events
    constructor
    · rw [grown]
      exact ring_push l.ticks ⟨now, value, predicateMet⟩
    · have counted : (w.execute (.pushTick value predicateMet now pollCount) next).entry.pollCount =
          min (w.entry.pollCount + 1) u32Max := rfl
      have one : (LockSection.pushTick value predicateMet now pollCount).emits.filterMap
          WatchdogEvent.sample = [(value, predicateMet)] := rfl
      rw [counted, grown, one, l.polls, length_append, length_singleton]
      omega
    · rw [events, countP_append]
      exact l.triggers
  | recordTrigger value now count =>
    have events := execute_events (w := w) (.recordTrigger value now count) next
    have same := (samples_append events).trans (append_nil _)
    constructor
    · exact same ▸ l.ticks
    · exact same ▸ l.polls
    · rw [events, countP_append, ← l.triggers]
      exact length_append ..
  | _ => exact l.quiet rfl rfl rfl (execute_events _ next) rfl rfl

lemma Logged.did (l : Logged w) (did : Did calendar w a w') : Logged w' := by
  cases did with
  | execute sec next => exact l.execute sec next
  | finalize state =>
    have events : (w.finalize state).events = w.events ++ [.stateChange state, .complete state] := rfl
    exact l.quiet rfl rfl rfl events rfl rfl
  | turn => exact l.quiet rfl rfl rfl (append_nil _).symm rfl rfl
  | accept => exact l.quiet rfl rfl rfl (append_nil _).symm rfl rfl
  | calls => exact l.quiet rfl rfl rfl (append_nil _).symm rfl rfl

/-- A section other than the last leaves the watchdog alive. -/
lemma apply_alive {sec : LockSection} {e : Entry} (alive : e.state.isTerminal = false) :
    (sec.apply e).state.isTerminal = false := by
  cases sec <;> first | rfl | exact alive

lemma emits_quiet : sec.emits.countP WatchdogEvent.isComplete = 0 := by
  cases sec <;> rfl

lemma Ended.did (ended : Ended w) (did : Did calendar w a w') : Ended w' := by
  cases did with
  | execute sec next task =>
    cases ended with
    | running p _ alive quiet =>
      refine .running (next (sec.apply w.entry)) rfl (apply_alive alive) ?_
      rw [execute_events, countP_append, quiet, emits_quiet]
    | returned task' =>
      rw [task'] at task
      cases task
  | finalize state task =>
    cases ended with
    | running p _ alive quiet =>
      refine .returned rfl state.2 ?_
      have announced : (w.finalize state).events =
          w.events ++ [.stateChange state, .complete state] := rfl
      rw [announced, countP_append, quiet]
      rfl
    | returned task' =>
      rw [task'] at task
      cases task
  | turn p p' mailbox task =>
    cases ended with
    | running _ _ alive quiet => exact .running p' rfl alive quiet
    | returned task' =>
      rw [task'] at task
      cases task
  | accept record _ intervening =>
    cases ended with
    | running p task alive quiet => exact .running p task alive quiet
    | returned task terminal announced => exact .returned task terminal announced
  | calls canceled cancelCalls sending mailbox =>
    cases ended with
    | running p task alive quiet => exact .running p task alive quiet
    | returned task terminal announced => exact .returned task terminal announced

lemma intervening_alive {state : WatchdogState} (h : state.isIntervening = true) :
    state.isTerminal = false := by
  cases state <;> first | rfl | cases h

/-- Once the task has returned, nothing touches the entry. -/
lemma Ended.frozen (ended : Ended w) (terminal : w.entry.state.isTerminal = true)
    (did : Did calendar w a w') : w'.entry = w.entry ∧ w'.events = w.events := by
  cases ended with
  | running p task alive =>
    rw [terminal] at alive
    cases alive
  | returned task =>
    cases did with
    | execute sec next task' | finalize state task' | turn p p' mailbox task' =>
      rw [task] at task'
      cases task'
    | accept record _ intervening =>
      rw [intervening_alive intervening] at terminal
      cases terminal
    | calls => exact ⟨rfl, rfl⟩

lemma new_logged : Logged (new config startedAt) where
  ticks := (rtake_nil _).symm
  polls := (Nat.zero_min _).symm
  triggers := rfl

lemma new_ended : Ended (new config startedAt) :=
  .running _ rfl rfl rfl

lemma run_ended {config : WatchdogConfig} {startedAt : Nat}
    (ran : run (step calendar) (new config startedAt) actions = some w) : Ended w :=
  run_invariant (P := Ended) (fun _ _ _ stepped ended => ended.did (step_did stepped)) ran
    (new_ended config startedAt)

lemma run_frozen (ended : Ended w) (terminal : w.entry.state.isTerminal = true)
    (ran : run (step calendar) w actions = some w') :
    w'.entry = w.entry ∧ w'.events = w.events := by
  have kept := run_invariant (P := fun v => Ended v ∧ v.entry = w.entry ∧ v.events = w.events)
    (fun v a v' stepped ⟨ended, entry, events⟩ => by
      have did := step_did stepped
      obtain ⟨entry', events'⟩ := ended.frozen (entry ▸ terminal) did
      exact ⟨ended.did did, entry'.trans entry, events'.trans events⟩)
    ran ⟨ended, rfl, rfl⟩
  exact kept.2

end WatchdogRun

/-- In every run a terminal entry stays as it is, and was announced exactly once;
at every point the ring holds the latest samples and the triggers are those that
were announced. -/
theorem terminal_states_absorb (calendar : Nat → LocalTime) (config : WatchdogConfig)
    (startedAt : Nat) (actions : List WatchdogRun.Action) :
    ∀ w, Runs.run (WatchdogRun.step calendar) (.new config startedAt) actions = some w →
      (w.entry.state.isTerminal = true →
        w.events.countP WatchdogEvent.isComplete = 1 ∧
        ∀ later w', Runs.run (WatchdogRun.step calendar) w later = some w' →
          w'.entry = w.entry ∧ w'.events = w.events) ∧
      w.entry.ticks.map WatchdogTick.sample = w.samples.rtake (min w.entry.pollCount tickRingCap) ∧
      w.entry.pollCount = min w.samples.length u32Max ∧
      w.entry.triggers.length = w.events.countP WatchdogEvent.isTrigger := by
  intro w ran
  have logged := run_invariant (P := WatchdogRun.Logged)
    (fun _ _ _ stepped logged => logged.did (WatchdogRun.step_did stepped))
    ran (WatchdogRun.new_logged config startedAt)
  have ended := WatchdogRun.run_ended ran
  refine ⟨fun terminal => ⟨?_, fun later w' more => WatchdogRun.run_frozen ended terminal more⟩, ?_,
    logged.polls, logged.triggers⟩
  · cases ended with
    | running p task alive =>
      rw [terminal] at alive
      cases alive
    | returned task terminal announced => exact announced
  · have bounds : tickRingCap ≤ u32Max := by decide
    have dropped : w.samples.length - tickRingCap =
        w.samples.length - min (min w.samples.length u32Max) tickRingCap := by
      generalize w.samples.length = n
      omega
    rw [logged.polls]
    exact logged.ticks.trans (congrArg (fun n => w.samples.drop n) dropped)

/-- A schedule that is canceled before its first poll. -/
theorem canceled_stays :
    ∃ w, Runs.run (WatchdogRun.step firstOfApril) (.new (scheduleConfig "* * * * *".toList) 0)
        [.work, .cancel, .cancelToken, .noticeCancel 0, .work] = some w ∧
      w.entry.state.isTerminal = true ∧ w.events.countP WatchdogEvent.isComplete = 1 := by
  have possible : (run (WatchdogRun.step firstOfApril) (.new (scheduleConfig "* * * * *".toList) 0)
      [.work, .cancel, .cancelToken, .noticeCancel 0, .work]).any
        (fun w => w.entry.state.isTerminal) = true := by
    decide +kernel
  obtain ⟨w, ran, terminal⟩ := (Option.any_eq_true _ _).mp possible
  exact ⟨w, ran, terminal, ((terminal_states_absorb firstOfApril _ 0 _ w ran).1 terminal).1⟩

end Watchdog

/-!
# The registry

All watchdogs of the process under their ids. An entry stays after its task has
returned, and `create` compares the cap with the number of all entries.
-/

namespace Watchdog

open Runs
open AList hiding insert keys
open List

def maxConcurrentWatchdogs : Nat := 16

/-- `wd-{ts}-{seq}`. -/
structure WatchdogId where
  ts : Nat
  seq : Nat
  deriving DecidableEq

/-- The map of entries, and the counter behind the ids. -/
structure WatchdogRegistry where
  counter : Nat
  entries : AList (fun _ : WatchdogId => WatchdogRun)

namespace WatchdogRegistry

def empty : WatchdogRegistry where
  counter := 0
  entries := ∅

def len (r : WatchdogRegistry) : Nat :=
  r.entries.keys.length

def live (r : WatchdogRegistry) : Nat :=
  r.entries.entries.countP (fun e => !e.2.entry.state.isTerminal)

def create (r : WatchdogRegistry) (config : SubmittedConfig) (ts startedAt : Nat) :
    Except WatchdogError WatchdogId × WatchdogRegistry :=
  match validateConfig config with
  | .error e => (.error e, r)
  | .ok () =>
    let id : WatchdogId := ⟨ts, r.counter⟩
    let counter := r.counter + 1
    if maxConcurrentWatchdogs ≤ r.len then (.error .capacityExceeded, { r with counter })
    else
      (.ok id, { counter, entries := r.entries.insert id (.new config.toWatchdogConfig startedAt) })

inductive Action where
  | create (config : SubmittedConfig) (ts startedAt : Nat)
  /-- A step of one watchdog: of its task, or a call with its id. -/
  | watchdog (id : WatchdogId) (a : WatchdogRun.Action)

def step (calendar : Nat → LocalTime) (r : WatchdogRegistry) : Action → Option WatchdogRegistry
  | .create config ts startedAt => some (r.create config ts startedAt).2
  | .watchdog id a =>
    match r.entries.lookup id with
    | some w => (w.step calendar a).map (fun w' => { r with entries := r.entries.insert id w' })
    | none =>
      match a with
      -- A call with an unknown id fails.
      | .cancel | .record _ => some r
      | _ => none

variable {calendar : Nat → LocalTime} {r r' : WatchdogRegistry}

inductive Did (calendar : Nat → LocalTime) (r : WatchdogRegistry) : WatchdogRegistry → Prop where
  | same (counter : Nat) (grows : r.counter ≤ counter) : Did calendar r { r with counter }
  | insert (config : SubmittedConfig) (ts startedAt : Nat)
      (accepted : validateConfig config = .ok ()) (room : r.len < maxConcurrentWatchdogs) :
    Did calendar r
      { counter := r.counter + 1
        entries := r.entries.insert ⟨ts, r.counter⟩ (.new config.toWatchdogConfig startedAt) }
  | update (id : WatchdogId) (a : WatchdogRun.Action) (w w' : WatchdogRun)
      (found : r.entries.lookup id = some w) (stepped : w.step calendar a = some w') :
    Did calendar r { r with entries := r.entries.insert id w' }

lemma step_did {a : Action} (h : step calendar r a = some r') : Did calendar r r' := by
  cases a with
  | create config ts startedAt =>
    cases h
    rw [create]
    split
    · exact .same r.counter (Nat.le_refl _)
    · rename_i accepted
      dsimp only
      split
      · exact .same (r.counter + 1) (Nat.le_succ _)
      · rename_i room
        exact .insert config ts startedAt accepted (Nat.lt_of_not_le room)
  | watchdog id a =>
    simp only [step] at h
    split at h
    · rename_i w found
      obtain ⟨w', stepped, rfl⟩ := Option.map_eq_some_iff.mp h
      exact .update id a w w' found stepped
    · split at h
      · cases h
        exact .same r.counter (Nat.le_refl _)
      · cases h
        exact .same r.counter (Nat.le_refl _)
      · cases h

/-- An accepted watchdog and a run that led to it. -/
def Follows (calendar : Nat → LocalTime) (w : WatchdogRun) : Prop :=
  ∃ (config : SubmittedConfig) (startedAt : Nat) (actions : List WatchdogRun.Action),
    validateConfig config = .ok () ∧
    Runs.run (WatchdogRun.step calendar) (.new config.toWatchdogConfig startedAt) actions = some w

variable {w : WatchdogRun}

lemma Follows.step {w' : WatchdogRun} {a : WatchdogRun.Action} (f : Follows calendar w)
    (stepped : w.step calendar a = some w') : Follows calendar w' := by
  obtain ⟨config, startedAt, actions, accepted, ran⟩ := f
  refine ⟨config, startedAt, actions ++ [a], accepted, run_append_eq_some.mpr ⟨w, ran, ?_⟩⟩
  exact run_cons_eq_some.mpr ⟨w', stepped, rfl⟩

/-- The entries are watchdogs as the earlier modules describe them, under ids that
are not given again, and at most as many as the cap allows. -/
structure Sound (calendar : Nat → LocalTime) (r : WatchdogRegistry) : Prop where
  follows : ∀ id, ∀ w ∈ r.entries.lookup id, Follows calendar w
  fresh : ∀ id ∈ r.entries, id.seq < r.counter
  capped : r.len ≤ maxConcurrentWatchdogs

lemma len_insert_le (id : WatchdogId) (w : WatchdogRun) :
    (r.entries.insert id w).keys.length ≤ r.len + 1 := by
  rw [keys_insert, length_cons]
  exact Nat.succ_le_succ length_erase_le

variable {id : WatchdogId}

lemma mem_of_found (found : r.entries.lookup id = some w) : id ∈ r.entries :=
  lookup_isSome.mp (by rw [found]; rfl)

lemma len_insert_of_found (found : r.entries.lookup id = some w) (w' : WatchdogRun) :
    (r.entries.insert id w').keys.length = r.len := by
  rw [keys_insert, length_cons]
  exact length_erase_add_one (AList.mem_keys.mp (mem_of_found found))

lemma follows_insert (follows : ∀ id, ∀ w ∈ r.entries.lookup id, Follows calendar w)
    (f : Follows calendar w) :
    ∀ other, ∀ v ∈ (r.entries.insert id w).lookup other, Follows calendar v := by
  intro other v found
  by_cases same : other = id
  · subst same
    rw [lookup_insert] at found
    cases found
    exact f
  · rw [lookup_insert_ne same] at found
    exact follows other v found

lemma Sound.did (s : Sound calendar r) (did : Did calendar r r') : Sound calendar r' := by
  cases did with
  | same counter grows =>
    exact ⟨s.follows, fun id member => Nat.lt_of_lt_of_le (s.fresh id member) grows, s.capped⟩
  | insert config ts startedAt accepted room =>
    constructor
    · exact follows_insert s.follows ⟨config, startedAt, [], accepted, run_nil _⟩
    · intro id member
      rcases (mem_insert _).mp member with rfl | old
      · exact Nat.lt_succ_self r.counter
      · exact Nat.lt_succ_of_lt (s.fresh id old)
    · exact Nat.le_trans (len_insert_le _ _) room
  | update id a w w' found stepped =>
    constructor
    · exact follows_insert s.follows ((s.follows id w found).step stepped)
    · intro other member
      rcases (mem_insert _).mp member with rfl | old
      · exact s.fresh other (mem_of_found found)
      · exact s.fresh other old
    · exact (len_insert_of_found found w').trans_le s.capped

lemma empty_sound : Sound calendar empty where
  follows id w found := by
    rw [empty, lookup_empty] at found
    cases found
  fresh id member := absurd member (notMem_empty id)
  capped := Nat.zero_le _

lemma run_sound {actions : List Action} (ran : run (step calendar) empty actions = some r) :
    Sound calendar r :=
  run_invariant (P := Sound calendar) (fun _ _ _ stepped s => s.did (step_did stepped)) ran
    empty_sound

lemma live_le_len (r : WatchdogRegistry) : r.live ≤ r.len := by
  rw [len, AList.keys, keys, length_map]
  exact countP_le_length

lemma live_eq_len : r.live = r.len ↔ ∀ e ∈ r.entries.entries, ¬ e.2.entry.state.isTerminal := by
  rw [len, AList.keys, keys, length_map, live, countP_eq_length]
  simp

lemma create_exceeds {config : SubmittedConfig} (accepted : validateConfig config = .ok ())
    (ts startedAt : Nat) :
    (r.create config ts startedAt).1 = .error .capacityExceeded ↔
      maxConcurrentWatchdogs ≤ r.len := by
  rw [create, accepted]
  dsimp only
  split
  · rename_i full
    exact iff_of_true rfl full
  · rename_i room
    exact iff_of_false nofun room

end WatchdogRegistry

/-- In every reachable state an accepted configuration is refused for capacity only
while as many watchdogs are alive as the cap allows, exactly when there are fewer
entries than that or none of them has ended. -/
theorem capacity_counts_live (calendar : Nat → LocalTime) (actions : List WatchdogRegistry.Action) :
    ∀ r, Runs.run (WatchdogRegistry.step calendar) .empty actions = some r →
      ∀ config : SubmittedConfig, validateConfig config = .ok () → ∀ ts startedAt,
        (((r.create config ts startedAt).1 = .error .capacityExceeded →
            maxConcurrentWatchdogs ≤ r.live) ↔
          (r.len < maxConcurrentWatchdogs ∨
            ∀ e ∈ r.entries.entries, ¬ e.2.entry.state.isTerminal)) := by
  intro r ran config accepted ts startedAt
  have capped := (WatchdogRegistry.run_sound ran).capped
  have bounded := r.live_le_len
  rw [WatchdogRegistry.create_exceeds accepted, ← WatchdogRegistry.live_eq_len]
  omega

def notifyAbove : SubmittedConfig where
  target := .mock 1
  trigger := { predicate := .gt 100, sustainedForMs := none }
  action := .notify
  stop := .untilCanceled
  name := "load".toList
  pollMs := 1000
  allowedTools := []
  u32_maxInterventions := nofun

/-- Created and canceled before the first tick. -/
def createAndCancel (seq : Nat) : List WatchdogRegistry.Action :=
  .create notifyAbove 0 0 ::
    [WatchdogRun.Action.work, .cancel, .cancelToken, .noticeCancel 0, .work].map
      (.watchdog ⟨0, seq⟩)

theorem one_ended_leaves_room :
    ∃ r, Runs.run (WatchdogRegistry.step firstOfApril) .empty (createAndCancel 0) = some r ∧
      (((r.create notifyAbove 0 0).1 = .error .capacityExceeded → maxConcurrentWatchdogs ≤ r.live) ↔
        (r.len < maxConcurrentWatchdogs ∨
          ∀ e ∈ r.entries.entries, ¬ e.2.entry.state.isTerminal)) := by
  have possible : (run (WatchdogRegistry.step firstOfApril) .empty
      (createAndCancel 0)).isSome = true := by decide +kernel
  obtain ⟨r, ran⟩ := Option.isSome_iff_exists.mp possible
  exact ⟨r, ran, capacity_counts_live firstOfApril (createAndCancel 0) r ran notifyAbove rfl 0 0⟩

/-- Sixteen watchdogs that have all been canceled leave no room for another one. -/
theorem ended_watchdogs_fill_registry :
    validateConfig notifyAbove = .ok () ∧
    (Runs.run (WatchdogRegistry.step firstOfApril) .empty
        ((List.range 16).flatMap createAndCancel)).map
      (fun r => ((r.create notifyAbove 0 0).1, r.live)) = some (.error .capacityExceeded, 0) :=
  ⟨rfl, by decide +kernel⟩

end Watchdog
