import KKTerm.Library.Runs
import Mathlib.Data.List.AList

/-!
# Flushing the queued writes

Before the database is exported, a flush sends every write that a timer still holds and
waits for what it sent. Here commands complete in any order, and may fail; each write of a
key has a number, so that what a command carries can be compared with what was written.
-/

namespace UiState.Flush

open Runs List AList

/-- What the timer of a key will write, and which write it was. -/
structure Pending where
  value : List Char
  serial : Nat
  deriving DecidableEq

inductive Status where
  | inFlight
  | completed
  | failed
  deriving DecidableEq

/-- A `set_durable_ui_state` command. -/
structure SetCommand where
  key : List Char
  value : List Char
  serial : Nat
  status : Status
  deriving DecidableEq

/-- A call of the flush: how many writes came before it, and the commands it waits for. -/
structure Call where
  before : Nat
  waits : List Nat
  deriving DecidableEq

structure State where
  /-- Every write so far, in order. -/
  written : List (List Char × List Char)
  pendingFlushes : AList (fun _ : List Char => Pending)
  commands : List SetCommand
  calls : List Call

def Pending.command (pending : Pending) (key : List Char) : SetCommand :=
  ⟨key, pending.value, pending.serial, .inFlight⟩

def SetCommand.finish (c : SetCommand) (ok : Bool) : SetCommand :=
  { c with status := if ok then .completed else .failed }

namespace State

def start : State :=
  ⟨[], ∅, [], []⟩

/-- A timer that the key already has is replaced. -/
def writeDurableUiState (s : State) (key value : List Char) : State :=
  { s with
    written := s.written ++ [(key, value)]
    pendingFlushes := s.pendingFlushes.insert key ⟨value, s.written.length⟩ }

/-- The timer forgets the write and sends it; nobody waits for the command. -/
def timer (s : State) (key : List Char) : Option State :=
  (s.pendingFlushes.lookup key).map (fun pending =>
    { s with
      pendingFlushes := s.pendingFlushes.erase key
      commands := s.commands ++ [pending.command key] })

def complete (s : State) (i : Nat) (ok : Bool) : Option State :=
  match s.commands[i]? with
  | none => none
  | some c =>
    if c.status = .inFlight then some { s with commands := s.commands.set i (c.finish ok) }
    else none

def queued (s : State) : List SetCommand :=
  s.pendingFlushes.entries.map (fun row => row.2.command row.1)

/-- With nothing queued the call waits for nothing. -/
def flushDurableUiState (s : State) : State :=
  { s with
    pendingFlushes := ∅
    commands := s.commands ++ s.queued
    calls := s.calls ++ [⟨s.written.length, List.range' s.commands.length s.queued.length⟩] }

end State

inductive Action where
  | write (key value : List Char)
  | timer (key : List Char)
  | complete (i : Nat) (ok : Bool)
  | flush
  deriving DecidableEq

def step (s : State) : Action → Option State
  | .write key value => some (s.writeDurableUiState key value)
  | .timer key => s.timer key
  | .complete i ok => s.complete i ok
  | .flush => some s.flushDurableUiState

namespace State

/-- The promise of a call resolves when all its commands have completed. -/
def Resolved (s : State) (call : Call) : Prop :=
  ∀ i ∈ call.waits, ∃ c, s.commands[i]? = some c ∧ c.status = .completed

/-- A command with that write of the key, or with a later one, has completed. -/
def Persisted (s : State) (n : Nat) (key : List Char) : Prop :=
  ∃ c ∈ s.commands, c.status = .completed ∧ c.key = key ∧ n ≤ c.serial ∧
    s.written[c.serial]? = some (c.key, c.value)

/-- Every write before the call, and so the last of each key, is persisted. -/
def Covered (s : State) (call : Call) : Prop :=
  ∀ n < call.before, ∀ key value, s.written[n]? = some (key, value) → s.Persisted n key

/-- Every key's last write is still queued or persisted: no timer has sent it in a command
that has not completed. -/
def Settled (s : State) : Prop :=
  ∀ n key value, s.written[n]? = some (key, value) →
    (∃ pending, s.pendingFlushes.lookup key = some pending ∧ n ≤ pending.serial) ∨
      s.Persisted n key

end State

/-- The same command, perhaps finished. -/
structure SetCommand.Becomes (c c' : SetCommand) : Prop where
  key : c'.key = c.key
  value : c'.value = c.value
  serial : c'.serial = c.serial
  completed : c.status = .completed → c'.status = .completed

/-- Writes are added, and commands are added or finished. -/
structure Grown (s s' : State) : Prop where
  written : s.written <+: s'.written
  commands : ∀ (i : Nat) (c : SetCommand), s.commands[i]? = some c →
    ∃ c', s'.commands[i]? = some c' ∧ c.Becomes c'

/-- What is queued and sent is what was written. -/
structure Valid (s : State) : Prop where
  pending : ∀ key p, s.pendingFlushes.lookup key = some p →
    s.written[p.serial]? = some (key, p.value)
  commands : ∀ c ∈ s.commands, s.written[c.serial]? = some (c.key, c.value)

/-- A write before the call is persisted or in a command that the call waits for. -/
def Owed (s : State) (call : Call) : Prop :=
  ∀ n < call.before, ∀ key value, s.written[n]? = some (key, value) → s.Persisted n key ∨
    ∃ i ∈ call.waits, ∃ c, s.commands[i]? = some c ∧ c.key = key ∧ n ≤ c.serial

variable {s s' : State}

variable {n : Nat} {a : Action} {sent : List SetCommand} {i : Nat} {ok : Bool} {c : SetCommand}

lemma getElem?_of_prefix {α : Type} {xs ys : List α} (extended : xs <+: ys) {a : α}
    (at_n : xs[n]? = some a) : ys[n]? = some a := by
  obtain ⟨rest, rfl⟩ := extended
  obtain ⟨bound, -⟩ := List.getElem?_eq_some_iff.mp at_n
  rw [getElem?_append_left bound]
  exact at_n

lemma Grown.of_append {written : List (List Char × List Char)}
    (first : s'.written = s.written ++ written) (second : s'.commands = s.commands ++ sent) :
    Grown s s' where
  written := ⟨written, first.symm⟩
  commands i c at_i := by
    refine ⟨c, ?_, rfl, rfl, rfl, id⟩
    rw [second]
    exact getElem?_of_prefix (prefix_append _ _) at_i

lemma Grown.persisted (grown : Grown s s') {key : List Char} (before : s.Persisted n key) :
    s'.Persisted n key := by
  obtain ⟨c, member, completed, same, late, source⟩ := before
  obtain ⟨i, at_i⟩ := getElem?_of_mem member
  obtain ⟨c', at_i', becomes⟩ := grown.commands i c at_i
  refine ⟨c', mem_of_getElem? at_i', becomes.completed completed, becomes.key.trans same,
    becomes.serial ▸ late, ?_⟩
  rw [becomes.key, becomes.value, becomes.serial]
  exact getElem?_of_prefix grown.written source

lemma Grown.owed (grown : Grown s s') {call : Call} (bound : call.before ≤ s.written.length)
    (owed : Owed s call) : Owed s' call := by
  intro n early key value at_n
  have old : s.written[n]? = some (key, value) := by
    obtain ⟨rest, same⟩ := grown.written
    rw [← same, getElem?_append_left (by omega)] at at_n
    exact at_n
  rcases owed n early key value old with persisted | ⟨i, waited, c, at_i, same, late⟩
  · exact .inl (grown.persisted persisted)
  · obtain ⟨c', at_i', becomes⟩ := grown.commands i c at_i
    exact .inr ⟨i, waited, c', at_i', becomes.key.trans same, becomes.serial ▸ late⟩

lemma complete_eq_some :
    s.complete i ok = some s' ↔ ∃ c, s.commands[i]? = some c ∧ c.status = .inFlight ∧
      s' = { s with commands := s.commands.set i (c.finish ok) } := by
  rw [State.complete]
  cases s.commands[i]? with
  | none => exact ⟨nofun, fun ⟨c, at_i, _⟩ => nomatch at_i⟩
  | some c =>
    simp only [Option.ite_none_right_eq_some, Option.some.injEq, exists_eq_left']
    exact and_congr_right (fun _ => eq_comm)

lemma grown_complete (at_i : s.commands[i]? = some c) (flying : c.status = .inFlight) :
    Grown s { s with commands := s.commands.set i (c.finish ok) } where
  written := prefix_rfl
  commands j d at_j := by
    rw [getElem?_set]
    split_ifs with equal bound
    · subst equal
      rw [at_i] at at_j
      cases at_j
      refine ⟨_, rfl, rfl, rfl, rfl, fun completed => ?_⟩
      rw [flying] at completed
      cases completed
    · subst equal
      exact absurd (List.getElem?_eq_some_iff.mp at_i).1 bound
    · exact ⟨d, at_j, rfl, rfl, rfl, id⟩

lemma step_grown (taken : step s a = some s') : Grown s s' := by
  cases a with
  | write key value =>
    cases taken
    exact .of_append rfl (append_nil _).symm
  | timer key =>
    obtain ⟨p, -, rfl⟩ := Option.map_eq_some_iff.mp taken
    exact .of_append (append_nil _).symm rfl
  | complete i ok =>
    obtain ⟨c, at_i, flying, rfl⟩ := complete_eq_some.mp taken
    exact grown_complete at_i flying
  | flush =>
    cases taken
    exact .of_append (append_nil _).symm rfl

lemma mem_queued :
    c ∈ s.queued ↔ ∃ key p, s.pendingFlushes.lookup key = some p ∧ p.command key = c := by
  rw [State.queued, mem_map]
  constructor
  · rintro ⟨⟨key, p⟩, member, rfl⟩
    exact ⟨key, p, mem_lookup_iff.mpr member, rfl⟩
  · rintro ⟨key, p, found, rfl⟩
    exact ⟨⟨key, p⟩, mem_lookup_iff.mp found, rfl⟩

lemma step_valid (taken : step s a = some s') (valid : Valid s) : Valid s' := by
  cases a with
  | write key value =>
    cases taken
    refine ⟨fun k p found => ?_, fun c member => ?_⟩
    · by_cases same : k = key
      · subst same
        rw [State.writeDurableUiState, lookup_insert] at found
        cases found
        exact getElem?_concat_length
      · rw [State.writeDurableUiState, lookup_insert_ne same] at found
        exact getElem?_of_prefix (prefix_append _ _) (valid.pending k p found)
    · exact getElem?_of_prefix (prefix_append _ _) (valid.commands c member)
  | timer key =>
    obtain ⟨p, found, rfl⟩ := Option.map_eq_some_iff.mp taken
    refine ⟨fun k q kept => ?_, fun c member => ?_⟩
    · by_cases same : k = key
      · subst same
        rw [lookup_erase] at kept
        cases kept
      · rw [lookup_erase_ne same] at kept
        exact valid.pending k q kept
    · rcases mem_append.mp member with old | new
      · exact valid.commands c old
      · rw [mem_singleton.mp new]
        exact valid.pending key p found
  | complete i ok =>
    obtain ⟨c, at_i, -, rfl⟩ := complete_eq_some.mp taken
    refine ⟨valid.pending, fun d member => ?_⟩
    rcases mem_or_eq_of_mem_set member with old | rfl
    · exact valid.commands d old
    · exact valid.commands c (mem_of_getElem? at_i)
  | flush =>
    cases taken
    refine ⟨fun k p found => ?_, fun c member => ?_⟩
    · rw [State.flushDurableUiState, lookup_empty] at found
      cases found
    · rcases mem_append.mp member with old | new
      · exact valid.commands c old
      · obtain ⟨key, p, found, rfl⟩ := mem_queued.mp new
        exact valid.pending key p found

def State.call (s : State) : Call :=
  ⟨s.written.length, List.range' s.commands.length s.queued.length⟩

lemma step_calls (taken : step s a = some s') :
    s'.calls = s.calls ∨ a = .flush ∧ s'.calls = s.calls ++ [s.call] := by
  cases a with
  | write key value =>
    cases taken
    exact .inl rfl
  | timer key =>
    obtain ⟨p, -, rfl⟩ := Option.map_eq_some_iff.mp taken
    exact .inl rfl
  | complete i ok =>
    obtain ⟨c, -, -, rfl⟩ := complete_eq_some.mp taken
    exact .inl rfl
  | flush =>
    cases taken
    exact .inr ⟨rfl, rfl⟩

/-- What is queued when the flush is called goes into commands that the call waits for. -/
lemma owed_call (settled : s.Settled) : Owed s.flushDurableUiState s.call := by
  intro n early key value at_n
  have grown : Grown s s.flushDurableUiState := step_grown (a := .flush) rfl
  rcases settled n key value at_n with ⟨p, found, late⟩ | persisted
  · obtain ⟨j, at_j⟩ := getElem?_of_mem (mem_queued.mpr ⟨key, p, found, rfl⟩)
    obtain ⟨bound, -⟩ := List.getElem?_eq_some_iff.mp at_j
    refine Or.inr ⟨s.commands.length + j, ?_, p.command key, ?_, rfl, late⟩
    · exact mem_range'_1.mpr ⟨Nat.le_add_right _ _, Nat.add_lt_add_left bound _⟩
    · rw [State.flushDurableUiState, getElem?_append_right (Nat.le_add_right _ _),
        Nat.add_sub_cancel_left]
      exact at_j
  · exact .inl (grown.persisted persisted)

lemma covered_of_owed {call : Call} (valid : Valid s) (owed : Owed s call)
    (resolved : s.Resolved call) : s.Covered call := by
  intro n early key value at_n
  rcases owed n early key value at_n with persisted | ⟨i, waited, c, at_i, same, late⟩
  · exact persisted
  · obtain ⟨c', at_i', completed⟩ := resolved i waited
    cases at_i.symm.trans at_i'
    have member := mem_of_getElem? at_i
    exact ⟨c, member, completed, same, late, valid.commands c member⟩

/-- Calls of the flush are made when every key's last write is queued or persisted. -/
def WhenSettled (s : State) (a : Action) : Prop :=
  a = .flush → s.Settled

structure Sound (s : State) : Prop where
  valid : Valid s
  calls : ∀ call ∈ s.calls, call.before ≤ s.written.length ∧ Owed s call

lemma step_sound (taken : step s a = some s') (settled : WhenSettled s a) (sound : Sound s) :
    Sound s' := by
  have grown := step_grown taken
  refine ⟨step_valid taken sound.valid, fun call member => ?_⟩
  have old : call ∈ s.calls → call.before ≤ s'.written.length ∧ Owed s' call := by
    intro member
    obtain ⟨bound, owed⟩ := sound.calls call member
    exact ⟨Nat.le_trans bound grown.written.length_le, grown.owed bound owed⟩
  rcases step_calls taken with same | ⟨rfl, same⟩
  · exact old (same ▸ member)
  · rw [same] at member
    rcases mem_append.mp member with before | last
    · exact old before
    · cases taken
      rw [mem_singleton.mp last]
      exact ⟨Nat.le_refl _, owed_call (settled rfl)⟩

lemma sound_start : Sound .start where
  valid := by
    refine ⟨fun _ p found => ?_, fun _ member => absurd member not_mem_nil⟩
    have none_ : (none : Option Pending) = some p := found
    cases none_
  calls _ member := absurd member not_mem_nil

lemma covered_of_run {actions : List Action} (settled : Along step WhenSettled .start actions)
    (ran : run step .start actions = some s) {call : Call} (made : call ∈ s.calls)
    (resolved : s.Resolved call) : s.Covered call := by
  have sound : Sound s := along_invariant (fun s a s' taken settled sound =>
    step_sound taken settled sound) settled ran sound_start
  exact covered_of_owed sound.valid (sound.calls call made).2 resolved

lemma run_complete {s : State} {front : List SetCommand} (commands : s.commands = front ++ sent)
    (flying : ∀ c ∈ sent, c.status = .inFlight) :
    run step s ((range' front.length sent.length).map (Action.complete · true)) =
      some { s with commands := front ++ sent.map (·.finish true) } := by
  induction sent generalizing s front with
  | nil =>
    rw [append_nil] at commands
    rw [map_nil, append_nil, ← commands]
    rfl
  | cons c sent ih =>
    obtain ⟨first, rest⟩ := forall_mem_cons.mp flying
    have at_c : s.commands[front.length]? = some c := by
      rw [commands, getElem?_append_right (Nat.le_refl _), Nat.sub_self]
      rfl
    have taken : step s (.complete front.length true) =
        some { s with commands := (front ++ [c.finish true]) ++ sent } := by
      refine complete_eq_some.mpr ⟨c, at_c, first, ?_⟩
      rw [commands, set_append_right _ _ (Nat.le_refl _), Nat.sub_self, set_cons_zero, append_assoc]
      rfl
    have later := ih (s := { s with commands := (front ++ [c.finish true]) ++ sent }) rfl rest
    rw [length_append, length_singleton] at later
    rw [length_cons, range'_succ, map_cons]
    refine run_cons_eq_some.mpr ⟨_, taken, later.trans ?_⟩
    have same : front ++ [c.finish true] ++ sent.map (·.finish true) =
        front ++ (c :: sent).map (·.finish true) := by
      rw [map_cons, append_assoc]
      rfl
    rw [same]

/-- Called in any other state, the promise can resolve with a write that is not persisted. -/
lemma uncovered_of_not_settled (unsettled : ¬ s.Settled) :
    ∃ actions s', run step s (.flush :: actions) = some s' ∧ s.call ∈ s'.calls ∧
      s'.Resolved s.call ∧ ¬ s'.Covered s.call := by
  have flying : ∀ c ∈ s.queued, c.status = .inFlight := by
    intro c member
    obtain ⟨key, p, -, rfl⟩ := mem_queued.mp member
    rfl
  have ran := run_complete (s := s.flushDurableUiState) rfl flying
  refine ⟨_, _, run_cons_eq_some.mpr ⟨_, rfl, ran⟩,
    mem_append_right _ (mem_singleton.mpr rfl), fun i waited => ?_, fun covered => ?_⟩
  · obtain ⟨low, high⟩ := mem_range'_1.mp waited
    have inside : i - s.commands.length < s.queued.length := by omega
    refine ⟨s.queued[i - s.commands.length].finish true, ?_, rfl⟩
    rw [getElem?_append_right low, getElem?_map, getElem?_eq_getElem inside, Option.map_some]
  · refine unsettled (fun n key value at_n => ?_)
    obtain ⟨early, -⟩ := List.getElem?_eq_some_iff.mp at_n
    obtain ⟨c, member, completed, same, late, source⟩ := covered n early key value at_n
    rcases mem_append.mp member with old | sent
    · exact .inr ⟨c, old, completed, same, late, source⟩
    · obtain ⟨c, queued, rfl⟩ := mem_map.mp sent
      obtain ⟨k, p, found, rfl⟩ := mem_queued.mp queued
      cases (show k = key from same)
      exact .inl ⟨p, found, late⟩

/-- A flush is a barrier in every run that calls it only when each key's last write is queued
or persisted, and called in any other state it need not be one. -/
theorem flush_isBarrier (actions : List Action) (s : State) :
    (Along step WhenSettled .start actions → run step .start actions = some s →
      ∀ call ∈ s.calls, s.Resolved call → s.Covered call) ∧
    (¬ s.Settled → ∃ actions s', run step s (.flush :: actions) = some s' ∧
      s.call ∈ s'.calls ∧ s'.Resolved s.call ∧ ¬ s'.Covered s.call) :=
  ⟨fun settled ran _ made resolved => covered_of_run settled ran made resolved,
    fun unsettled => uncovered_of_not_settled unsettled⟩

def rackFacing : List Char :=
  "kkterm.itopsRackFacing".toList

/-- The timer has sent the write, so the flush waits for nothing. -/
theorem flush_resolves_before_write :
    ∃ s, run step .start [.write rackFacing "rear".toList, .timer rackFacing, .flush] = some s ∧
      ∃ call ∈ s.calls, s.Resolved call ∧ ¬ s.Covered call := by
  refine ⟨_, rfl, ⟨1, []⟩, mem_singleton.mpr rfl, fun i waited => ?_, fun covered => ?_⟩
  · exact absurd waited not_mem_nil
  · obtain ⟨c, member, completed, -⟩ := covered 0 Nat.one_pos rackFacing "rear".toList rfl
    cases mem_singleton.mp member
    cases completed

end UiState.Flush
