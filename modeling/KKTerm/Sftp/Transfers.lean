import KKTerm.Library.Runs
import KKTerm.Library.Text

/-!
# Cancelling SFTP transfers

Transfers run side by side. Each puts a token under its id into a registry when it begins
and takes the id out when it is over; a call that names the id cancels the token it finds.
Registration, look-up and removal lock the registry one by one, so they come in any order.
-/

namespace Sftp.Transfers

open Runs List Text

inductive OverwriteBehavior where
  | fail
  | overwrite
  deriving DecidableEq

/-- No letter outside ASCII is the capital of a letter of these words. -/
def normalizeOverwriteBehavior (value : Option (List Char)) :
    Except (List Char) OverwriteBehavior :=
  let given := (value.map trim).filter (fun text => !text.isEmpty)
  let word := asciiLower (given.getD "fail".toList)
  if word ∈ ["fail".toList, "error".toList, "never".toList] then .ok .fail
  else if word ∈ ["overwrite".toList, "replace".toList] then .ok .overwrite
  else .error "SFTP overwrite behavior must be fail or overwrite".toList

inductive Direction where
  | upload
  | download
  deriving DecidableEq

structure Transfer where
  direction : Direction
  /-- The id as the caller wrote it. -/
  id : List Char
  running : Bool
  deriving DecidableEq

/-- The token of a transfer is its number. -/
structure State where
  registry : List Char → Option Nat
  transfers : List Transfer
  cancelled : List Nat

def State.start : State where
  registry _ := none
  transfers := []
  cancelled := []

namespace State

def registerTransfer (s : State) (direction : Direction) (transferId : List Char) :
    Except (List Char) State :=
  let key := trim transferId
  if key = [] then .error "SFTP transfer id cannot be blank".toList
  else .ok { s with
    registry := fun id => if id = key then some s.transfers.length else s.registry id
    transfers := s.transfers ++ [⟨direction, transferId, true⟩] }

/-- An upload or a download up to the point from which it can be cancelled. -/
def beginTransfer (s : State) (direction : Direction) (overwriteBehavior : Option (List Char))
    (transferId : List Char) : Except (List Char) State := do
  let _ ← normalizeOverwriteBehavior overwriteBehavior
  s.registerTransfer direction transferId

def finishTransfer (s : State) (token : Nat) (t : Transfer) : State :=
  { s with
    registry := fun id => if id = t.id then none else s.registry id
    transfers := s.transfers.set token { t with running := false } }

def cancelTransfer (s : State) (transferId : List Char) : State :=
  match s.registry transferId with
  | some token => { s with cancelled := token :: s.cancelled }
  | none => s

end State

inductive Action where
  | transfer (direction : Direction) (overwriteBehavior : Option (List Char))
      (transferId : List Char)
  | finish (token : Nat)
  | cancel (transferId : List Char)

/-- A call that is refused changes nothing. -/
def step (s : State) : Action → Option State
  | .transfer direction overwriteBehavior transferId =>
    match s.beginTransfer direction overwriteBehavior transferId with
    | .ok s' => some s'
    | .error _ => some s
  | .finish token =>
    match s.transfers[token]? with
    | some t => if t.running then some (s.finishTransfer token t) else none
    | none => none
  | .cancel transferId => some (s.cancelTransfer transferId)

/-- The transfer with this token runs and was started under this id. -/
def State.Runs (s : State) (token : Nat) (id : List Char) : Prop :=
  ∃ t, s.transfers[token]? = some t ∧ t.running = true ∧ t.id = id

/-- A call reaches the transfers that run under the id it names and no others, and an idle
registry is empty. -/
structure State.Faithful (s : State) : Prop where
  reaches : ∀ id token, s.Runs token id → token ∈ (s.cancelTransfer id).cancelled
  others : ∀ id token, token ∈ (s.cancelTransfer id).cancelled → token ∉ s.cancelled →
    ∃ t, s.transfers[token]? = some t ∧ t.id = id
  empty : (∀ token id, ¬ s.Runs token id) → ∀ id, s.registry id = none

/-- The id is written without white space around it and no running transfer has it. -/
def State.Admits (s : State) (id : List Char) : Prop :=
  trim id = id ∧ ∀ token, ¬ s.Runs token id

/-- Only ids that are admitted are used. -/
def WhenAdmitted (s : State) (a : Action) : Prop :=
  ∀ direction overwriteBehavior id, a = .transfer direction overwriteBehavior id →
    (∃ s', s.beginTransfer direction overwriteBehavior id = .ok s') → s.Admits id

variable {s s' : State} {direction : Direction} {overwriteBehavior : Option (List Char)}
  {id : List Char} {token : Nat} {t : Transfer}

lemma begin_eq_ok (began : s.beginTransfer direction overwriteBehavior id = .ok s') :
    trim id ≠ [] ∧ s' = { s with
      registry := fun other =>
        if other = trim id then some s.transfers.length else s.registry other
      transfers := s.transfers ++ [⟨direction, id, true⟩] } := by
  rw [State.beginTransfer] at began
  cases chosen : normalizeOverwriteBehavior overwriteBehavior with
  | error e =>
    rw [chosen] at began
    cases began
  | ok behavior =>
    rw [chosen] at began
    change s.registerTransfer direction id = .ok s' at began
    rw [State.registerTransfer] at began
    split_ifs at began with blank
    cases began
    exact ⟨blank, rfl⟩

variable {a : Action} {other : List Char}

lemma step_cases (taken : step s a = some s') :
    s' = s ∨
    (∃ direction overwriteBehavior id, a = .transfer direction overwriteBehavior id ∧
      s.beginTransfer direction overwriteBehavior id = .ok s') ∨
    (∃ token t, a = .finish token ∧ s.transfers[token]? = some t ∧ t.running = true ∧
      s' = s.finishTransfer token t) ∨
    ∃ id token, a = .cancel id ∧ s.registry id = some token ∧
      s' = { s with cancelled := token :: s.cancelled } := by
  cases a with
  | transfer direction overwriteBehavior id =>
    rw [step] at taken
    cases began : s.beginTransfer direction overwriteBehavior id with
    | error e =>
      rw [began] at taken
      cases taken
      exact .inl rfl
    | ok s'' =>
      rw [began] at taken
      cases taken
      exact .inr (.inl ⟨direction, overwriteBehavior, id, rfl, began⟩)
  | finish token =>
    rw [step] at taken
    cases found : s.transfers[token]? with
    | none =>
      rw [found] at taken
      cases taken
    | some t =>
      rw [found] at taken
      simp only [Option.ite_none_right_eq_some, Option.some.injEq] at taken
      obtain ⟨running, rfl⟩ := taken
      exact .inr (.inr (.inl ⟨token, t, rfl, found, running, rfl⟩))
  | cancel id =>
    cases taken
    rw [State.cancelTransfer]
    cases found : s.registry id with
    | none => exact .inl rfl
    | some token => exact .inr (.inr (.inr ⟨id, token, rfl, found, rfl⟩))

lemma runs_begin (began : s.beginTransfer direction overwriteBehavior id = .ok s') :
    s'.Runs token other ↔ s.Runs token other ∨ (token = s.transfers.length ∧ other = id) := by
  obtain ⟨-, rfl⟩ := begin_eq_ok began
  simp only [State.Runs]
  rcases Nat.lt_trichotomy token s.transfers.length with before | rfl | after
  · rw [getElem?_append_left before]
    simp [Nat.ne_of_lt before]
  · rw [getElem?_concat_length, getElem?_eq_none (Nat.le_refl _)]
    simp only [Option.some.injEq, exists_eq_left', true_and, reduceCtorEq, false_and, exists_false,
      false_or]
    exact eq_comm
  · rw [getElem?_eq_none (by simp; omega), getElem?_eq_none (by omega)]
    simp [Nat.ne_of_gt after]

lemma runs_finish {n : Nat} (found : s.transfers[token]? = some t) :
    (s.finishTransfer token t).Runs n other ↔ n ≠ token ∧ s.Runs n other := by
  simp only [State.Runs, State.finishTransfer]
  by_cases same : n = token
  · subst same
    obtain ⟨inside, -⟩ := List.getElem?_eq_some_iff.mp found
    simp [getElem?_set_self inside]
  · rw [getElem?_set_ne (Ne.symm same)]
    simp [same]

/-- The registry holds what runs, and only tokens that exist have been cancelled. -/
structure Sound (s : State) : Prop where
  registered : ∀ id token, s.registry id = some token ↔ s.Runs token id
  cancelled : ∀ token ∈ s.cancelled, token < s.transfers.length

lemma sound_start : Sound .start where
  registered id token := by simp [State.start, State.Runs]
  cancelled token member := absurd member not_mem_nil

lemma Sound.begin_ (sound : Sound s) (admits : s.Admits id)
    (began : s.beginTransfer direction overwriteBehavior id = .ok s') : Sound s' where
  registered other token := by
    rw [runs_begin began]
    obtain ⟨-, rfl⟩ := begin_eq_ok began
    simp only [admits.1]
    by_cases same : other = id
    · subst same
      have fresh := admits.2 token
      simp [fresh, eq_comm]
    · have known := sound.registered other token
      simp [same, known]
  cancelled token member := by
    obtain ⟨-, rfl⟩ := begin_eq_ok began
    have before := sound.cancelled token member
    simp only [length_append, length_singleton]
    omega

lemma Sound.finish (sound : Sound s) (found : s.transfers[token]? = some t)
    (running : t.running = true) : Sound (s.finishTransfer token t) where
  registered other n := by
    have here : s.registry t.id = some token := (sound.registered _ _).mpr ⟨t, found, running, rfl⟩
    rw [runs_finish found]
    simp only [State.finishTransfer]
    by_cases same : other = t.id
    · subst same
      simp only [if_true, reduceCtorEq, false_iff, not_and]
      intro different runs
      have there := (sound.registered _ _).mpr runs
      exact different (Option.some.inj (there.symm.trans here))
    · rw [if_neg same, sound.registered]
      constructor
      · rintro ⟨t', found', runs⟩
        refine ⟨?_, t', found', runs⟩
        rintro rfl
        cases found.symm.trans found'
        exact same runs.2.symm
      · exact fun h => h.2
  cancelled n member := by
    simp only [State.finishTransfer, length_set]
    exact sound.cancelled n member

lemma Sound.cancel (sound : Sound s) (found : s.registry id = some token) :
    Sound { s with cancelled := token :: s.cancelled } where
  registered := sound.registered
  cancelled n member := by
    rcases mem_cons.mp member with rfl | before
    · obtain ⟨t, at_n, -⟩ := (sound.registered id n).mp found
      exact (List.getElem?_eq_some_iff.mp at_n).1
    · exact sound.cancelled n before

lemma step_sound (taken : step s a = some s') (admitted : WhenAdmitted s a) (sound : Sound s) :
    Sound s' := by
  rcases step_cases taken with rfl | ⟨direction, overwriteBehavior, id, rfl, began⟩ |
    ⟨token, t, rfl, found, running, rfl⟩ | ⟨id, token, rfl, found, rfl⟩
  · exact sound
  · exact sound.begin_ (admitted _ _ _ rfl ⟨s', began⟩) began
  · exact sound.finish found running
  · exact sound.cancel found

lemma Sound.faithful (sound : Sound s) : s.Faithful where
  reaches id token runs := by
    have found := (sound.registered id token).mpr runs
    simp [State.cancelTransfer, found]
  others id token reached untouched := by
    cases found : s.registry id with
    | none =>
      simp only [State.cancelTransfer, found] at reached
      exact absurd reached untouched
    | some n =>
      simp only [State.cancelTransfer, found] at reached
      rcases mem_cons.mp reached with rfl | before
      · obtain ⟨t, at_n, -, same⟩ := (sound.registered id token).mp found
        exact ⟨t, at_n, same⟩
      · exact absurd before untouched
  empty idle id := by
    cases found : s.registry id with
    | none => rfl
    | some token => exact absurd ((sound.registered id token).mp found) (idle token id)

/-- A transfer that runs under an id the registry does not hold is not reached. -/
lemma not_faithful_of_missing (runs : s.Runs token id) (missing : s.registry id = none)
    (untouched : token ∉ s.cancelled) : ¬ s.Faithful := by
  intro faithful
  have reached := faithful.reaches id token runs
  simp only [State.cancelTransfer, missing] at reached
  exact untouched reached

/-- A call that names an id with white space around it does not reach its transfer. -/
lemma padded_unfaithful (sound : Sound s) (padded : trim id ≠ id)
    (began : s.beginTransfer direction overwriteBehavior id = .ok s') : ¬ s'.Faithful := by
  have new : s'.Runs s.transfers.length id := (runs_begin began).mpr (.inr ⟨rfl, rfl⟩)
  obtain ⟨-, rfl⟩ := begin_eq_ok began
  intro faithful
  have reached := faithful.reaches id _ new
  have fresh : s.transfers.length ∉ s.cancelled := fun member =>
    Nat.lt_irrefl _ (sound.cancelled _ member)
  simp only [State.cancelTransfer, Ne.symm padded, if_false] at reached
  cases found : s.registry id with
  | none =>
    simp only [found] at reached
    exact fresh reached
  | some token =>
    simp only [found] at reached
    rcases mem_cons.mp reached with rfl | before
    · obtain ⟨t, at_n, -⟩ := (sound.registered _ _).mp found
      have inside := (List.getElem?_eq_some_iff.mp at_n).1
      omega
    · exact fresh before

/-- The transfer that ends first takes the token of the other out of the registry. -/
lemma repeated_unfaithful (sound : Sound s) (runs : s.Runs token id)
    (began : s.beginTransfer direction overwriteBehavior id = .ok s') :
    ∃ s'', step s' (.finish token) = some s'' ∧ ¬ s''.Faithful := by
  have new : s'.Runs s.transfers.length id := (runs_begin began).mpr (.inr ⟨rfl, rfl⟩)
  obtain ⟨t, found, running, named⟩ := (runs_begin began).mpr (.inl runs)
  have older : s.transfers.length ≠ token := by
    obtain ⟨t, at_n, -⟩ := runs
    have inside := (List.getElem?_eq_some_iff.mp at_n).1
    omega
  have fresh : s.transfers.length ∉ s'.cancelled := by
    obtain ⟨-, rfl⟩ := begin_eq_ok began
    exact fun member => Nat.lt_irrefl _ (sound.cancelled _ member)
  refine ⟨s'.finishTransfer token t, ?_, ?_⟩
  · simp [step, found, running]
  · have later := (runs_finish found).mpr ⟨older, new⟩
    refine not_faithful_of_missing later ?_ fresh
    simp [State.finishTransfer, named]

/-- While every id that is used is admitted, calls are faithful; the first that is not leads to
a state in which they are not. -/
theorem cancellation_reaches {actions : List Action}
    (admitted : Along step WhenAdmitted .start actions)
    (ran : run step .start actions = some s) :
    s.Faithful ∧ ∀ direction overwriteBehavior id s',
      s.beginTransfer direction overwriteBehavior id = .ok s' → ¬ s.Admits id →
        ∃ more s'', run step s' more = some s'' ∧ ¬ s''.Faithful := by
  have sound : Sound s := along_invariant (fun s a s' taken admitted sound =>
    step_sound taken admitted sound) admitted ran sound_start
  refine ⟨sound.faithful, fun direction overwriteBehavior id s' began other => ?_⟩
  by_cases plain : trim id = id
  · obtain ⟨token, runs⟩ : ∃ token, s.Runs token id := by
      by_contra none_
      exact other ⟨plain, fun token runs => none_ ⟨token, runs⟩⟩
    obtain ⟨s'', taken, unfaithful⟩ := repeated_unfaithful sound runs began
    exact ⟨[.finish token], s'', run_cons_eq_some.mpr ⟨s'', taken, rfl⟩, unfaithful⟩
  · exact ⟨[], s', rfl, padded_unfaithful sound plain began⟩

def uploadOne : List Action :=
  [.transfer .upload none ['a'], .cancel ['a']]

theorem uploadOne_reaches : ∃ s, run step .start uploadOne = some s ∧ s.Faithful := by
  suffices admitted : Along step WhenAdmitted .start uploadOne from
    ⟨_, rfl, (cancellation_reaches admitted rfl).1⟩
  refine ⟨?_, fun s' taken => ⟨?_, fun _ _ => trivial⟩⟩
  · rintro _ _ _ ⟨⟩ -
    refine ⟨by decide, fun token runs => ?_⟩
    obtain ⟨t, found, -⟩ := runs
    cases found
  · rintro _ _ _ ⟨⟩

/-- The id is registered without its blank, so the call that names it finds nothing. -/
theorem padded_id_not_cancelled : ∃ s,
    run step .start [.transfer .upload none [' ', 'a']] = some s ∧ ¬ s.Faithful := by
  refine ⟨_, rfl, fun faithful => ?_⟩
  have reached := faithful.reaches [' ', 'a'] 0 ⟨_, rfl, rfl, rfl⟩
  cases reached

/-- The registry holds under an id a transfer that was started under it, and what is cancelled was
named by a call. -/
structure Asked (actions : List Action) (s : State) : Prop where
  registered : ∀ id token, s.registry id = some token →
    ∃ t, s.transfers[token]? = some t ∧ trim t.id = id
  cancelled : ∀ token ∈ s.cancelled,
    ∃ t, s.transfers[token]? = some t ∧ .cancel (trim t.id) ∈ actions

lemma step_id {n : Nat} (taken : step s a = some s') (found : s.transfers[n]? = some t) :
    ∃ t', s'.transfers[n]? = some t' ∧ t'.id = t.id := by
  have inside := (List.getElem?_eq_some_iff.mp found).1
  rcases step_cases taken with rfl | ⟨direction, overwriteBehavior, id, rfl, began⟩ |
    ⟨token, old, rfl, at_token, running, rfl⟩ | ⟨id, token, rfl, held, rfl⟩
  · exact ⟨t, found, rfl⟩
  · obtain ⟨-, rfl⟩ := begin_eq_ok began
    exact ⟨t, (getElem?_append_left inside).trans found, rfl⟩
  · by_cases same : token = n
    · subst same
      cases found.symm.trans at_token
      exact ⟨_, getElem?_set_self inside, rfl⟩
    · exact ⟨t, (getElem?_set_ne same).trans found, rfl⟩
  · exact ⟨t, found, rfl⟩

lemma Asked.step {actions : List Action} (asked : Asked actions s) (member : a ∈ actions)
    (taken : step s a = some s') : Asked actions s' := by
  have still : ∀ (n : Nat) (p : List Char → Prop),
      (∃ t, s.transfers[n]? = some t ∧ p t.id) → ∃ t, s'.transfers[n]? = some t ∧ p t.id := by
    rintro n p ⟨t, found, holds⟩
    obtain ⟨t', found', same⟩ := step_id taken found
    exact ⟨t', found', same ▸ holds⟩
  have registered := fun id n held => still n (trim · = id) (asked.registered id n held)
  have cancelled := fun n past => still n (fun id => .cancel (trim id) ∈ actions) (asked.cancelled n past)
  rcases step_cases taken with rfl | ⟨direction, overwriteBehavior, started, rfl, began⟩ |
    ⟨token, t, rfl, found, running, rfl⟩ | ⟨id, token, rfl, held, rfl⟩
  · exact asked
  · obtain ⟨-, rfl⟩ := begin_eq_ok began
    refine ⟨fun id n held => ?_, cancelled⟩
    dsimp only at held
    split at held
    · rename_i same
      cases held
      exact ⟨_, getElem?_concat_length, same.symm⟩
    · exact registered id n held
  · refine ⟨fun id n held => ?_, cancelled⟩
    dsimp only [State.finishTransfer] at held
    split at held
    · cases held
    · exact registered id n held
  · refine ⟨registered, fun n reached => ?_⟩
    rcases mem_cons.mp reached with rfl | past
    · obtain ⟨t, found, named⟩ := asked.registered id n held
      exact ⟨t, found, named.symm ▸ member⟩
    · exact cancelled n past

/-- Whatever ids are used, a transfer is cancelled only by a call that names its id without the
white space around it. -/
theorem cancelled_was_named {actions : List Action} (ran : run step .start actions = some s)
    (cancelled : token ∈ s.cancelled) :
    ∃ t, s.transfers[token]? = some t ∧ .cancel (trim t.id) ∈ actions := by
  have asked : Asked actions s := along_invariant
    (fun s a s' taken member asked => asked.step member taken)
    (along_of_forall (C := fun _ a => a ∈ actions) (fun a member s => member) State.start) ran
    ⟨fun id token held => (by cases held), fun token member => (by cases member)⟩
  exact asked.cancelled token cancelled

theorem uploadOne_was_named : ∃ s, run step .start uploadOne = some s ∧
    ∃ t, s.transfers[0]? = some t ∧ .cancel (trim t.id) ∈ uploadOne :=
  ⟨_, rfl, cancelled_was_named rfl mem_cons_self⟩

end Sftp.Transfers
