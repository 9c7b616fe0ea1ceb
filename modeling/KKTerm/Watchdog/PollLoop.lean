import KKTerm.Library.Edges
import KKTerm.Library.Runs
import KKTerm.Watchdog.LogFile

/-!
# Cron schedules

Five fields (minute, hour, day of month, month, weekday), each a list of `*`,
numbers and ranges with an optional step. Weekday 7 also means Sunday.
-/

namespace Watchdog

open Text

def u32Max : Nat := 4294967295

def parseU32 (t : List Char) : Option Nat :=
  parseUnsigned u32Max t

/-- The broken-down time of a minute; `weekday` counts from Sunday. -/
structure LocalTime where
  minute : Nat
  hour : Nat
  day : Nat
  month : Nat
  weekday : Nat

def cronPartIsValid (part : List Char) : Bool :=
  if part = ['*'] then true
  else
    let (range, stepOk) := match splitOnce '/' part with
      | some (range, step) => (range, ((parseU32 step).map (fun s => decide (0 < s))).getD false)
      | none => (part, true)
    if !stepOk then false
    else if range = ['*'] then true
    else
      match splitOnce '-' range with
      | some (low, high) => (parseU32 low).isSome && (parseU32 high).isSome
      | none => (parseU32 range).isSome

def validateCron (cron : List Char) : Except String Unit := do
  let fields := splitWhitespace cron
  if fields.length ≠ 5 then
    throw s!"cron must have 5 fields (minute hour day month weekday), got {fields.length}"
  for field in fields do
    for part in split ',' field do
      if !cronPartIsValid (trim part) then
        throw s!"invalid cron field: {String.ofList part}"

/-- The range before the step, with the step. -/
def cronPartStep (part : List Char) : Option (List Char × Nat) :=
  match splitOnce '/' part with
  | some (range, step) => do
    let step ← parseU32 step
    if 0 < step then some (range, step) else none
  | none => some (part, 1)

def cronRange (range : List Char) : Option (Nat × Nat) :=
  if range = ['*'] then some (0, u32Max)
  else
    match splitOnce '-' range with
    | some (low, high) => do
      let low ← parseU32 low
      let high ← parseU32 high
      some (low, high)
    | none => (parseU32 range).map (fun single => (single, single))

def cronPartMatches (part : List Char) (value : Nat) : Bool :=
  match cronPartStep part with
  | none => false
  | some (range, step) =>
    match cronRange range with
    | none => false
    | some (first, last) => first ≤ value && value ≤ last && (value - first) % step == 0

def cronFieldMatches (field : List Char) (value : Nat) : Bool :=
  (split ',' field).any (fun part => cronPartMatches (trim part) value)

def cronMatchesFields (cron : List Char) (now : LocalTime) : Bool :=
  match splitWhitespace cron with
  | [minute, hour, day, month, weekday] =>
    cronFieldMatches minute now.minute && cronFieldMatches hour now.hour &&
      cronFieldMatches day now.day && cronFieldMatches month now.month &&
      (cronFieldMatches weekday now.weekday ||
        (now.weekday == 0 && cronFieldMatches weekday 7))
  | _ => false

end Watchdog

/-!
# The poll loop

One watchdog samples its target at every tick and feeds the predicate to a
rising-edge detector. With a schedule as target, adjacent matching minutes are
one streak, hence one trigger.
-/

namespace Watchdog

open Runs Edges

/-- A sampled JSON value. Doubles are kept as the rationals they denote. -/
inductive Value where
  | null
  | float (x : ℚ)
  | integer (n : Nat)
  | text (t : List Char)

namespace Value

def asF64 : Value → Option ℚ
  | float x => some x
  | integer n => some n
  | _ => none

def asU64 : Value → Option Nat
  | integer n => some n
  | _ => none

def asStr : Value → Option (List Char)
  | text t => some t
  | _ => none

end Value

inductive PredicateOp where
  | gt (value : ℚ)
  | lt (value : ℚ)
  | gte (value : ℚ)
  | lte (value : ℚ)
  | eq (value : ℚ)
  | ne (value : ℚ)
  | contains (value : List Char)
  | silenceFor (ms : Nat)

def f64Epsilon : ℚ := 1 / 2 ^ 52

def evaluatePredicate (op : PredicateOp) (value : Value) : Bool :=
  match op with
  | .gt v => (value.asF64.map (fun n => decide (v < n))).getD false
  | .lt v => (value.asF64.map (fun n => decide (n < v))).getD false
  | .gte v => (value.asF64.map (fun n => decide (v ≤ n))).getD false
  | .lte v => (value.asF64.map (fun n => decide (n ≤ v))).getD false
  | .eq v => (value.asF64.map (fun n => decide (|n - v| < f64Epsilon))).getD false
  | .ne v => (value.asF64.map (fun n => decide (f64Epsilon ≤ |n - v|))).getD false
  | .contains needle => (value.asStr.map (fun haystack => Text.contains haystack needle)).getD false
  | .silenceFor threshold => (value.asU64.map (fun elapsed => decide (threshold ≤ elapsed))).getD false

inductive PerformanceMetric where
  | cpuPercent
  | ramPercent
  | commitPercent
  | diskFreePercent
  | diskUsedPercent
  | networkDownBytesPerSec
  | networkUpBytesPerSec
  | appWorkingSetBytes
  | appPrivateBytes
  | handleCount
  | processCount
  | threadCount

inductive WatchdogTarget where
  | mock (step : ℚ)
  | performanceCounter (metric : PerformanceMetric)
  | sshSessionOutputSilence (sessionId : List Char)
  | ping (host : List Char) (port : Option Nat)
  | tcpReachable (host : List Char) (port : Nat)
  | schedule (cron : List Char)
  | logFile (path pattern : List Char)
  | outputMatch (sessionId pattern : List Char)

structure WatchdogTrigger where
  predicate : PredicateOp
  sustainedForMs : Option Nat

inductive WatchdogStop where
  | afterDuration (ms : Nat)
  | afterTriggerCount (n : Nat)
  | afterFirstTrigger
  | untilCanceled
  | afterPollCount (n : Nat)

inductive WatchdogAction where
  | notify
  | aiIntervene (maxInterventions suppressionMs : Nat)

/-- The part of a configuration that the loop reads. -/
structure WatchdogConfig where
  target : WatchdogTarget
  trigger : WatchdogTrigger
  stop : WatchdogStop
  action : WatchdogAction

/-- Notify once for each due minute, until canceled. -/
def scheduleConfig (cron : List Char) : WatchdogConfig :=
  { target := .schedule cron, trigger := ⟨.gte 1, none⟩, stop := .untilCanceled
    action := .notify }

inductive WatchdogState where
  | armed
  | running (lastPollAt ticksObserved : Nat)
  | triggered (firstTriggeredAt triggerCount lastPollAt : Nat)
  | intervening (startedAt interventionCount : Nat)
  | suppressed (untilMs interventionCount : Nat)
  | completed (reason : String) (finishedAt : Nat)
  | canceled (finishedAt : Nat)
  | error (message : String) (finishedAt : Nat)

structure WatchdogTick where
  at_ : Nat
  value : Value
  predicateMet : Bool

structure WatchdogTriggerEvent where
  at_ : Nat
  valueAtTrigger : Value

structure WatchdogInterventionRecord where
  ok : Bool
  summary : String
  completionReason : Option String

/-- Unsigned 32-bit counters wrap where the code adds, and stop where it saturates. -/
def u32Succ (n : Nat) : Nat := (n + 1) % 2 ^ 32

def u32SaturatingSucc (n : Nat) : Nat := min (n + 1) u32Max

def tickRingCap : Nat := 200

structure Entry where
  state : WatchdogState
  ticks : List WatchdogTick
  triggers : List WatchdogTriggerEvent
  interventions : List WatchdogInterventionRecord
  pollCount : Nat
  interventionCount : Nat
  lastValue : Option Value
  /-- Whether a sender for the outcome of an intervention is installed. -/
  interventionTx : Bool

structure LoopState where
  startedAt : Nat
  pollCount : Nat
  triggerCount : Nat
  conditionTrueSince : Option Nat
  suppressionUntil : Option Nat
  triggeredSticky : Bool
  mockCounter : ℚ
  lastLogSize : Option Nat

def LoopState.new (startedAt : Nat) : LoopState :=
  { startedAt, pollCount := 0, triggerCount := 0, conditionTrueSince := none
    suppressionUntil := none, triggeredSticky := false, mockCounter := 0, lastLogSize := none }

/-- The places of a tick where the clock is read. -/
inductive Reading where
  | pushTick
  | suppression
  | resumeRunning
  | clearSticky
  | sustainedWindow
  | recordTrigger
  | applyTriggered
  | intervening
  | suppressed
  | stop
  | finalize

/-- What a tick can see: the time of the sample, the clock at each reading, and
the answers of the monitors and of the file system. -/
structure Poll where
  sampledAt : Nat
  clock : Reading → Nat
  performance : PerformanceMetric → Value
  silence : List Char → Value
  reachable : List Char → Nat → Bool
  metadata : List Char → Option (List UInt8)
  file : List Char → Option (List UInt8)
  tail : List Char → Option (List Char)

def Poll.minute (p : Poll) : Nat := p.sampledAt / 60000

def ofBool (b : Bool) : Value := .float (if b then 1 else 0)

/-- `calendar` breaks a minute since the epoch down to local time. -/
def sampleSchedule (calendar : Nat → LocalTime) (cron : List Char) (p : Poll) : Value :=
  ofBool (cronMatchesFields cron (calendar p.minute))

def sampleTarget (calendar : Nat → LocalTime) (target : WatchdogTarget) (p : Poll)
    (s : LoopState) : Value × LoopState :=
  match target with
  | .mock step =>
    let s := { s with mockCounter := s.mockCounter + step }
    (.float s.mockCounter, s)
  | .performanceCounter metric => (p.performance metric, s)
  | .sshSessionOutputSilence sessionId => (p.silence sessionId, s)
  | .ping host port => (ofBool (p.reachable host (port.getD 80)), s)
  | .tcpReachable host port => (ofBool (p.reachable host port), s)
  | .schedule cron => (sampleSchedule calendar cron p, s)
  | .logFile path pattern =>
    let (newSize, matched) := scanLogAppended (p.metadata path) (p.file path) s.lastLogSize pattern
    (ofBool matched, { s with lastLogSize := newSize })
  | .outputMatch sessionId pattern =>
    (ofBool (((p.tail sessionId).map (Text.contains · pattern)).getD false), s)

/-- Marks a streak that has already fired. -/
def u64Max : Nat := 2 ^ 64 - 1

def updateSustainedWindow (s : LoopState) (predicateMet : Bool) (sustainedForMs : Option Nat)
    (now : Nat) : LoopState × Bool :=
  if !predicateMet then ({ s with conditionTrueSince := none }, false)
  else
    match sustainedForMs with
    | none =>
      if s.conditionTrueSince = some u64Max then (s, false)
      else ({ s with conditionTrueSince := some u64Max }, true)
    | some threshold =>
      let since := s.conditionTrueSince.getD now
      let s := { s with conditionTrueSince := some since }
      if since = u64Max then (s, false)
      else if threshold ≤ now - since then ({ s with conditionTrueSince := some u64Max }, true)
      else (s, false)

def stopReached (stop : WatchdogStop) (s : LoopState) (triggerFired : Bool) (now : Nat) :
    Option String :=
  match stop with
  | .untilCanceled => none
  | .afterFirstTrigger => if triggerFired then some "afterFirstTrigger" else none
  | .afterTriggerCount n => if n ≤ s.triggerCount then some "afterTriggerCount" else none
  | .afterPollCount n => if n ≤ s.pollCount then some "afterPollCount" else none
  | .afterDuration ms => if ms ≤ now - s.startedAt then some "afterDuration" else none

namespace Entry

def new : Entry :=
  { state := .armed, ticks := [], triggers := [], interventions := [], pollCount := 0
    interventionCount := 0, lastValue := none, interventionTx := false }

def writeState (e : Entry) (state : WatchdogState) : Entry :=
  { e with state }

def transitionToRunning (e : Entry) (s : LoopState) (now : Nat) : Entry :=
  e.writeState (.running now s.pollCount)

def applyTriggeredState (e : Entry) (s : LoopState) (now : Nat) : Entry :=
  e.writeState (.triggered now s.triggerCount now)

def pushTick (e : Entry) (value : Value) (predicateMet : Bool) (now : Nat) : Entry :=
  { e with
    pollCount := u32SaturatingSucc e.pollCount
    lastValue := some value
    ticks := (if tickRingCap ≤ e.ticks.length then e.ticks.tail else e.ticks) ++
      [⟨now, value, predicateMet⟩] }

def recordTrigger (e : Entry) (value : Value) (now : Nat) : Entry :=
  { e with triggers := e.triggers ++ [⟨now, value⟩] }

/-- An accepted `record_intervention`. -/
def recordIntervention (e : Entry) (record : WatchdogInterventionRecord) : Entry :=
  { e with
    interventionCount := u32SaturatingSucc e.interventionCount
    interventions := e.interventions ++ [record]
    interventionTx := false }

def installInterventionSender (e : Entry) : Entry :=
  { e with interventionTx := true }

def clearInterventionSender (e : Entry) : Entry :=
  { e with interventionTx := false }

end Entry

/-- Where the loop stands: between ticks, parked until an intervention is
recorded, or returned. -/
inductive Loop where
  | polling (e : Entry) (s : LoopState)
  | parked (e : Entry) (s : LoopState)
  | returned (e : Entry)

namespace Loop

def entry : Loop → Entry
  | polling e _ => e
  | parked e _ => e
  | returned e => e

def start (now : Nat) : Loop :=
  polling (Entry.new.transitionToRunning (.new now) now) (.new now)

def closeTick (config : WatchdogConfig) (clock : Reading → Nat) (triggerFired : Bool) (e : Entry)
    (s : LoopState) : Loop :=
  match stopReached config.stop s triggerFired (clock .stop) with
  | some reason => returned (e.writeState (.completed reason (clock .finalize)))
  | none => polling e s

/-- Leave a suppression window that is over; inside one the streak is reset. -/
def gateSuppression (clock : Reading → Nat) (e : Entry) (s : LoopState) :
    Bool × Entry × LoopState :=
  match s.suppressionUntil with
  | none => (false, e, s)
  | some deadline =>
    if clock .suppression < deadline then (true, e, { s with conditionTrueSince := none })
    else
      let s := { s with suppressionUntil := none }
      (false, e.transitionToRunning s (clock .resumeRunning), s)

/-- A latched notification returns to running once the condition clears. -/
def clearSticky (clock : Reading → Nat) (predicateMet : Bool) (e : Entry) (s : LoopState) :
    Entry × LoopState :=
  if !predicateMet && s.triggeredSticky then
    let s := { s with triggeredSticky := false }
    (e.transitionToRunning s (clock .clearSticky), s)
  else (e, s)

def fire (config : WatchdogConfig) (clock : Reading → Nat) (value : Value) (e : Entry)
    (s : LoopState) : Loop :=
  let s := { s with triggerCount := u32Succ s.triggerCount }
  let e := (e.recordTrigger value (clock .recordTrigger)).applyTriggeredState s
    (clock .applyTriggered)
  match config.action with
  | .notify => closeTick config clock true e { s with triggeredSticky := true }
  | .aiIntervene _ _ =>
    let e := e.installInterventionSender
    parked (e.writeState (.intervening (clock .intervening) e.interventionCount)) s

/-- What follows the sample: the suppression gate, the latch and the detector. -/
def react (config : WatchdogConfig) (clock : Reading → Nat) (value : Value) (e : Entry)
    (s : LoopState) : Loop :=
  let predicateMet := evaluatePredicate config.trigger.predicate value
  let e := e.pushTick value predicateMet (clock .pushTick)
  let (inSuppression, e, s) := gateSuppression clock e s
  let (e, s) := clearSticky clock predicateMet e s
  let (s, triggerFired) :=
    if inSuppression then (s, false)
    else updateSustainedWindow s predicateMet config.trigger.sustainedForMs
      (clock .sustainedWindow)
  if triggerFired then fire config clock value e s
  else closeTick config clock false e s

def tick (calendar : Nat → LocalTime) (config : WatchdogConfig) (p : Poll) (e : Entry)
    (s : LoopState) : Loop :=
  let (value, s) := sampleTarget calendar config.target p s
  react config p.clock value e { s with pollCount := u32Succ s.pollCount }

/-- The loop goes on after the frontend has recorded the outcome. -/
def resume (config : WatchdogConfig) (clock : Reading → Nat) (record : WatchdogInterventionRecord)
    (e : Entry) (s : LoopState) : Loop :=
  let e := (e.recordIntervention record).clearInterventionSender
  match record.completionReason, config.action with
  | some reason, _ => returned (e.writeState (.completed reason (clock .finalize)))
  -- Only an intervening watchdog is ever parked.
  | none, .notify => closeTick config clock true e { s with conditionTrueSince := none }
  | none, .aiIntervene maxInterventions suppressionMs =>
    if maxInterventions ≤ e.interventionCount then
      returned (e.writeState (.completed s!"Intervention cap ({maxInterventions}) reached."
        (clock .finalize)))
    else
      let deadline := (clock .suppressed + suppressionMs) % 2 ^ 64
      closeTick config clock true
        (e.writeState (.suppressed deadline e.interventionCount))
        { s with suppressionUntil := some deadline, conditionTrueSince := none }

inductive Event where
  | poll (p : Poll)
  | canceled (now : Nat)
  | recorded (record : WatchdogInterventionRecord) (clock : Reading → Nat)
  | timedOut (now : Nat)

/-- One step of the loop, or none where it waits for something else. -/
def step (calendar : Nat → LocalTime) (config : WatchdogConfig) : Loop → Event → Option Loop
  | polling e s, .poll p => some (tick calendar config p e s)
  | polling e _, .canceled now => some (returned (e.writeState (.canceled now)))
  | parked e _, .canceled now =>
    some (returned (e.clearInterventionSender.writeState (.canceled now)))
  | parked e s, .recorded record clock => some (resume config clock record e s)
  | parked e _, .timedOut now =>
    some (returned (e.clearInterventionSender.writeState
      (.error "Intervention sub-turn timed out or channel closed." now)))
  | _, _ => none

variable {calendar : Nat → LocalTime} {cron : List Char} {e : Entry} {s : LoopState}

lemma evaluatePredicate_ofBool (b : Bool) : evaluatePredicate (.gte 1) (ofBool b) = b := by
  cases b <;> simp [evaluatePredicate, ofBool, Value.asF64]

/-- The streak mark of a loop without a sustained window. -/
def streak (met : Bool) : Option Nat :=
  if met then some u64Max else none

lemma clearSticky_frame (clock : Reading → Nat) (met : Bool) (e : Entry) (s : LoopState) :
    (clearSticky clock met e s).1.triggers = e.triggers ∧
      (clearSticky clock met e s).2.suppressionUntil = s.suppressionUntil ∧
      (clearSticky clock met e s).2.conditionTrueSince = s.conditionTrueSince := by
  rw [clearSticky]
  split <;> exact ⟨rfl, rfl, rfl⟩

variable {before : Bool}

/-- Without a sustained window the detector fires on the rising edge. -/
lemma updateSustainedWindow_none (since : s.conditionTrueSince = streak before) (met : Bool)
    (now : Nat) :
    updateSustainedWindow s met none now =
      ({ s with conditionTrueSince := streak met }, met && !before) := by
  cases met
  · simp [updateSustainedWindow, streak]
  · cases before
    · simp [updateSustainedWindow, streak, since]
    · simp only [updateSustainedWindow, streak, since]
      cases s
      cases since
      rfl

section
variable (notSuppressed : s.suppressionUntil = none)
include notSuppressed

section
variable (since : s.conditionTrueSince = streak before)
include since

/-- A schedule fires when its minute is due and the one polled before was not,
and the streak remembers whether it was. -/
lemma react_schedule (clock : Reading → Nat) (due : Bool) :
    ∃ e' s', react (scheduleConfig cron) clock (ofBool due) e s = polling e' s' ∧
      s'.suppressionUntil = none ∧ s'.conditionTrueSince = streak due ∧
      e'.triggers.length = e.triggers.length + (if due && !before then 1 else 0) := by
  have frame := clearSticky_frame clock due (e.pushTick (ofBool due) due (clock .pushTick)) s
  have gated : gateSuppression clock (e.pushTick (ofBool due) due (clock .pushTick)) s =
      (false, e.pushTick (ofBool due) due (clock .pushTick), s) := by
    simp [gateSuppression, notSuppressed]
  simp only [react, scheduleConfig, evaluatePredicate_ofBool, gated]
  cases cleared : clearSticky clock due (e.pushTick (ofBool due) due (clock .pushTick)) s with
  | mk e₁ s₁ =>
    rw [cleared] at frame
    obtain ⟨triggers, gate, kept⟩ := frame
    have window := updateSustainedWindow_none (kept.trans since) due (clock .sustainedWindow)
    simp only [window]
    cases fired : due && !before with
    | false => exact ⟨e₁, _, rfl, gate.trans notSuppressed, rfl, congrArg List.length triggers⟩
    | true =>
      refine ⟨_, _, rfl, gate.trans notSuppressed, rfl, ?_⟩
      exact (List.length_append ..).trans (congrArg (List.length · + 1) triggers)

lemma tick_schedule (p : Poll) :
    let due := cronMatchesFields cron (calendar p.minute)
    ∃ e' s', tick calendar (scheduleConfig cron) p e s = polling e' s' ∧
      s'.suppressionUntil = none ∧ s'.conditionTrueSince = streak due ∧
      e'.triggers.length = e.triggers.length + (if due && !before then 1 else 0) :=
  react_schedule (s := { s with pollCount := u32Succ s.pollCount }) notSuppressed since p.clock _

/-- The triggers of a run are the rising edges of the polled minutes. -/
lemma run_schedule (polls : List Poll) :
    ∃ e' s', run (step calendar (scheduleConfig cron)) (polling e s) (polls.map .poll) =
        some (polling e' s') ∧
      e'.triggers.length = e.triggers.length + rising before
        (polls.map (fun p => cronMatchesFields cron (calendar p.minute))) := by
  induction polls generalizing e s before with
  | nil => exact ⟨e, s, rfl, rfl⟩
  | cons p rest ih =>
    obtain ⟨e₁, s₁, ticked, open₁, since₁, count₁⟩ := tick_schedule notSuppressed since p
    obtain ⟨e', s', ran, count⟩ := ih open₁ since₁
    refine ⟨e', s', run_cons_eq_some.mpr ⟨_, congrArg some ticked, ran⟩, ?_⟩
    rw [count, count₁, List.map_cons, rising, Nat.add_assoc]

end

end

lemma run_start_schedule (calendar : Nat → LocalTime) (cron : List Char) (startedAt : Nat)
    (polls : List Poll) :
    ∃ e s, run (step calendar (scheduleConfig cron)) (start startedAt) (polls.map .poll) =
        some (polling e s) ∧
      e.triggers.length = rising false
        (polls.map (fun p => cronMatchesFields cron (calendar p.minute))) := by
  have fresh : (LoopState.new startedAt).conditionTrueSince = streak false := rfl
  obtain ⟨e, s, polled, count⟩ :=
    @run_schedule calendar cron (Entry.new.transitionToRunning (.new startedAt) startedAt)
      (.new startedAt) false rfl fresh polls
  exact ⟨e, s, polled, count.trans (Nat.zero_add _)⟩

end Loop

/-- A schedule triggers once for every due minute it polls, exactly when no two
adjacent polled minutes are both due: the detector takes those for one streak. -/
theorem schedule_triggers_once (calendar : Nat → LocalTime) (cron : List Char) (startedAt : Nat)
    (polls : List Poll) (canceledAt : Option Nat)
    (everyMinute : Edges.Climbs (polls.map Poll.minute)) :
    let due := fun m => cronMatchesFields cron (calendar m)
    let minutes := polls.map Poll.minute
    ∃ loop, run (Loop.step calendar (scheduleConfig cron)) (.start startedAt)
        (polls.map .poll ++ (canceledAt.map .canceled).toList) = some loop ∧
      (loop.entry.triggers.length = (minutes.toFinset.filter (due ·)).card ↔
        ∀ m ∈ minutes, m + 1 ∈ minutes → due m → ¬ due (m + 1)) := by
  intro due minutes
  obtain ⟨e, s, polled, count⟩ := Loop.run_start_schedule calendar cron startedAt polls
  have total : (minutes.toFinset.filter (due ·)).card =
      e.triggers.length + merged due minutes := by
    rw [card_due everyMinute, count, List.map_map]
    rfl
  have iff : e.triggers.length = (minutes.toFinset.filter (due ·)).card ↔
      ∀ m ∈ minutes, m + 1 ∈ minutes → due m → ¬ due (m + 1) := by
    have apart : merged due minutes = 0 ↔ _ := merged_eq_zero everyMinute
    rw [total, ← apart]
    omega
  cases canceledAt with
  | none => exact ⟨_, run_append_eq_some.mpr ⟨_, polled, rfl⟩, iff⟩
  | some now => exact ⟨_, run_append_eq_some.mpr ⟨_, polled, rfl⟩, iff⟩

/-- A poll at a time, of a machine without monitors and files. -/
def pollAt (ms : Nat) : Poll :=
  { sampledAt := ms, clock := fun _ => ms, performance := fun _ => .null
    silence := fun _ => .null, reachable := fun _ _ => false, metadata := fun _ => none
    file := fun _ => none, tail := fun _ => none }

/-- The first day of April 2021, a Thursday, from midnight on. -/
def firstOfApril (m : Nat) : LocalTime :=
  { minute := m % 60, hour := m / 60 % 24, day := 1 + m / 1440, month := 4
    weekday := (4 + m / 1440) % 7 }

/-- Every second minute: polled twice a minute, minutes 0 and 2 trigger once each. -/
theorem everySecondMinute_triggers :
    Edges.Climbs (([0, 30, 60, 90, 120, 150].map (fun n => pollAt (1000 * n))).map Poll.minute) ∧
      ∃ loop, Runs.run (Loop.step firstOfApril (scheduleConfig "*/2 * * * *".toList)) (.start 0)
          (([0, 30, 60, 90, 120, 150].map (fun n => pollAt (1000 * n))).map .poll ++
            ((none : Option Nat).map .canceled).toList) = some loop ∧
        loop.entry.triggers.length = 2 := by
  have climbs : Climbs
      (([0, 30, 60, 90, 120, 150].map (fun n => pollAt (1000 * n))).map Poll.minute) := by decide
  obtain ⟨loop, ran, iff⟩ := schedule_triggers_once firstOfApril "*/2 * * * *".toList 0 _ none climbs
  exact ⟨climbs, loop, ran, (iff.mpr (by decide +kernel)).trans (by decide +kernel)⟩

/-- Minutes 0 and 1 both match `* * * * *`, one trigger is recorded for the two. -/
theorem everyMinute_triggers_once :
    validateCron "* * * * *".toList = .ok () ∧
      Edges.Climbs ([pollAt 0, pollAt 60000].map Poll.minute) ∧
      cronMatchesFields "* * * * *".toList (firstOfApril 0) ∧
      cronMatchesFields "* * * * *".toList (firstOfApril 1) ∧
      (Runs.run (Loop.step firstOfApril (scheduleConfig "* * * * *".toList)) (.start 0)
        [.poll (pollAt 0), .poll (pollAt 60000)]).map (·.entry.triggers.length) = some 1 := by
  exact ⟨by rfl, by decide, by decide +kernel, by decide +kernel, by decide +kernel⟩

end Watchdog
