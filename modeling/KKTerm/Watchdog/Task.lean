import KKTerm.Watchdog.PollLoop

/-!
# The task of a watchdog

The poll loop cut at its lock sections, between which the calls of other threads
take their turn. A section runs together with the events emitted behind it. On
its own the task does what the loop of the previous module does.
-/

namespace Watchdog

inductive WatchdogError where
  | capacityExceeded
  | notFound
  | invalidConfig (reason : String)
  | alreadyTerminal
  deriving DecidableEq

def minPollMs : Nat := 500

def maxPollMs : Nat := 60 * 60 * 1000

/-- A configuration as it is submitted; its counters are 32-bit words. -/
structure SubmittedConfig extends WatchdogConfig where
  name : List Char
  pollMs : Nat
  allowedTools : List (List Char)
  u32_maxInterventions : ∀ maxInterventions suppressionMs,
    action = .aiIntervene maxInterventions suppressionMs → maxInterventions ≤ u32Max

def validateAction (config : SubmittedConfig) : Except WatchdogError Unit :=
  match config.action with
  | .notify => .ok ()
  | .aiIntervene maxInterventions _ =>
    if maxInterventions = 0 then .error (.invalidConfig "maxInterventions must be >= 1")
    else if config.allowedTools = [] then
      .error (.invalidConfig "aiIntervene requires at least one allowed tool")
    else .ok ()

def validateTarget : WatchdogTarget → Except WatchdogError Unit
  | .schedule cron => (validateCron cron).mapError .invalidConfig
  | .logFile path pattern =>
    if Text.trim path = [] then .error (.invalidConfig "logFile requires a path")
    else if pattern = [] then .error (.invalidConfig "logFile requires a pattern")
    else .ok ()
  | .outputMatch sessionId pattern =>
    if Text.trim sessionId = [] then .error (.invalidConfig "outputMatch requires a session id")
    else if pattern = [] then .error (.invalidConfig "outputMatch requires a pattern")
    else .ok ()
  | _ => .ok ()

def validateConfig (config : SubmittedConfig) : Except WatchdogError Unit :=
  if Text.trim config.name = [] then .error (.invalidConfig "name must not be empty")
  else if config.pollMs < minPollMs then
    .error (.invalidConfig s!"pollMs {config.pollMs} below minimum {minPollMs}")
  else if maxPollMs < config.pollMs then
    .error (.invalidConfig s!"pollMs {config.pollMs} above maximum {maxPollMs}")
  else do
    validateAction config
    validateTarget config.target

def WatchdogState.isTerminal : WatchdogState → Bool
  | .completed .. | .canceled .. | .error .. => true
  | _ => false

def WatchdogState.isIntervening : WatchdogState → Bool
  | .intervening .. => true
  | _ => false

abbrev Terminal := { state : WatchdogState // state.isTerminal = true }

inductive WatchdogEvent where
  | tick (value : Value) (predicateMet : Bool) (pollCount : Nat)
  | stateChange (state : WatchdogState)
  | trigger (value : Value) (triggerCount : Nat)
  | intervene
  | complete (state : WatchdogState)

/-- What the loop does under the lock, except to end. -/
inductive LockSection where
  | pushTick (value : Value) (predicateMet : Bool) (now pollCount : Nat)
  | transitionToRunning (now ticksObserved : Nat)
  | recordTrigger (value : Value) (now triggerCount : Nat)
  | applyTriggeredState (now triggerCount : Nat)
  | installInterventionSender
  | currentInterventionCount
  | intervening (startedAt interventionCount : Nat)
  | clearInterventionSender
  | suppressed (untilMs interventionCount : Nat)

namespace LockSection

def apply : LockSection → Entry → Entry
  | pushTick value predicateMet now _, e => e.pushTick value predicateMet now
  | transitionToRunning now ticks, e => e.writeState (.running now ticks)
  | recordTrigger value now _, e => e.recordTrigger value now
  | applyTriggeredState now count, e => e.writeState (.triggered now count now)
  | installInterventionSender, e => e.installInterventionSender
  | currentInterventionCount, e => e
  | intervening startedAt count, e => e.writeState (.intervening startedAt count)
  | clearInterventionSender, e => e.clearInterventionSender
  | suppressed untilMs count, e => e.writeState (.suppressed untilMs count)

def emits : LockSection → List WatchdogEvent
  | pushTick value predicateMet _ pollCount => [.tick value predicateMet pollCount]
  | transitionToRunning now ticks => [.stateChange (.running now ticks)]
  | recordTrigger value _ count => [.trigger value count]
  | applyTriggeredState now count => [.stateChange (.triggered now count now)]
  | intervening startedAt count => [.stateChange (.intervening startedAt count), .intervene]
  | suppressed untilMs count => [.stateChange (.suppressed untilMs count)]
  | installInterventionSender | currentInterventionCount | clearInterventionSender => []

end LockSection

/-- What the loop still does before it waits again or ends. A section hands the
entry that it leaves to what follows. -/
inductive Program where
  | select (s : LoopState)
  | park (maxInterventions suppressionMs : Nat) (s : LoopState)
  | locked (sec : LockSection) (next : Entry → Program)
  | finalize (state : Terminal)

namespace Program

def thenDo (sec : LockSection) (rest : Program) : Program :=
  locked sec (fun _ => rest)

def completed (reason : String) (now : Nat) : Program :=
  finalize ⟨.completed reason now, rfl⟩

def canceled (now : Nat) : Program :=
  finalize ⟨.canceled now, rfl⟩

def closeTick (config : WatchdogConfig) (clock : Reading → Nat) (triggerFired : Bool)
    (s : LoopState) : Program :=
  match stopReached config.stop s triggerFired (clock .stop) with
  | some reason => completed reason (clock .finalize)
  | none => select s

/-- Hand over to the frontend and wait for it. -/
def intervene (clock : Reading → Nat) (maxInterventions suppressionMs : Nat) (s : LoopState) :
    Program :=
  thenDo .installInterventionSender <| locked .currentInterventionCount fun e =>
    thenDo (.intervening (clock .intervening) e.interventionCount) <|
      park maxInterventions suppressionMs s

def fire (config : WatchdogConfig) (clock : Reading → Nat) (value : Value) (s : LoopState) :
    Program :=
  let s := { s with triggerCount := u32Succ s.triggerCount }
  thenDo (.recordTrigger value (clock .recordTrigger) s.triggerCount) <|
  thenDo (.applyTriggeredState (clock .applyTriggered) s.triggerCount) <|
  match config.action with
  | .notify => closeTick config clock true { s with triggeredSticky := true }
  | .aiIntervene maxInterventions suppressionMs => intervene clock maxInterventions suppressionMs s

/-- The detector, once the suppression gate and the latch have been passed. -/
def detect (config : WatchdogConfig) (clock : Reading → Nat) (value : Value)
    (predicateMet inSuppression : Bool) (s : LoopState) : Program :=
  let (s, triggerFired) :=
    if inSuppression then (s, false)
    else updateSustainedWindow s predicateMet config.trigger.sustainedForMs
      (clock .sustainedWindow)
  if triggerFired then fire config clock value s else closeTick config clock false s

def clearSticky (config : WatchdogConfig) (clock : Reading → Nat) (value : Value)
    (predicateMet inSuppression : Bool) (s : LoopState) : Program :=
  if !predicateMet && s.triggeredSticky then
    let s := { s with triggeredSticky := false }
    thenDo (.transitionToRunning (clock .clearSticky) s.pollCount) <|
      detect config clock value predicateMet inSuppression s
  else detect config clock value predicateMet inSuppression s

def gateSuppression (config : WatchdogConfig) (clock : Reading → Nat) (value : Value)
    (predicateMet : Bool) (s : LoopState) : Program :=
  match s.suppressionUntil with
  | none => clearSticky config clock value predicateMet false s
  | some deadline =>
    if clock .suppression < deadline then
      clearSticky config clock value predicateMet true { s with conditionTrueSince := none }
    else
      let s := { s with suppressionUntil := none }
      thenDo (.transitionToRunning (clock .resumeRunning) s.pollCount) <|
        clearSticky config clock value predicateMet false s

def react (config : WatchdogConfig) (clock : Reading → Nat) (value : Value) (s : LoopState) :
    Program :=
  let predicateMet := evaluatePredicate config.trigger.predicate value
  thenDo (.pushTick value predicateMet (clock .pushTick) s.pollCount) <|
    gateSuppression config clock value predicateMet s

def tick (calendar : Nat → LocalTime) (config : WatchdogConfig) (p : Poll) (s : LoopState) :
    Program :=
  let (value, s) := sampleTarget calendar config.target p s
  react config p.clock value { s with pollCount := u32Succ s.pollCount }

def suppress (config : WatchdogConfig) (clock : Reading → Nat) (suppressionMs : Nat)
    (s : LoopState) : Program :=
  let deadline := (clock .suppressed + suppressionMs) % 2 ^ 64
  locked .currentInterventionCount fun e =>
    thenDo (.suppressed deadline e.interventionCount) <|
      closeTick config clock true
        { s with suppressionUntil := some deadline, conditionTrueSince := none }

/-- The loop goes on after the frontend has recorded the outcome. -/
def resume (config : WatchdogConfig) (clock : Reading → Nat) (completionReason : Option String)
    (maxInterventions suppressionMs : Nat) (s : LoopState) : Program :=
  thenDo .clearInterventionSender <|
  match completionReason with
  | some reason => completed reason (clock .finalize)
  | none => locked .currentInterventionCount fun e =>
    if maxInterventions ≤ e.interventionCount then
      completed s!"Intervention cap ({maxInterventions}) reached." (clock .finalize)
    else suppress config clock suppressionMs s

def abort (state : Terminal) : Program :=
  thenDo .clearInterventionSender (finalize state)

variable {config : WatchdogConfig} {e : Entry} {s : LoopState}

variable (clock : Reading → Nat) (value : Value)

end Program

/-- A task that is still running, or one that has returned. -/
inductive Task where
  | running (p : Program)
  | returned

/-- A watchdog of the registry with its task and with the calls that are on their
way. `episodes` remembers which records each intervention has accepted. -/
structure WatchdogRun where
  config : WatchdogConfig
  entry : Entry
  task : Task
  canceled : Bool
  /-- Calls of `cancel` that have passed the check and not yet canceled the token. -/
  cancelCalls : Nat
  /-- The signal of a record that took the sender and has not yet sent it. -/
  sending : Option (Option String)
  mailbox : Option (Option String)
  events : List WatchdogEvent
  episodes : List (List WatchdogInterventionRecord)

namespace WatchdogRun

/-- A new entry; the task first marks it as running. -/
def new (config : WatchdogConfig) (startedAt : Nat) : WatchdogRun :=
  { config
    entry := Entry.new
    task := .running <| Program.thenDo (.transitionToRunning startedAt 0) <|
      .select (LoopState.new startedAt)
    canceled := false
    cancelCalls := 0
    sending := none
    mailbox := none
    events := [.stateChange .armed]
    episodes := [] }

/-- A section of the task: an intervention opens an episode, a new channel is empty. -/
def execute (w : WatchdogRun) (sec : LockSection) (next : Entry → Program) : WatchdogRun :=
  let entry := sec.apply w.entry
  { w with
    entry
    task := .running (next entry)
    events := w.events ++ sec.emits
    mailbox := match sec with | .installInterventionSender => none | _ => w.mailbox
    episodes := match sec with | .intervening _ _ => w.episodes ++ [[]] | _ => w.episodes }

/-- The terminal state is written and announced, and the task returns. -/
def finalize (w : WatchdogRun) (state : Terminal) : WatchdogRun :=
  { w with
    entry := w.entry.writeState state
    task := .returned
    events := w.events ++ [.stateChange state, .complete state] }

def recordEpisode (record : WatchdogInterventionRecord) :
    List (List WatchdogInterventionRecord) → List (List WatchdogInterventionRecord)
  | [] => []
  | [episode] => [episode ++ [record]]
  | episode :: episodes => episode :: recordEpisode record episodes

/-- The locked part of `record_intervention`, on an intervening watchdog. -/
def accept (w : WatchdogRun) (record : WatchdogInterventionRecord) : WatchdogRun :=
  { w with
    entry := w.entry.recordIntervention record
    sending := if w.entry.interventionTx then some record.completionReason else w.sending
    episodes := recordEpisode record w.episodes }

inductive Action where
  /-- The task runs its next lock section. -/
  | work
  | tick (p : Poll)
  | noticeCancel (now : Nat)
  | wake (clock : Reading → Nat)
  | timeout (now : Nat)
  | channelClosed (now : Nat)
  | cancel
  | cancelToken
  | record (record : WatchdogInterventionRecord)
  | send
  | dropSender

def timedOut (now : Nat) : Terminal :=
  ⟨.error "Intervention sub-turn timed out or channel closed." now, rfl⟩

def step (calendar : Nat → LocalTime) (w : WatchdogRun) : Action → Option WatchdogRun
  | .work =>
    match w.task with
    | .running (.locked sec next) => some (w.execute sec next)
    | .running (.finalize state) => some (w.finalize state)
    | _ => none
  | .tick p =>
    match w.task, w.canceled with
    | .running (.select s), false =>
      some { w with task := .running (Program.tick calendar w.config p s) }
    | _, _ => none
  -- Both selections look at the token first.
  | .noticeCancel now =>
    match w.task, w.canceled with
    | .running (.select _), true => some { w with task := .running (Program.canceled now) }
    | .running (.park _ _ _), true =>
      some { w with task := .running (Program.abort ⟨.canceled now, rfl⟩) }
    | _, _ => none
  | .wake clock =>
    match w.task, w.canceled, w.mailbox with
    | .running (.park maxInterventions suppressionMs s), false, some completionReason =>
      some
        { w with
          mailbox := none
          task := .running (Program.resume w.config clock completionReason maxInterventions
            suppressionMs s) }
    | _, _, _ => none
  | .timeout now =>
    match w.task, w.canceled, w.mailbox with
    | .running (.park _ _ _), false, none =>
      some { w with task := .running (Program.abort (timedOut now)) }
    | _, _, _ => none
  | .channelClosed now =>
    match w.task, w.canceled, w.mailbox, w.sending, w.entry.interventionTx with
    | .running (.park _ _ _), false, none, none, false =>
      some { w with task := .running (Program.abort (timedOut now)) }
    | _, _, _, _, _ => none
  -- A call on a terminal watchdog fails.
  | .cancel =>
    if w.entry.state.isTerminal then some w
    else some { w with cancelCalls := w.cancelCalls + 1 }
  | .cancelToken =>
    if w.cancelCalls = 0 then none
    else some { w with canceled := true, cancelCalls := w.cancelCalls - 1 }
  -- A record for a watchdog that does not intervene is rejected.
  | .record record =>
    if w.entry.state.isIntervening then some (w.accept record) else some w
  | .send =>
    match w.sending with
    | some signal => some { w with sending := none, mailbox := some signal }
    | none => none
  | .dropSender =>
    match w.sending with
    | some _ => some { w with sending := none }
    | none => none

/-- Where a waiting task turns to, and the mailbox that it leaves. -/
inductive Turns (calendar : Nat → LocalTime) (w : WatchdogRun) :
    Program → Program → Option (Option String) → Prop where
  | tick (s : LoopState) (p : Poll) :
    Turns calendar w (.select s) (Program.tick calendar w.config p s) w.mailbox
  | cancel (s : LoopState) (now : Nat) :
    Turns calendar w (.select s) (Program.canceled now) w.mailbox
  | abort (maxInterventions suppressionMs : Nat) (s : LoopState) (state : Terminal) :
    Turns calendar w (.park maxInterventions suppressionMs s) (Program.abort state) w.mailbox
  | wake (maxInterventions suppressionMs : Nat) (s : LoopState) (clock : Reading → Nat)
      (completionReason : Option String) (signaled : w.mailbox = some completionReason) :
    Turns calendar w (.park maxInterventions suppressionMs s)
      (Program.resume w.config clock completionReason maxInterventions suppressionMs s) none

/-- What a step can do: a section or the end of the task, a turn of the waiting
task, an accepted record, or calls that leave the entry alone. -/
inductive Did (calendar : Nat → LocalTime) (w : WatchdogRun) (a : Action) :
    WatchdogRun → Prop where
  | execute (sec : LockSection) (next : Entry → Program)
      (task : w.task = .running (.locked sec next)) : Did calendar w a (w.execute sec next)
  | finalize (state : Terminal) (task : w.task = .running (.finalize state)) :
    Did calendar w a (w.finalize state)
  | turn (p p' : Program) (mailbox : Option (Option String)) (task : w.task = .running p)
      (turns : Turns calendar w p p' mailbox) :
    Did calendar w a { w with task := .running p', mailbox }
  | accept (record : WatchdogInterventionRecord) (called : a = .record record)
      (intervening : w.entry.state.isIntervening = true) : Did calendar w a (w.accept record)
  | calls (canceled : Bool) (cancelCalls : Nat) (sending mailbox : Option (Option String))
      (signals : (sending = w.sending ∧ mailbox = w.mailbox) ∨
        sending = none ∧ (mailbox = w.sending ∨ mailbox = w.mailbox)) :
    Did calendar w a { w with canceled, cancelCalls, sending, mailbox }

variable {calendar : Nat → LocalTime} {w w' : WatchdogRun} {a : Action}

lemma step_did (h : step calendar w a = some w') : Did calendar w a w' := by
  have signals : ∀ canceled cancelCalls,
      Did calendar w a { w with canceled := canceled, cancelCalls := cancelCalls } :=
    fun canceled cancelCalls => .calls canceled cancelCalls w.sending w.mailbox (.inl ⟨rfl, rfl⟩)
  cases a with
  | work =>
    simp only [step] at h
    split at h
    · rename_i sec next task
      cases h
      exact .execute sec next task
    · rename_i state task
      cases h
      exact .finalize state task
    · cases h
  | tick p =>
    simp only [step] at h
    split at h
    · rename_i s task _
      cases h
      exact .turn _ _ _ task (.tick s p)
    · cases h
  | noticeCancel now =>
    simp only [step] at h
    split at h
    · rename_i s task _
      cases h
      exact .turn _ _ _ task (.cancel s now)
    · rename_i maxInterventions suppressionMs s task _
      cases h
      exact .turn _ _ _ task (.abort maxInterventions suppressionMs s _)
    · cases h
  | wake clock =>
    simp only [step] at h
    split at h
    · rename_i maxInterventions suppressionMs s completionReason task _ signaled
      cases h
      exact .turn _ _ _ task (.wake maxInterventions suppressionMs s clock completionReason signaled)
    · cases h
  | timeout now =>
    simp only [step] at h
    split at h
    · rename_i maxInterventions suppressionMs s task _ _
      cases h
      exact .turn _ _ _ task (.abort maxInterventions suppressionMs s _)
    · cases h
  | channelClosed now =>
    simp only [step] at h
    split at h
    · rename_i maxInterventions suppressionMs s task _ _ _ _
      cases h
      exact .turn _ _ _ task (.abort maxInterventions suppressionMs s _)
    · cases h
  | cancel =>
    simp only [step] at h
    split at h
    · cases h
      exact signals w.canceled w.cancelCalls
    · cases h
      exact signals w.canceled (w.cancelCalls + 1)
  | cancelToken =>
    simp only [step] at h
    split at h
    · cases h
    · cases h
      exact signals true (w.cancelCalls - 1)
  | record record =>
    simp only [step] at h
    split at h
    · rename_i intervening
      cases h
      exact .accept record rfl intervening
    · cases h
      exact signals w.canceled w.cancelCalls
  | send =>
    simp only [step] at h
    split at h
    · rename_i signal sending
      cases h
      exact .calls w.canceled w.cancelCalls none (some signal) (.inr ⟨rfl, .inl sending.symm⟩)
    · cases h
  | dropSender =>
    simp only [step] at h
    split at h
    · cases h
      exact .calls w.canceled w.cancelCalls none w.mailbox (.inr ⟨rfl, .inr rfl⟩)
    · cases h

end WatchdogRun

end Watchdog
