import KKTerm.Library.Text
import Mathlib.Data.List.Induction

/-!
# Folding stream events into an assistant message

A message takes up the events of a stream one by one: texts are appended, tool calls start and
end, and a terminal event closes the message. Times are texts; within one event the clock stands.
-/

namespace Assistant

open List

inductive ToolCallState where
  | running
  | completed
deriving DecidableEq

structure AssistantToolCallStatus where
  toolId : List Char
  toolName : List Char
  status : ToolCallState
  error : Option (List Char) := none
  startedAt : List Char
  endedAt : Option (List Char) := none
deriving DecidableEq

inductive StepStatus where
  | pending
  | running
  | completed
  | blocked
deriving DecidableEq

structure AssistantRunManifestStep where
  id : List Char
  label : List Char
  status : StepStatus
  detail : Option (List Char) := none
deriving DecidableEq

inductive VerificationStatus where
  | pending
  | passed
  | failed
deriving DecidableEq

structure AssistantRunManifest where
  runId : List Char
  goal : List Char
  scope : List Char
  definitionOfDone : List Char
  verificationStatus : VerificationStatus
  steps : List AssistantRunManifestStep
  updatedAt : List Char
  fromModel : Bool := false
deriving DecidableEq

structure AssistantStreamMessage where
  content : List Char := []
  reasoningContent : Option (List Char) := none
  toolCalls : Option (List AssistantToolCallStatus) := none
  skillNames : Option (List (List Char)) := none
  runManifest : Option AssistantRunManifest := none
  workStartedAt : Option (List Char) := none
  workCompletedAt : Option (List Char) := none
  isStreaming : Option Bool := none

/-- What an event record holds under a key. -/
inductive Field where
  | absent
  | text (t : List Char)
  | other

namespace Field

/-- The value under the first key, or else under the second. -/
def orElse : Field → Field → Field
  | absent, second => second
  | first, _ => first

def asText : Field → Option (List Char)
  | text t => some t
  | _ => none

end Field

/-- A text that is not blank. -/
def shown (t : List Char) : Option (List Char) :=
  if JsText.trim t = [] then none else some t

/-- A key in camel case and in snake case. -/
structure EventKey where
  camel : Field := .absent
  snake : Field := .absent

def streamEventString (key : EventKey) : Option (List Char) :=
  (key.camel.orElse key.snake).asText.bind shown

structure PlanStep where
  id : Field
  label : Field
  status : Field
  detail : Field

inductive AiStreamEvent where
  | reasoningDelta (delta : List Char)
  | contentDelta (delta : List Char)
  | toolCallStart (toolId toolName : EventKey)
  | toolCallEnd (toolId toolName : EventKey) (error : Option (List Char))
  | skillInvocation (skillName : EventKey)
  | planUpdate (goal : Field) (steps : List PlanStep)
  | contextUsage
  | done
  | error (message : List Char)

structure StreamOptions where
  errorPrefix : List Char
  now : List Char
  workStartedAt : List Char
  /-- The id for a plan that has none yet. -/
  freshRunId : List Char

def planStatus (status : Field) : StepStatus :=
  if status.asText = some "running".toList then .running
  else if status.asText = some "completed".toList then .completed
  else if status.asText = some "blocked".toList then .blocked
  else .pending

/-- The steps that have an id and a label. -/
def planSteps (steps : List PlanStep) : List AssistantRunManifestStep :=
  steps.filterMap fun step =>
    step.id.asText.bind fun id => step.label.asText.map fun label =>
      { id, label, status := planStatus step.status, detail := step.detail.asText.bind shown }

def planVerification (steps : List AssistantRunManifestStep) : VerificationStatus :=
  if steps.any (·.status = .blocked) then .failed
  else if steps.all (·.status = .completed) then .passed
  else .pending

namespace AssistantStreamMessage

/-- A call that is started again moves to the end. -/
def startTool (msg : AssistantStreamMessage) (options : StreamOptions)
    (toolId toolName : List Char) : List AssistantToolCallStatus :=
  (msg.toolCalls.getD []).filter (·.toolId ≠ toolId) ++
    [{ toolId, toolName, status := .running, startedAt := options.now }]

def endTool (options : StreamOptions) (toolId : List Char) (toolName error : Option (List Char))
    (call : AssistantToolCallStatus) : AssistantToolCallStatus :=
  if call.toolId = toolId then
    { call with
      toolName := toolName.getD call.toolName
      status := .completed
      error := (error.filter (· ≠ [])).or call.error
      endedAt := some options.now }
  else call

def complete (options : StreamOptions) (call : AssistantToolCallStatus) : AssistantToolCallStatus :=
  if call.status = .running then
    { call with status := .completed, endedAt := some options.now }
  else call

def updatePlan (msg : AssistantStreamMessage) (options : StreamOptions) (goal : Field)
    (steps : List AssistantRunManifestStep) : AssistantRunManifest :=
  let known := msg.runManifest
  { runId := (known.map (·.runId)).getD options.freshRunId
    goal := ((goal.asText.bind shown).map JsText.trim).getD ((known.map (·.goal)).getD [])
    scope := (known.map (·.scope)).getD "assistant.chat".toList
    definitionOfDone := (known.map (·.definitionOfDone)).getD
      "Complete every plan step or report the blocker.".toList
    verificationStatus := planVerification steps
    steps
    updatedAt := options.now
    fromModel := true }

def applyEvent (msg : AssistantStreamMessage) (options : StreamOptions) :
    AiStreamEvent → AssistantStreamMessage
  | .reasoningDelta delta =>
    { msg with reasoningContent := some (msg.reasoningContent.getD [] ++ delta) }
  | .contentDelta delta => { msg with content := msg.content ++ delta }
  | .toolCallStart toolId toolName =>
    let started := { msg with workStartedAt := msg.workStartedAt.or (some options.workStartedAt) }
    match streamEventString toolId, streamEventString toolName with
    | some id, some name => { started with toolCalls := some (msg.startTool options id name) }
    | _, _ => started
  | .skillInvocation skillName =>
    match streamEventString skillName with
    | some name =>
      { msg with
        workStartedAt := msg.workStartedAt.or (some options.workStartedAt)
        skillNames := some ((msg.skillNames.getD [] ++ [name]).eraseDups) }
    | none => msg
  | .toolCallEnd toolId toolName error =>
    match streamEventString toolId with
    | some id =>
      let ended := endTool options id (streamEventString toolName) error
      { msg with toolCalls := some ((msg.toolCalls.getD []).map ended) }
    | none => msg
  | .planUpdate goal steps =>
    match planSteps steps with
    | [] => msg
    | step :: rest =>
      { msg with
        workStartedAt := msg.workStartedAt.or (some options.workStartedAt)
        runManifest := some (msg.updatePlan options goal (step :: rest)) }
  | .contextUsage => msg
  | .done =>
    { msg with
      isStreaming := some false
      workCompletedAt := some options.now
      toolCalls := some ((msg.toolCalls.getD []).map (complete options)) }
  | .error message =>
    { msg with
      isStreaming := some false
      workCompletedAt := some options.now
      content := if msg.content = [] then options.errorPrefix ++ ": ".toList ++ message
        else msg.content }

def calls (msg : AssistantStreamMessage) : List AssistantToolCallStatus :=
  msg.toolCalls.getD []

end AssistantStreamMessage

/-- An empty message after some events, each with the options at its time. -/
def applyAssistantStreamEvents (events : List (AiStreamEvent × StreamOptions)) :
    AssistantStreamMessage :=
  events.foldl (fun msg event => msg.applyEvent event.2 event.1) {}

namespace AiStreamEvent

def contentText : AiStreamEvent → List Char
  | contentDelta delta => delta
  | _ => []

def reasoningText : AiStreamEvent → List Char
  | reasoningDelta delta => delta
  | _ => []

def isError : AiStreamEvent → Bool
  | error _ => true
  | _ => false

def isTerminal : AiStreamEvent → Bool
  | done | error _ => true
  | _ => false

/-- The call that an event starts: a start that lacks an id or a name starts nothing. -/
def starts : AiStreamEvent → Option (List Char)
  | toolCallStart toolId toolName =>
    (streamEventString toolId).bind fun id => (streamEventString toolName).map fun _ => id
  | _ => none

def ends : AiStreamEvent → Option (List Char)
  | toolCallEnd toolId _ _ => streamEventString toolId
  | _ => none

/-- An end of the call, or the regular end of the stream. -/
def closes (id : List Char) : AiStreamEvent → Bool
  | done => true
  | event => event.ends = some id

end AiStreamEvent

section Step
variable {msg : AssistantStreamMessage} {options : StreamOptions} {event : AiStreamEvent}

namespace AssistantStreamMessage

lemma content_applyEvent (proper : event.isError = false) :
    (msg.applyEvent options event).content = msg.content ++ event.contentText := by
  cases event with
  | error message => cases proper
  | toolCallStart toolId toolName =>
    simp only [applyEvent, AiStreamEvent.contentText, append_nil]
    split <;> rfl
  | skillInvocation skillName | toolCallEnd toolId toolName error | planUpdate goal steps =>
    simp only [applyEvent, AiStreamEvent.contentText, append_nil]
    split <;> rfl
  | contentDelta delta => rfl
  | reasoningDelta delta | contextUsage | done => exact (append_nil _).symm

lemma reasoning_applyEvent :
    (msg.applyEvent options event).reasoningContent.getD [] =
      msg.reasoningContent.getD [] ++ event.reasoningText := by
  cases event with
  | toolCallStart toolId toolName =>
    simp only [applyEvent, AiStreamEvent.reasoningText, append_nil]
    split <;> rfl
  | skillInvocation skillName | toolCallEnd toolId toolName error | planUpdate goal steps =>
    simp only [applyEvent, AiStreamEvent.reasoningText, append_nil]
    split <;> rfl
  | reasoningDelta delta => rfl
  | contentDelta delta | contextUsage | done | error message => exact (append_nil _).symm

lemma isStreaming_applyEvent :
    (msg.applyEvent options event).isStreaming =
      if event.isTerminal then some false else msg.isStreaming := by
  cases event with
  | toolCallStart toolId toolName | skillInvocation skillName | toolCallEnd toolId toolName error
  | planUpdate goal steps =>
    simp only [applyEvent]
    split <;> rfl
  | reasoningDelta delta | contentDelta delta | contextUsage | done | error message => rfl

lemma calls_applyEvent :
    (∃ call : AssistantToolCallStatus, event.starts = some call.toolId ∧ call.status = .running ∧
      (msg.applyEvent options event).calls = msg.calls.filter (·.toolId ≠ call.toolId) ++ [call]) ∨
    event.starts = none ∧ ∃ change : AssistantToolCallStatus → AssistantToolCallStatus,
      (msg.applyEvent options event).calls = msg.calls.map change ∧
      ∀ call, (change call).toolId = call.toolId ∧
        ((change call).status = .completed ↔
          call.status = .completed ∨ event.closes call.toolId = true) := by
  have unchanged {event : AiStreamEvent} (same : (msg.applyEvent options event).calls = msg.calls)
      (quiet : ∀ id, event.closes id = false) :
      ∃ change : AssistantToolCallStatus → AssistantToolCallStatus,
        (msg.applyEvent options event).calls = msg.calls.map change ∧
        ∀ call, (change call).toolId = call.toolId ∧
          ((change call).status = .completed ↔
            call.status = .completed ∨ event.closes call.toolId = true) :=
    ⟨id, by rw [same, map_id], fun call => ⟨rfl, by simp [quiet]⟩⟩
  cases event with
  | toolCallStart toolId toolName =>
    cases named : streamEventString toolId with
    | none =>
      refine Or.inr ⟨by simp [AiStreamEvent.starts, named], unchanged ?_ fun id => rfl⟩
      simp [applyEvent, named, calls]
    | some id =>
      cases named' : streamEventString toolName with
      | none =>
        refine Or.inr ⟨by simp [AiStreamEvent.starts, named'], unchanged ?_ fun id => rfl⟩
        simp [applyEvent, named', calls]
      | some name =>
        let call : AssistantToolCallStatus :=
          { toolId := id, toolName := name, status := .running, startedAt := options.now }
        refine Or.inl ⟨call, ?_, rfl, ?_⟩
        · simp [AiStreamEvent.starts, named, named', call]
        · simp [applyEvent, named, named', calls, startTool, call]
  | toolCallEnd toolId toolName error =>
    refine Or.inr ⟨rfl, ?_⟩
    cases named : streamEventString toolId with
    | none =>
      refine unchanged ?_ fun id => by simp [AiStreamEvent.closes, AiStreamEvent.ends, named]
      simp [applyEvent, named]
    | some id =>
      refine ⟨endTool options id (streamEventString toolName) error, ?_, fun call => ?_⟩
      · simp [applyEvent, named, calls]
      · simp only [endTool, AiStreamEvent.closes, AiStreamEvent.ends, named]
        by_cases here : call.toolId = id
        · simp [here]
        · simp [here, Ne.symm here]
  | done =>
    refine Or.inr ⟨rfl, complete options, rfl, fun call => ?_⟩
    cases open_ : call.status with
    | running => simp [complete, AiStreamEvent.closes, open_]
    | completed => simp [complete, open_]
  | skillInvocation skillName | planUpdate goal steps =>
    refine Or.inr ⟨rfl, unchanged ?_ fun id => rfl⟩
    simp only [applyEvent]
    split <;> rfl
  | reasoningDelta delta | contentDelta delta | contextUsage | error message =>
    exact .inr ⟨rfl, unchanged rfl fun id => rfl⟩

end AssistantStreamMessage
end Step

/-- The events after the last one that starts the call, the latest first. -/
def sinceStart (id : List Char) (events : List (AiStreamEvent × StreamOptions)) :
    List (AiStreamEvent × StreamOptions) :=
  events.reverse.takeWhile fun event => event.1.starts ≠ some id

section Run
variable {events : List (AiStreamEvent × StreamOptions)} {event : AiStreamEvent × StreamOptions}
  {calls : List AssistantToolCallStatus}

lemma sinceStart_concat (id : List Char) :
    sinceStart id (events ++ [event]) =
      if event.1.starts = some id then [] else event :: sinceStart id events := by
  rw [sinceStart, reverse_append, reverse_singleton, singleton_append, takeWhile_cons]
  by_cases starts : event.1.starts = some id
  · simp [starts]
  · simp [starts, sinceStart]

lemma applyAssistantStreamEvents_concat :
    applyAssistantStreamEvents (events ++ [event]) =
      (applyAssistantStreamEvents events).applyEvent event.2 event.1 := by
  rw [applyAssistantStreamEvents, foldl_append]
  rfl

/-- The calls are the started ones, and completed once something closes them. -/
structure ToolsAfter (events : List (AiStreamEvent × StreamOptions))
    (calls : List AssistantToolCallStatus) : Prop where
  distinct : (calls.map (·.toolId)).Nodup
  started : ∀ id, id ∈ calls.map (·.toolId) ↔ ∃ event ∈ events, event.1.starts = some id
  completed : ∀ call ∈ calls, call.status = .completed ↔
    ∃ event ∈ sinceStart call.toolId events, event.1.closes call.toolId = true

lemma ToolsAfter.start (tools : ToolsAfter events calls) {call : AssistantToolCallStatus}
    (starts : event.1.starts = some call.toolId) (open_ : call.status = .running) :
    ToolsAfter (events ++ [event]) (calls.filter (·.toolId ≠ call.toolId) ++ [call]) where
  distinct := by
    rw [map_append, map_singleton]
    refine nodup_append.mpr ⟨tools.distinct.sublist (filter_sublist.map _), by simp, ?_⟩
    intro id kept other added same
    obtain ⟨old, member, rfl⟩ := mem_map.mp kept
    obtain rfl := mem_singleton.mp added
    exact of_decide_eq_true (mem_filter.mp member).2 same
  started id := by
    have before := tools.started id
    by_cases here : id = call.toolId
    · subst here
      simp [starts]
    · simp only [mem_map] at before
      have other : ¬ call.toolId = id := Ne.symm here
      simp only [map_append, mem_append, mem_map, mem_filter,
        map_singleton, mem_singleton, here, or_false, or_and_right, exists_or,
        exists_eq_left, starts, Option.some.injEq, other, ← before]
      constructor
      · rintro ⟨old, ⟨member, -⟩, same⟩
        exact ⟨old, member, same⟩
      · rintro ⟨old, member, same⟩
        exact ⟨old, ⟨member, by simpa [same] using here⟩, same⟩
  completed other member := by
    rw [sinceStart_concat, starts]
    rcases mem_append.mp member with kept | added
    · obtain ⟨kept, apart⟩ := mem_filter.mp kept
      have apart : ¬ call.toolId = other.toolId := Ne.symm (of_decide_eq_true apart)
      have quiet : event.1.closes other.toolId = false := by
        cases here : event.1 with
        | done | toolCallEnd => simp [here, AiStreamEvent.starts] at starts
        | _ => rfl
      simp [apart, quiet, tools.completed other kept]
    · obtain rfl := mem_singleton.mp added
      simp [open_]

lemma ToolsAfter.change (tools : ToolsAfter events calls) (starts : event.1.starts = none)
    {change : AssistantToolCallStatus → AssistantToolCallStatus}
    (changes : ∀ call, (change call).toolId = call.toolId ∧
      ((change call).status = .completed ↔
        call.status = .completed ∨ event.1.closes call.toolId = true)) :
    ToolsAfter (events ++ [event]) (calls.map change) := by
  have ids : (calls.map change).map (·.toolId) = calls.map (·.toolId) := by
    rw [map_map]
    exact map_congr_left fun call _ => (changes call).1
  refine ⟨ids ▸ tools.distinct, fun id => ?_, fun call member => ?_⟩
  · rw [ids, tools.started]
    simp [starts]
  · obtain ⟨old, kept, rfl⟩ := mem_map.mp member
    rw [(changes old).2, (changes old).1, tools.completed old kept, sinceStart_concat, starts]
    simp [or_comm]

lemma toolsAfter (events : List (AiStreamEvent × StreamOptions)) :
    ToolsAfter events (applyAssistantStreamEvents events).calls := by
  induction events using reverseRecOn with
  | nil =>
    have none_ : (applyAssistantStreamEvents []).calls = [] := rfl
    rw [none_]
    constructor <;> simp
  | append_singleton events event tools =>
    rw [applyAssistantStreamEvents_concat]
    rcases AssistantStreamMessage.calls_applyEvent with
      ⟨call, starts, open_, after⟩ | ⟨starts, change, after, changes⟩
    · rw [after]
      exact tools.start starts open_
    · rw [after]
      exact tools.change starts changes

lemma texts_applyAssistantStreamEvents (events : List (AiStreamEvent × StreamOptions))
    (proper : ∀ event ∈ events, event.1.isError = false) :
    (applyAssistantStreamEvents events).content = events.flatMap (·.1.contentText) ∧
      (applyAssistantStreamEvents events).reasoningContent.getD [] =
        events.flatMap (·.1.reasoningText) := by
  induction events using reverseRecOn with
  | nil => exact ⟨rfl, rfl⟩
  | append_singleton events event ih =>
    obtain ⟨content, reasoning⟩ := ih fun other member => proper other (mem_append_left _ member)
    have last := proper event (mem_append_right _ mem_cons_self)
    rw [applyAssistantStreamEvents_concat, AssistantStreamMessage.content_applyEvent last,
      AssistantStreamMessage.reasoning_applyEvent, content, reasoning, flatMap_append,
      flatMap_append, flatMap_singleton, flatMap_singleton]
    exact ⟨rfl, rfl⟩

lemma isStreaming_applyAssistantStreamEvents (events : List (AiStreamEvent × StreamOptions))
    (ended : ∃ event ∈ events, event.1.isTerminal = true) :
    (applyAssistantStreamEvents events).isStreaming = some false := by
  induction events using reverseRecOn with
  | nil => simp at ended
  | append_singleton events event ih =>
    rw [applyAssistantStreamEvents_concat, AssistantStreamMessage.isStreaming_applyEvent]
    split
    · rfl
    · rename_i goes
      refine ih ?_
      obtain ⟨other, member, terminal⟩ := ended
      rcases mem_append.mp member with before | last
      · exact ⟨other, before, terminal⟩
      · exact absurd (mem_singleton.mp last ▸ terminal) goes

end Run

/-- The message shows what the events say. -/
structure Shows (events : List (AiStreamEvent × StreamOptions)) (msg : AssistantStreamMessage) :
    Prop where
  texts : (∀ event ∈ events, event.1.isError = false) →
    msg.content = events.flatMap (·.1.contentText) ∧
      msg.reasoningContent.getD [] = events.flatMap (·.1.reasoningText)
  distinct : (msg.calls.map (·.toolId)).Nodup
  completed : ∀ call ∈ msg.calls, call.status = .completed ↔
    ∃ event ∈ sinceStart call.toolId events,
      event.1.ends = some call.toolId ∨ event.1.isTerminal = true
  closed : (∃ event ∈ events, event.1.isTerminal = true) →
    msg.isStreaming = some false ∧ ∀ call ∈ msg.calls, call.status ≠ .running

/-- Once the stream has ended, every call is ended, or followed by the regular end of the stream:
an error closes no call. -/
theorem shows_iff (events : List (AiStreamEvent × StreamOptions)) :
    Shows events (applyAssistantStreamEvents events) ↔
      ((∃ event ∈ events, event.1.isTerminal = true) →
        ∀ id, (∃ event ∈ events, event.1.starts = some id) →
          ∃ event ∈ sinceStart id events, event.1.closes id = true) := by
  have tools := toolsAfter events
  constructor
  · intro shows_ ended id started
    obtain ⟨call, member, rfl⟩ := mem_map.mp ((tools.started id).mpr started)
    refine (tools.completed call member).mp ?_
    cases status : call.status with
    | running => exact absurd status ((shows_.closed ended).2 call member)
    | completed => rfl
  · intro closes
    have all (ended : ∃ event ∈ events, event.1.isTerminal = true) :
        ∀ call ∈ (applyAssistantStreamEvents events).calls, call.status = .completed :=
      fun call member => (tools.completed call member).mpr
        (closes ended _ ((tools.started _).mp (mem_map_of_mem member)))
    refine ⟨texts_applyAssistantStreamEvents events, tools.distinct, fun call member => ?_,
      fun ended => ⟨isStreaming_applyAssistantStreamEvents events ended, fun call member => ?_⟩⟩
    · rw [tools.completed call member]
      constructor
      · rintro ⟨event, since, close⟩
        refine ⟨event, since, ?_⟩
        cases here : event.1 with
        | done => exact .inr rfl
        | _ => exact .inl (by simpa [here, AiStreamEvent.closes] using close)
      · rintro ⟨event, since, end_ | terminal⟩
        · refine ⟨event, since, ?_⟩
          cases here : event.1 with
          | done => rfl
          | _ => simpa [here, AiStreamEvent.closes] using end_
        · have inside : event ∈ events := mem_reverse.mp ((takeWhile_sublist _).subset since)
          exact (tools.completed call member).mp (all ⟨event, inside, terminal⟩ call member)
    · rw [all ended call member]
      decide

def sampleOptions : StreamOptions where
  errorPrefix := "Error".toList
  now := "now".toList
  workStartedAt := "start".toList
  freshRunId := "run".toList

def sampleStart : AiStreamEvent :=
  .toolCallStart { camel := .text "a".toList } { camel := .text "read".toList }

/-- A stream that fails while a call runs leaves the call running. -/
theorem failed_stream_leaves_call :
    ¬ Shows [(sampleStart, sampleOptions), (.error "lost".toList, sampleOptions)]
      (applyAssistantStreamEvents
        [(sampleStart, sampleOptions), (.error "lost".toList, sampleOptions)]) := by
  intro shows_
  have closed := (shows_.closed ⟨_, mem_cons_of_mem _ mem_cons_self, rfl⟩).2
  exact absurd closed (by decide)

end Assistant
