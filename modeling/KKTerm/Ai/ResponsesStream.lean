import KKTerm.Library.Text
import Mathlib.Data.UInt

/-!
# Chat Completions stream state

What the deltas of a streamed chat completion add up to: content, reasoning and
tool calls, whose fragments find their call by index, by id or by position.
Finish reasons, which are only logged, are left out.
-/

namespace Ai

/-- A JSON value. Numbers, which are never read here, keep their literal. -/
inductive Value where
  | null
  | bool (b : Bool)
  | number (literal : List Char)
  | string (s : List Char)
  | array (items : List Value)
  | object (fields : List (List Char × Value))

namespace Value

def get : Value → String → Option Value
  | .object fields, key => fields.lookup key.toList
  | _, _ => none

def asStr : Value → Option (List Char)
  | .string s => some s
  | _ => none

def asArray : Value → Option (List Value)
  | .array items => some items
  | _ => none

end Value

structure OpenAiToolCallFunction where
  name : List Char
  arguments : List Char

structure OpenAiToolCall where
  id : List Char
  function : OpenAiToolCallFunction
  extraContent : Option Value

structure ReasoningDetail where
  summary : Option (List Char)
  text : Option (List Char)

structure SseToolCallFunctionDelta where
  name : Option (List Char)
  arguments : Option (List Char)

structure SseToolCallDelta where
  index : Option UInt32
  id : Option (List Char)
  function : Option SseToolCallFunctionDelta
  extraContent : Option Value

structure ChatSseDelta where
  content : Option (List Char) := none
  reasoningContent : Option (List Char) := none
  reasoning : Option (List Char) := none
  reasoningDetails : List ReasoningDetail := []
  toolCalls : List SseToolCallDelta := []

structure ChatSseChoice where
  delta : ChatSseDelta

structure ChatSseChunk where
  choices : List ChatSseChoice

def reasoningDetailsText (details : List ReasoningDetail) : Option (List Char) :=
  let parts := details.filterMap (fun detail =>
    ((detail.summary.or detail.text).map Text.trim).filter (fun value => value ≠ []))
  some (['\n', '\n'].intercalate parts) |>.filter (fun text => text ≠ [])

def chatSseDeltaReasoning (delta : ChatSseDelta) : Option (List Char) :=
  (delta.reasoningContent.or delta.reasoning).or (reasoningDetailsText delta.reasoningDetails)

structure ToolCallAccumulator where
  id : List Char := []
  name : List Char := []
  arguments : List Char := []
  extraContent : Option Value := none

/-- The map of calls under way, by index, in the order of insertion. -/
abbrev ToolCallBuilders := List (UInt32 × ToolCallAccumulator)

/-- A hash map iterates over its keys in an order of its own. -/
structure HashOrder where
  order : List UInt32 → List UInt32
  perm : ∀ keys, (order keys).Perm keys

namespace ToolCallBuilders

def keys (builders : ToolCallBuilders) : List UInt32 :=
  builders.map Prod.fst

/-- The first call, in the map's order, that has the id. -/
def indexOf (builders : ToolCallBuilders) (hash : HashOrder) (id : List Char) : Option UInt32 :=
  (hash.order builders.keys).find? (fun index => (builders.lookup index).any (fun acc => acc.id = id))

/-- One above the largest index. -/
def freeIndex (builders : ToolCallBuilders) : UInt32 :=
  (builders.keys.max?.map (· + 1)).getD 0

/-- The call of a fragment: by its index, by a known id, a new one for a new id,
or by its position in the delta. -/
def slot (builders : ToolCallBuilders) (hash : HashOrder) (position : Nat)
    (tc : SseToolCallDelta) : UInt32 :=
  let known := tc.id.bind (builders.indexOf hash)
  let fresh := (tc.id.filter (fun id => id ≠ [])).map (fun _ => builders.freeIndex)
  ((tc.index.or known).or fresh).getD (UInt32.ofNat position)

def modify (builders : ToolCallBuilders) (index : UInt32)
    (f : ToolCallAccumulator → ToolCallAccumulator) : ToolCallBuilders :=
  if index ∈ builders.keys then
    builders.map (fun entry => if entry.1 = index then (index, f entry.2) else entry)
  else builders ++ [(index, f {})]

end ToolCallBuilders

def ToolCallAccumulator.add (acc : ToolCallAccumulator) (tc : SseToolCallDelta) :
    ToolCallAccumulator :=
  { id := tc.id.getD acc.id
    name := (tc.function.bind SseToolCallFunctionDelta.name).getD acc.name
    arguments := acc.arguments ++ (tc.function.bind SseToolCallFunctionDelta.arguments).getD []
    extraContent := tc.extraContent.or acc.extraContent }

structure ChatStreamState where
  content : List Char := []
  reasoning : List Char := []
  toolCallBuilders : ToolCallBuilders := []

structure ChatStreamDeltas where
  contentDelta : Option (List Char)
  reasoningDelta : Option (List Char)

namespace ChatStreamState

def applyToolCall (hash : HashOrder) (builders : ToolCallBuilders) (tc : SseToolCallDelta × Nat) :
    ToolCallBuilders :=
  builders.modify (builders.slot hash tc.2 tc.1) (fun acc => acc.add tc.1)

def applyChoice (hash : HashOrder) (state : ChatStreamState) (choice : ChatSseChoice) :
    ChatStreamState :=
  { content := state.content ++ choice.delta.content.getD []
    reasoning := state.reasoning ++ (chatSseDeltaReasoning choice.delta).getD []
    toolCallBuilders :=
      choice.delta.toolCalls.zipIdx.foldl (applyToolCall hash) state.toolCallBuilders }

/-- The texts that the choices of a chunk add, if any. -/
def chunkDeltas (chunk : ChatSseChunk) : ChatStreamDeltas :=
  let content := chunk.choices.flatMap (fun choice => choice.delta.content.getD [])
  let reasoning := chunk.choices.flatMap (fun choice => (chatSseDeltaReasoning choice.delta).getD [])
  { contentDelta := if content = [] then none else some content
    reasoningDelta := if reasoning = [] then none else some reasoning }

def applyChunk (hash : HashOrder) (state : ChatStreamState) (chunk : ChatSseChunk) :
    ChatStreamState × ChatStreamDeltas :=
  (chunk.choices.foldl (applyChoice hash) state, chunkDeltas chunk)

def reasoningContent (state : ChatStreamState) : Option (List Char) :=
  if Text.trim state.reasoning = [] then none else some state.reasoning

def toToolCall (index : UInt32) (acc : ToolCallAccumulator) : Option OpenAiToolCall :=
  if acc.name = [] then none
  else some
    { id := if acc.id = [] then "call_".toList ++ (toString index).toList else acc.id
      function := { name := acc.name, arguments := acc.arguments }
      extraContent := acc.extraContent }

/-- The named calls by increasing index. -/
def intoToolCalls (state : ChatStreamState) : List OpenAiToolCall :=
  let builders := state.toolCallBuilders
  (builders.keys.mergeSort (fun a b => a ≤ b)).filterMap (fun index =>
    (builders.lookup index).bind (toToolCall index))

end ChatStreamState

end Ai

/-!
# Responses stream state

What the events of a streamed response add up to, and what is read from the body
when the provider answers with one JSON document instead of a stream.
-/

namespace Ai

structure ResponsesStreamToolCall where
  callId : List Char
  name : List Char
  arguments : List Char

structure ResponsesStreamState where
  content : Option (List Char) := none
  reasoning : List Char := []
  toolCallItems : List (List Char × ResponsesStreamToolCall) := []
  toolCallOrder : List (List Char) := []

structure ResponsesStreamDeltas where
  contentDelta : Option (List Char) := none
  reasoningDelta : Option (List Char) := none

/-- The kinds of events that have an effect. -/
inductive ResponsesEventType where
  | outputTextDelta
  | outputTextDone
  | refusalDelta
  | refusalDone
  | reasoningDelta
  | reasoningDone
  | completed
  | outputItemAdded
  | outputItemDone
  | functionCallArgumentsDelta
  | functionCallArgumentsDone

def responsesEventTypes : List (List Char × ResponsesEventType) :=
  [("response.output_text.delta".toList, .outputTextDelta),
    ("response.output_text.done".toList, .outputTextDone),
    ("response.refusal.delta".toList, .refusalDelta),
    ("response.refusal.done".toList, .refusalDone),
    ("response.reasoning_text.delta".toList, .reasoningDelta),
    ("response.reasoning_summary_text.delta".toList, .reasoningDelta),
    ("response.reasoning_text.done".toList, .reasoningDone),
    ("response.reasoning_summary_text.done".toList, .reasoningDone),
    ("response.completed".toList, .completed),
    ("response.output_item.added".toList, .outputItemAdded),
    ("response.output_item.done".toList, .outputItemDone),
    ("response.function_call_arguments.delta".toList, .functionCallArgumentsDelta),
    ("response.function_call_arguments.done".toList, .functionCallArgumentsDone)]

def Value.getStr (v : Value) (key : String) : Option (List Char) :=
  (v.get key).bind Value.asStr

def Value.getArray (v : Value) (key : String) : Option (List Value) :=
  (v.get key).bind Value.asArray

def Value.hasType (v : Value) (type : String) : Bool :=
  v.getStr "type" = some type.toList

def messagePartText (part : Value) : Option (List Char) :=
  if part.hasType "output_text" then part.getStr "text"
  else if part.hasType "refusal" then part.getStr "refusal"
  else none

def joined (parts : List (List Char)) : Option (List Char) :=
  if parts = [] then none else some (['\n'].intercalate parts)

def nonemptyTrimmed (text : List Char) : Option (List Char) :=
  if Text.trim text = [] then none else some (Text.trim text)

def extractResponsesOutputText (response : Value) : Option (List Char) := do
  let output ← response.getArray "output"
  joined (output.flatMap (fun item =>
    if item.hasType "message" then
      ((item.getArray "content").getD []).filterMap (fun part =>
        (messagePartText part).bind nonemptyTrimmed)
    else []))

def reasoningPartText (part : Value) : Option (List Char) :=
  if part.hasType "summary_text" || part.hasType "reasoning_text" then
    (part.getStr "text").bind nonemptyTrimmed
  else none

def extractResponsesReasoningText (response : Value) : Option (List Char) :=
  match (response.getStr "reasoning_content").bind nonemptyTrimmed with
  | some text => some text
  | none => do
    let output ← response.getArray "output"
    joined (output.flatMap (fun item =>
      if item.hasType "reasoning" then
        ["summary", "content"].flatMap (fun field =>
          ((item.getArray field).getD []).filterMap reasoningPartText)
      else []))

def extractResponsesToolCalls (response : Value) : List OpenAiToolCall :=
  ((response.getArray "output").getD []).filterMap (fun item =>
    if item.hasType "function_call" then do
      let name ← item.getStr "name"
      let arguments := (item.getStr "arguments").getD ['{', '}']
      let id ← ((item.get "call_id").or (item.get "id")).bind Value.asStr
      some { id, function := { name, arguments }, extraContent := none }
    else none)

def responsesStreamErrorMessage (event : Value) : Option (List Char) :=
  let error :=
    if event.hasType "error" then event.get "error"
    else if event.hasType "response.failed" then
      (event.get "response").bind (fun response => response.get "error")
    else none
  (error.bind (fun error => error.getStr "message")).bind nonemptyTrimmed

namespace ResponsesStreamState

def appendContent (state : ResponsesStreamState) (delta : List Char) : ResponsesStreamState :=
  if delta = [] then state
  else { state with content := some (state.content.getD [] ++ delta) }

def takeToolCalls (items : List (List Char × ResponsesStreamToolCall)) :
    List (List Char) → List OpenAiToolCall
  | [] => []
  | itemId :: order =>
    match items.lookup itemId with
    | none => takeToolCalls items order
    | some item =>
      let rest := takeToolCalls (items.filter (fun entry => entry.1 ≠ itemId)) order
      if item.name ≠ [] ∧ item.callId ≠ [] then
        { id := item.callId
          function := { name := item.name, arguments := item.arguments }
          extraContent := none } :: rest
      else rest

def intoToolCalls (state : ResponsesStreamState) : List OpenAiToolCall :=
  takeToolCalls state.toolCallItems state.toolCallOrder

/-- Insert an item, or overwrite the one with its id. -/
def insertItem (state : ResponsesStreamState) (itemId : List Char)
    (item : ResponsesStreamToolCall) : ResponsesStreamState :=
  if itemId ∈ state.toolCallItems.map Prod.fst then
    { state with
      toolCallItems := state.toolCallItems.map (fun entry =>
        if entry.1 = itemId then (itemId, item) else entry) }
  else
    { state with
      toolCallItems := state.toolCallItems ++ [(itemId, item)]
      toolCallOrder := state.toolCallOrder ++ [itemId] }

def modifyArguments (state : ResponsesStreamState) (itemId : List Char)
    (f : List Char → List Char) : ResponsesStreamState :=
  { state with
    toolCallItems := state.toolCallItems.map (fun entry =>
      if entry.1 = itemId then (itemId, { entry.2 with arguments := f entry.2.arguments })
      else entry) }

end ResponsesStreamState

/-- A completed text adds what the content so far is a prefix of, or nothing. -/
def appendCompletedResponsesText (state : ResponsesStreamState) (text : List Char) :
    ResponsesStreamState × Option (List Char) :=
  let text := Text.trim text
  if text = [] then (state, none)
  else
    match state.content with
    | some current =>
      if current = text then (state, none)
      else if current <+: text then
        let delta := text.drop current.length
        (state.appendContent delta, if delta = [] then none else some delta)
      else (state, none)
    | none => (state.appendContent text, some text)

def appendCompletedResponsesMessageText (state : ResponsesStreamState) (item : Value) :
    ResponsesStreamState × Option (List Char) :=
  if item.hasType "message" then
    match item.getArray "content" with
    | none => (state, none)
    | some content =>
      appendCompletedResponsesText state
        (Text.trim (['\n'].intercalate (content.filterMap messagePartText)))
  else (state, none)

/-- A reasoning text is added unless it is part of what is there. -/
def appendReasoningDone (state : ResponsesStreamState) (text : Option (List Char)) :
    ResponsesStreamState × Option (List Char) :=
  match text.bind nonemptyTrimmed with
  | none => (state, none)
  | some text =>
    if Text.contains state.reasoning text then (state, none)
    else ({ state with reasoning := state.reasoning ++ text }, some text)

/-- The content of each completed message in turn. -/
def appendCompletedItems (state : ResponsesStreamState) :
    List Value → ResponsesStreamState × List Char
  | [] => (state, [])
  | item :: items =>
    let (state, delta) := appendCompletedResponsesMessageText state item
    let (state, rest) := appendCompletedItems state items
    (state, delta.getD [] ++ rest)

def applyDelta (state : ResponsesStreamState) (event : Value) :
    ResponsesStreamState × ResponsesStreamDeltas :=
  match event.getStr "delta" with
  | none => (state, {})
  | some delta =>
    if delta = [] then (state, {})
    else (state.appendContent delta, { contentDelta := some delta })

def applyOutputItemAdded (state : ResponsesStreamState) (item : Value) : ResponsesStreamState :=
  if item.hasType "function_call" then
    let itemId := (item.getStr "id").getD []
    if itemId = [] then state
    else
      state.insertItem itemId
        { callId := (((item.get "call_id").or (item.get "id")).bind Value.asStr).getD []
          name := (item.getStr "name").getD []
          arguments := [] }
  else state

def applyResponsesStreamEvent (state : ResponsesStreamState) (event : Value) :
    ResponsesStreamState × ResponsesStreamDeltas :=
  let itemId := (event.getStr "item_id").getD []
  match responsesEventTypes.lookup ((event.getStr "type").getD []) with
  | some .outputTextDelta | some .refusalDelta => applyDelta state event
  | some .outputTextDone =>
    match event.getStr "text" with
    | none => (state, {})
    | some text =>
      let (state, contentDelta) := appendCompletedResponsesText state text
      (state, { contentDelta })
  | some .refusalDone =>
    match event.getStr "refusal" with
    | none => (state, {})
    | some refusal =>
      let (state, contentDelta) := appendCompletedResponsesText state refusal
      (state, { contentDelta })
  | some .reasoningDelta =>
    match event.getStr "delta" with
    | none => (state, {})
    | some delta =>
      if delta = [] then (state, {})
      else ({ state with reasoning := state.reasoning ++ delta }, { reasoningDelta := some delta })
  | some .reasoningDone =>
    let (state, reasoningDelta) := appendReasoningDone state (event.getStr "text")
    (state, { reasoningDelta })
  | some .completed =>
    match event.get "response" with
    | none => (state, {})
    | some response =>
      let (state, content) := appendCompletedItems state ((response.getArray "output").getD [])
      let (state, reasoningDelta) :=
        appendReasoningDone state (extractResponsesReasoningText response)
      (state, { contentDelta := if content = [] then none else some content, reasoningDelta })
  | some .outputItemAdded =>
    match event.get "item" with
    | none => (state, {})
    | some item => (applyOutputItemAdded state item, {})
  | some .outputItemDone =>
    match event.get "item" with
    | none => (state, {})
    | some item =>
      let (state, contentDelta) := appendCompletedResponsesMessageText state item
      (state, { contentDelta })
  | some .functionCallArgumentsDelta =>
    match event.getStr "delta" with
    | none => (state, {})
    | some delta => (state.modifyArguments itemId (· ++ delta), {})
  | some .functionCallArgumentsDone =>
    match event.getStr "arguments" with
    | none => (state, {})
    | some arguments => (state.modifyArguments itemId (fun _ => arguments), {})
  | none => (state, {})

end Ai
