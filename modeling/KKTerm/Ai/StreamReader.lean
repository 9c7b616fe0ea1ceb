import KKTerm.Ai.ResponsesStream
import KKTerm.Library.LineReader
import KKTerm.Library.Utf8

/-!
# Reading a provider's stream

Both readers decode each network chunk on its own, take lines off a growing
buffer and apply the `data` fields. `[DONE]` leaves the inner loop only, so that
a later chunk goes on with the lines behind it. Where no cut falls inside a
character and nothing that matters follows `[DONE]`, the result does not depend
on the cuts. Event names, which are only logged, are left out.
-/

namespace Ai

open Utf8 hiding after next
open Fallible LineReader List Text

inductive AiStreamEvent where
  | reasoningDelta (delta : List Char)
  | contentDelta (delta : List Char)

/-- What the readers rest on: the deserializer, the channel, whose answer may
depend on what was sent before, and the order of the hash map. -/
structure Env where
  parseChunk : List Char → Except (List Char) ChatSseChunk
  parseValue : List Char → Except (List Char) Value
  send : List AiStreamEvent → AiStreamEvent → Except (List Char) Unit
  hash : HashOrder

/-- The state of a stream and the events that were sent for it. -/
structure Live (State : Type) where
  state : State
  sent : List AiStreamEvent

def prefixError {α : Type} (message : String) (x : Except (List Char) α) :
    Except (List Char) α :=
  x.mapError (fun e => message.toList ++ e)

def sseFieldValue (line : List Char) (fieldName : String) : Option (List Char) :=
  match Text.splitOnce ':' line with
  | none => none
  | some (name, value) =>
    if name ≠ fieldName.toList then none
    else
      match value with
      | ' ' :: rest => some rest
      | _ => some value

def done : List Char := "[DONE]".toList

def emitStream (env : Env) (sent : List AiStreamEvent) (event : AiStreamEvent) :
    Except (List Char) (List AiStreamEvent) := do
  prefixError "failed to send stream event: " (env.send sent event)
  pure (sent ++ [event])

/-- The content goes out before the reasoning. -/
def emitDeltas (env : Env) (sent : List AiStreamEvent) (content reasoning : Option (List Char)) :
    Except (List Char) (List AiStreamEvent) := do
  let sent ←
    match content with
    | some delta => emitStream env sent (.contentDelta delta)
    | none => pure sent
  match reasoning with
  | some delta => emitStream env sent (.reasoningDelta delta)
  | none => pure sent

def applyChatStreamData (env : Env) (r : Live ChatStreamState) (data : List Char) :
    Except (List Char) (Live ChatStreamState × Bool) := do
  if data = done then pure (r, true)
  else
    let chunk ← prefixError "SSE parse error: " (env.parseChunk data)
    let (state, deltas) := r.state.applyChunk env.hash chunk
    let sent ← emitDeltas env r.sent deltas.contentDelta deltas.reasoningDelta
    pure ({ state, sent }, false)

/-- One round of the inner loop; the flag leaves it. -/
def chatLine (env : Env) (r : Live ChatStreamState) (line : List Char) :
    Except (List Char) (Live ChatStreamState × Bool) :=
  let line := Text.trim line
  if line = [] ∨ line.head? = some ':' then pure (r, false)
  else
    match sseFieldValue line "data" with
    | none => pure (r, false)
    | some data => applyChatStreamData env r data

def chatTrailing (env : Env) (r : Live ChatStreamState) (buf : List Char) :
    Except (List Char) (Live ChatStreamState) :=
  let trailingLine := Text.trim buf
  if trailingLine = [] then pure r
  else
    match sseFieldValue trailingLine "data" with
    | none => pure r
    | some data =>
      if data ≠ done then do
        let (r, _) ← applyChatStreamData env r data
        pure r
      else pure r

/-- A network chunk, or the error that ends the stream. -/
abbrev NetworkChunk := Except (List Char) (List UInt8)

def readChunk (chunk : NetworkChunk) : Except (List Char) (List Char) := do
  let chunk ← prefixError "stream read error: " chunk
  pure (Utf8.fromUtf8Lossy chunk)

def streamChatCompletions (env : Env) (stream : List NetworkChunk) :
    Except (List Char) (List Char × List OpenAiToolCall × Option (List Char)) := do
  let (r, buf) ← stream.foldlM
    (fun (r : Live ChatStreamState × List Char) chunk => do
      drain (chatLine env) r.1 (r.2 ++ (← readChunk chunk)))
    ({ state := {}, sent := [] }, [])
  let r ← chatTrailing env r buf
  pure (r.state.content, r.state.intoToolCalls, r.state.reasoningContent)

structure ResponsesReader where
  live : Live ResponsesStreamState
  sawSseData : Bool

def applyResponsesData (env : Env) (r : ResponsesReader) (data : List Char) :
    Except (List Char) ResponsesReader := do
  let event ← prefixError "SSE parse error: " (env.parseValue data)
  match responsesStreamErrorMessage event with
  | some message => throw message
  | none =>
    let (state, deltas) := applyResponsesStreamEvent r.live.state event
    let sent ← emitDeltas env r.live.sent deltas.contentDelta deltas.reasoningDelta
    pure { r with live := { state, sent } }

def responsesLine (env : Env) (r : ResponsesReader) (line : List Char) :
    Except (List Char) (ResponsesReader × Bool) :=
  let line := Text.trim line
  if (sseFieldValue line "event").isSome then pure (r, false)
  else
    match sseFieldValue line "data" with
    | none => pure (r, false)
    | some data => do
      let r := { r with sawSseData := true }
      if data = done then pure (r, true)
      else pure (← applyResponsesData env r data, false)

def responsesTrailing (env : Env) (r : ResponsesReader) (buf : List Char) :
    Except (List Char) ResponsesReader :=
  let trailingLine := Text.trim buf
  if trailingLine = [] then pure r
  else
    match sseFieldValue trailingLine "data" with
    | none => pure r
    | some data =>
      let r := { r with sawSseData := true }
      if data ≠ done then applyResponsesData env r data else pure r

abbrev ResponsesResult := Option (List Char) × List OpenAiToolCall × Option (List Char)

def parseNonSseResponsesStreamBody (env : Env) (body : List Char) :
    Except (List Char) ResponsesResult := do
  if Text.trim body = [] then pure (none, [], none)
  else
    let response ←
      prefixError "Responses stream fallback parse error: " (env.parseValue (Text.trim body))
    pure (extractResponsesOutputText response, extractResponsesToolCalls response,
      extractResponsesReasoningText response)

def streamResponsesCompletions (env : Env) (stream : List NetworkChunk) :
    Except (List Char) ResponsesResult := do
  let ((r, buf), body) ← stream.foldlM
    (fun (s : (ResponsesReader × List Char) × List Char) chunk => do
      let chunk ← readChunk chunk
      pure (← drain (responsesLine env) s.1.1 (s.1.2 ++ chunk), s.2 ++ chunk))
    (({ live := { state := {}, sent := [] }, sawSseData := false }, []), [])
  let r ← responsesTrailing env r buf
  if !r.sawSseData then parseNonSseResponsesStreamBody env body
  else
    let state := r.live.state
    pure (state.content, state.intoToolCalls,
      if Text.trim state.reasoning = [] then none else some state.reasoning)

def doneLine (line : List Char) : Bool :=
  sseFieldValue (Text.trim line) "data" = some done

/-- A line without the field `data`. -/
def IdleLine (line : List Char) : Prop :=
  sseFieldValue (Text.trim line) "data" = none

instance (line : List Char) : Decidable (IdleLine line) :=
  inferInstanceAs (Decidable (_ = none))

def dataField : List Char := ['d', 'a', 't', 'a', ':']

lemma dataField_eq (t : List Char) : dataField ++ t = "data".toList ++ ':' :: t := rfl

lemma sseFieldValue_data (line : List Char) :
    sseFieldValue line "data" = none ↔ ¬ dataField <+: line := by
  have fresh : ':' ∉ "data".toList := by decide
  constructor
  · rintro idle ⟨t, rfl⟩
    rw [dataField_eq, sseFieldValue, splitOnce_append fresh] at idle
    simp only [ne_eq, not_true_eq_false, if_false] at idle
    split at idle <;> cases idle
  · intro other
    rw [sseFieldValue]
    split
    · rfl
    · rename_i name value cut
      rw [if_pos]
      intro same
      refine other ⟨value, ?_⟩
      rw [dataField_eq, ← same]
      exact (splitOnce_eq_some cut).1.symm

lemma prefix_of_append {p a b : List Char} {c : Char} (fresh : c ∉ p) (h : p <+: a ++ c :: b) :
    p <+: a := by
  rcases prefix_or_prefix_of_prefix h (prefix_append a _) with inside | ⟨q, rfl⟩
  · exact inside
  · cases q with
    | nil => simp
    | cons x q =>
      rw [prefix_append_right_inj, cons_prefix_cons] at h
      exact absurd (by simp [h.1]) fresh

lemma idle_text {t : List Char} (idle : ∀ line ∈ Text.split '\n' t, IdleLine line) :
    IdleLine t := by
  induction t using pieces_induction '\n' with
  | whole t h =>
    rw [split_of_not_mem h] at idle
    exact idle t mem_cons_self
  | piece line t h ih =>
    rw [split_append h] at idle
    have here := idle line mem_cons_self
    have rest := ih (fun l hl => idle l (mem_cons_of_mem line hl))
    by_cases blank : Blank line
    · rw [IdleLine, trim_blank_line blank]
      exact rest
    · rw [IdleLine, sseFieldValue_data] at here ⊢
      intro whole
      rw [trim, trimStart_append blank] at whole
      have front : dataField <+: trimStart line :=
        prefix_of_append (by decide) (whole.trans (Text.trimEnd_prefix _))
      obtain ⟨value, shape⟩ := front
      refine here ?_
      rw [trim, ← shape]
      by_cases empty : Blank value
      · rw [trimEnd_blank empty]
        exact prefix_refl _
      · rw [trimEnd_append empty]
        exact prefix_append _ _

/-- Empty lines and comments have no data. -/
lemma sseFieldValue_ignored {line : List Char} (h : line = [] ∨ line.head? = some ':') :
    sseFieldValue line "data" = none := by
  rw [sseFieldValue_data]
  rintro ⟨t, rfl⟩
  simp [dataField] at h

lemma sseFieldValue_other {line : List Char} {f g : String} (differ : f.toList ≠ g.toList)
    (h : (sseFieldValue line f).isSome = true) : sseFieldValue line g = none := by
  rw [sseFieldValue] at h ⊢
  split at h
  · cases h
  · rename_i name value cut
    by_cases named : name = f.toList
    · exact if_pos (named ▸ differ)
    · rw [if_pos named] at h
      cases h

section Readers
variable (env : Env)

lemma applyChatStreamData_stop {r r' : Live ChatStreamState} {data : List Char} {stop : Bool}
    (h : applyChatStreamData env r data = .ok (r', stop)) : stop = decide (data = done) := by
  by_cases last : data = done
  · rw [applyChatStreamData, if_pos last] at h
    cases h
    exact (decide_eq_true last).symm
  · rw [applyChatStreamData, if_neg last] at h
    obtain ⟨chunk, _, h⟩ := bind_eq_ok.mp h
    obtain ⟨sent, _, applied⟩ := bind_eq_ok.mp h
    cases applied
    exact (decide_eq_false last).symm

lemma chatReads : Reads (chatLine env) doneLine IdleLine where
  trimmed r l l' same := by simp only [chatLine, same]
  stop_eq := by
    intro r l r' stop h
    rw [chatLine] at h
    split at h
    · rename_i ignored
      cases h
      rw [doneLine, sseFieldValue_ignored ignored]
      rfl
    · split at h
      · rename_i idle
        cases h
        rw [doneLine, idle]
        rfl
      · rename_i data found
        rw [applyChatStreamData_stop env h, doneLine, found]
        simp
  idle_step := by
    intro r l idle
    rw [chatLine, idle]
    exact ite_self _
  idle_nil := rfl
  idle_text := idle_text

lemma chatTrailing_eq (r : Live ChatStreamState × List Char) :
    chatTrailing env r.1 r.2 = finish (chatLine env) r := by
  rw [chatTrailing, finish, chatLine]
  by_cases empty : trim r.2 = []
  · rw [if_pos empty, if_pos (.inl empty)]
    rfl
  · rw [if_neg empty]
    by_cases comment : (trim r.2).head? = some ':'
    · rw [if_pos (.inr comment), sseFieldValue_ignored (.inr comment)]
      rfl
    · rw [if_neg (not_or.mpr ⟨empty, comment⟩)]
      cases found : sseFieldValue (trim r.2) "data" with
      | none => rfl
      | some data =>
        dsimp only
        by_cases last : data = done
        · rw [if_neg (not_not.mpr last), applyChatStreamData, if_pos last]
          rfl
        · rw [if_pos last]

lemma responsesReads : Reads (responsesLine env) doneLine IdleLine where
  trimmed r l l' same := by simp only [responsesLine, same]
  stop_eq := by
    intro r l r' stop h
    rw [responsesLine] at h
    split at h
    · rename_i event
      cases h
      rw [doneLine, sseFieldValue_other (by decide) event]
      rfl
    · split at h
      · rename_i idle
        cases h
        rw [doneLine, idle]
        rfl
      · rename_i data found
        rw [doneLine, found]
        by_cases last : data = done
        · rw [if_pos last] at h
          cases h
          simp [last]
        · rw [if_neg last] at h
          obtain ⟨r₁, _, applied⟩ := bind_eq_ok.mp h
          cases applied
          simp [last]
  idle_step := by
    intro r l idle
    rw [responsesLine, idle]
    exact ite_self _
  idle_nil := rfl
  idle_text := idle_text

lemma responsesTrailing_eq (r : ResponsesReader × List Char) :
    responsesTrailing env r.1 r.2 = finish (responsesLine env) r := by
  rw [responsesTrailing, finish, responsesLine]
  by_cases empty : trim r.2 = []
  · rw [if_pos empty, empty]
    rfl
  · rw [if_neg empty]
    by_cases event : (sseFieldValue (trim r.2) "event").isSome
    · rw [if_pos event, sseFieldValue_other (by decide) event]
      rfl
    · rw [if_neg event]
      cases found : sseFieldValue (trim r.2) "data" with
      | none => rfl
      | some data =>
        dsimp only
        by_cases last : data = done
        · rw [if_neg (not_not.mpr last), if_pos last]
          rfl
        · rw [if_pos last, if_neg last]
          cases applyResponsesData env { r.1 with sawSseData := true } data <;> rfl

variable (chunks : List (List UInt8))

/-- The chat reader is the line reader on the decoded chunks. -/
lemma streamChatCompletions_eq :
    streamChatCompletions env (chunks.map .ok) =
      readAll (chatLine env) { state := {}, sent := [] } (chunks.map fromUtf8Lossy) >>= fun r =>
        pure (r.state.content, r.state.intoToolCalls, r.state.reasoningContent) := by
  rw [streamChatCompletions, readAll, foldlM_map, foldlM_map, bind_assoc]
  refine bind_congr_ok (fun r _ => ?_)
  rw [← chatTrailing_eq]

/-- The body collects the decoded chunks while the lines are read. -/
lemma responses_fold (r : ResponsesReader × List Char) (body : List Char) :
    (chunks.map .ok).foldlM
        (fun (s : (ResponsesReader × List Char) × List Char) (chunk : NetworkChunk) => do
          let chunk ← readChunk chunk
          pure (← drain (responsesLine env) s.1.1 (s.1.2 ++ chunk), s.2 ++ chunk)) (r, body) =
      (chunks.map fromUtf8Lossy).foldlM (feed (responsesLine env)) r >>= fun r =>
        pure (r, body ++ (chunks.map fromUtf8Lossy).flatten) := by
  induction chunks generalizing r body with
  | nil => simp
  | cons chunk chunks ih =>
    rw [map_cons, map_cons, foldlM_cons, foldlM_cons, flatten_cons, ← append_assoc, bind_assoc]
    have decoded : readChunk (.ok chunk) = pure (fromUtf8Lossy chunk) := rfl
    simp only [decoded, feed, pure_bind, bind_assoc]
    exact bind_congr_ok (fun next _ => ih next _)

/-- The responses reader, with the body that it may fall back to. -/
lemma streamResponsesCompletions_eq :
    streamResponsesCompletions env (chunks.map .ok) =
      readAll (responsesLine env) { live := { state := {}, sent := [] }, sawSseData := false }
        (chunks.map fromUtf8Lossy) >>= fun r =>
          if !r.sawSseData then
            parseNonSseResponsesStreamBody env (chunks.map fromUtf8Lossy).flatten
          else
            pure (r.live.state.content, r.live.state.intoToolCalls,
              if trim r.live.state.reasoning = [] then none
              else some r.live.state.reasoning) := by
  rw [streamResponsesCompletions, responses_fold, readAll, bind_assoc, bind_assoc]
  refine bind_congr_ok (fun r _ => ?_)
  rw [pure_bind, ← responsesTrailing_eq, nil_append]

end Readers

def CutsBetweenCharacters (chunks : List (List UInt8)) : Prop :=
  ∀ k < chunks.length, ¬ Utf8.Inside (chunks.take k).flatten (chunks.drop k).flatten

/-- Where a chunk comes after a complete `data: [DONE]` line, no line behind that
line has data, or only one of them is not blank. -/
def SettledAfterDone (texts : List (List Char)) : Prop :=
  ∀ k < texts.length, ∀ after ∈ afterStop doneLine (texts.take k).flatten,
    Settled IdleLine (after ++ (texts.drop k).flatten)

instance (chunks : List (List UInt8)) : Decidable (CutsBetweenCharacters chunks) :=
  inferInstanceAs (Decidable (∀ k < chunks.length, ¬ _))

instance (text : List Char) : Decidable (Settled IdleLine text) :=
  inferInstanceAs (Decidable (_ ∨ _))

instance (texts : List (List Char)) : Decidable (SettledAfterDone texts) :=
  inferInstanceAs (Decidable (∀ k < texts.length, ∀ after ∈ afterStop doneLine _, _))

def contentHead : List Char := "\x7b\"choices\":[\x7b\"delta\":\x7b\"content\":\"".toList

def contentTail : List Char := "\"\x7d\x7d]\x7d".toList

def plainChunk (data : List Char) : Except (List Char) ChatSseChunk :=
  let text := (data.drop contentHead.length).take
    (data.length - contentHead.length - contentTail.length)
  if data = contentHead ++ text ++ contentTail ∧
      text.all (fun c => c ≠ '"' && c ≠ '\\' && 32 ≤ c.toNat) then
    .ok { choices := [{ delta := { content := some text } }] }
  else .error "expected a chunk".toList

def plainEnv : Env where
  parseChunk := plainChunk
  parseValue _ := .error "expected value".toList
  send _ _ := .ok ()
  hash := { order := id, perm := fun _ => .refl _ }

/-- The octets of a line that adds the text of these octets. -/
def contentLine (text : List UInt8) : List UInt8 :=
  Utf8.asciiBytes ("data: ".toList ++ contentHead) ++ text ++ Utf8.asciiBytes (contentTail ++ ['\n'])

def doneBytes : List UInt8 := Utf8.asciiBytes "data: [DONE]\n".toList

def content (result : Except (List Char) (List Char × List OpenAiToolCall × Option (List Char))) :
    Option (List Char) :=
  result.toOption.map Prod.fst

end Ai
