import KKTerm.Ai.ResponsesStream

/-!
# What was streamed is what is stored

The deltas that the events of a response give add up to the content and the reasoning of its
state, and a completed text that is already there adds nothing.
-/

namespace Ai

open List Text

/-- The state and the deltas after some events. -/
def applyResponsesStreamEvents (state : ResponsesStreamState) :
    List Value → ResponsesStreamState × List ResponsesStreamDeltas
  | [] => (state, [])
  | event :: events =>
    let (state, deltas) := applyResponsesStreamEvent state event
    let (state, rest) := applyResponsesStreamEvents state events
    (state, deltas :: rest)

/-- The content of a state, empty when there is none. -/
def ResponsesStreamState.streamed (state : ResponsesStreamState) : List Char :=
  state.content.getD []

def messageText (item : Value) : Option (List Char) :=
  if item.hasType "message" then
    (item.getArray "content").map (fun content =>
      Text.trim (['\n'].intercalate (content.filterMap messagePartText)))
  else none

def eventType (event : Value) : Option ResponsesEventType :=
  responsesEventTypes.lookup ((event.getStr "type").getD [])

/-- The event repeats a text when it is complete. -/
inductive Completes (event : Value) : Prop where
  | outputTextDone (kind : eventType event = some .outputTextDone)
  | outputItemDone (kind : eventType event = some .outputItemDone)
  | completed (kind : eventType event = some .completed)

/-- The texts that an event completes, trimmed. -/
def completedTexts (event : Value) : List (List Char) :=
  let texts :=
    match eventType event with
    | some .outputTextDone => (event.getStr "text").toList
    | some .outputItemDone => ((event.get "item").bind messageText).toList
    | some .completed =>
      ((((event.get "response").bind (·.getArray "output"))).getD []).filterMap messageText
    | _ => []
  texts.filterMap nonemptyTrimmed

structure Grown (before after : ResponsesStreamState) (content reasoning : List Char) : Prop where
  streamed : after.streamed = before.streamed ++ content
  thought : after.reasoning = before.reasoning ++ reasoning

section Parts
variable {state : ResponsesStreamState} {text : List Char} {event : Value}

lemma Grown.refl (state : ResponsesStreamState) : Grown state state [] [] := by
  constructor <;> simp

lemma Grown.trans {s₁ s₂ s₃ : ResponsesStreamState} {c c' r r' : List Char}
    (first : Grown s₁ s₂ c r) (second : Grown s₂ s₃ c' r') :
    Grown s₁ s₃ (c ++ c') (r ++ r') := by
  constructor
  · rw [second.streamed, first.streamed, append_assoc]
  · rw [second.thought, first.thought, append_assoc]

lemma grown_appendContent (delta : List Char) :
    Grown state (state.appendContent delta) delta [] := by
  by_cases empty : delta = []
  · simp [ResponsesStreamState.appendContent, empty, Grown.refl]
  · constructor
    · simp [ResponsesStreamState.appendContent, ResponsesStreamState.streamed, empty]
    · simp [ResponsesStreamState.appendContent, empty]

lemma completedText_cases (state : ResponsesStreamState) (text : List Char) :
    appendCompletedResponsesText state text = (state, none) ∨
      state.streamed.length < (trim text).length ∧ ∃ delta ≠ [],
        appendCompletedResponsesText state text = (state.appendContent delta, some delta) := by
  simp only [appendCompletedResponsesText, ResponsesStreamState.streamed]
  by_cases empty : trim text = []
  · exact .inl (if_pos empty)
  · rw [if_neg empty]
    cases state.content with
    | none => exact .inr ⟨length_pos_iff.mpr empty, _, empty, rfl⟩
    | some current =>
      by_cases same : current = trim text
      · exact .inl (if_pos same)
      · by_cases extends_ : current <+: trim text
        · have longer : current.length < (trim text).length :=
            Nat.lt_of_not_le (fun short => same (extends_.eq_of_length_le short))
          have more : (trim text).drop current.length ≠ [] := by simpa using longer
          refine Or.inr ⟨longer, _, more, ?_⟩
          simp only [if_neg same, if_pos extends_, if_neg more]
        · left
          simp only [if_neg same, if_neg extends_]

lemma grown_completedText (text : List Char) :
    Grown state (appendCompletedResponsesText state text).1
      ((appendCompletedResponsesText state text).2.getD []) [] := by
  rcases completedText_cases state text with same | ⟨-, delta, -, same⟩
  · rw [same]
    exact .refl state
  · rw [same]
    exact grown_appendContent delta

lemma appendCompletedResponsesMessageText_eq (state : ResponsesStreamState) (item : Value) :
    appendCompletedResponsesMessageText state item =
      (messageText item).elim (state, none) (appendCompletedResponsesText state) := by
  unfold appendCompletedResponsesMessageText messageText
  split
  · cases item.getArray "content" <;> rfl
  · rfl

variable (item : Value) {texts : List (List Char)} {separator : List Char}

lemma grown_messageText :
    Grown state (appendCompletedResponsesMessageText state item).1
      ((appendCompletedResponsesMessageText state item).2.getD []) [] := by
  rw [appendCompletedResponsesMessageText_eq]
  cases messageText item with
  | none => exact .refl state
  | some text => exact grown_completedText text

lemma grown_completedItems (items : List Value) :
    Grown state (appendCompletedItems state items).1 (appendCompletedItems state items).2 [] := by
  induction items generalizing state with
  | nil => exact .refl state
  | cons item items ih => exact (grown_messageText item).trans ih

lemma grown_reasoningDone (text : Option (List Char)) :
    Grown state (appendReasoningDone state text).1 []
      ((appendReasoningDone state text).2.getD []) := by
  unfold appendReasoningDone
  split
  · exact .refl state
  · split
    · exact .refl state
    · constructor <;> simp [ResponsesStreamState.streamed]

lemma grown_itemAdded : Grown state (applyOutputItemAdded state item) [] [] := by
  have insert (itemId : List Char) (call : ResponsesStreamToolCall) :
      Grown state (state.insertItem itemId call) [] [] := by
    unfold ResponsesStreamState.insertItem
    constructor <;> split <;> simp [ResponsesStreamState.streamed]
  unfold applyOutputItemAdded
  split
  · by_cases unnamed : (item.getStr "id").getD [] = []
    · simp only [if_pos unnamed]
      exact .refl state
    · simp only [if_neg unnamed]
      exact insert _ _
  · exact .refl state

lemma grown_event (state : ResponsesStreamState) (event : Value) :
    let r := applyResponsesStreamEvent state event
    Grown state r.1 (r.2.contentDelta.getD []) (r.2.reasoningDelta.getD []) := by
  have delta : Grown state (applyDelta state event).1
      ((applyDelta state event).2.contentDelta.getD [])
      ((applyDelta state event).2.reasoningDelta.getD []) := by
    unfold applyDelta
    split
    · exact .refl state
    · split
      · exact .refl state
      · exact grown_appendContent _
  intro r
  change Grown state (applyResponsesStreamEvent state event).1 _ _
  simp only [r, applyResponsesStreamEvent]
  split
  · exact delta
  · exact delta
  · split
    · exact .refl state
    · exact grown_completedText _
  · split
    · exact .refl state
    · exact grown_completedText _
  · split
    · exact .refl state
    · split
      · exact .refl state
      · constructor <;> simp [ResponsesStreamState.streamed]
  · exact grown_reasoningDone _
  · split
    · exact .refl state
    · rename_i response _
      have content := @grown_completedItems state ((response.getArray "output").getD [])
      have both := content.trans (grown_reasoningDone (extractResponsesReasoningText response))
      rw [append_nil, nil_append] at both
      by_cases empty : (appendCompletedItems state ((response.getArray "output").getD [])).2 = []
      · simpa [empty] using both
      · simpa [empty] using both
  · split
    · exact .refl state
    · exact grown_itemAdded _
  · split
    · exact .refl state
    · exact grown_messageText _
  · split
    · exact .refl state
    · constructor <;> simp [ResponsesStreamState.modifyArguments, ResponsesStreamState.streamed]
  · split
    · exact .refl state
    · constructor <;> simp [ResponsesStreamState.modifyArguments, ResponsesStreamState.streamed]
  · exact .refl state

lemma grown_events (state : ResponsesStreamState) (events : List Value) :
    let r := applyResponsesStreamEvents state events
    Grown state r.1 (r.2.flatMap (·.contentDelta.getD [])) (r.2.flatMap (·.reasoningDelta.getD [])) := by
  induction events generalizing state with
  | nil => exact .refl state
  | cons event events ih => exact (grown_event state event).trans (ih _)

/-- A text that is no longer than the content changes nothing. -/
lemma content_completedText (short : (trim text).length ≤ state.streamed.length) :
    (appendCompletedResponsesText state text).1.content = state.content := by
  rcases completedText_cases state text with same | ⟨longer, -⟩
  · rw [same]
  · omega

lemma content_messageText {item : Value}
    (short : ∀ text ∈ messageText item, (trim text).length ≤ state.streamed.length) :
    (appendCompletedResponsesMessageText state item).1.content = state.content := by
  rw [appendCompletedResponsesMessageText_eq]
  cases given : messageText item with
  | none => rfl
  | some text => exact content_completedText (short text given)

lemma content_completedItems {items : List Value}
    (short : ∀ item ∈ items, ∀ text ∈ messageText item,
      (trim text).length ≤ state.streamed.length) :
    (appendCompletedItems state items).1.content = state.content := by
  induction items generalizing state with
  | nil => rfl
  | cons item items ih =>
    obtain ⟨here, later⟩ := forall_mem_cons.mp short
    have first := content_messageText here
    have kept : (appendCompletedResponsesMessageText state item).1.streamed = state.streamed :=
      congrArg (·.getD []) first
    exact (ih (kept.symm ▸ later)).trans first

lemma content_reasoningDone (text : Option (List Char)) :
    (appendReasoningDone state text).1.content = state.content := by
  unfold appendReasoningDone
  split
  · rfl
  · split <;> rfl

lemma length_le_intercalate (separator : List Char) (member : text ∈ texts) :
    text.length ≤ (separator.intercalate texts).length := by
  induction texts with
  | nil => cases member
  | cons first rest ih =>
    cases rest with
    | nil =>
      cases mem_singleton.mp member
      simp
    | cons second rest =>
      rw [intercalate_cons_cons, length_append, length_append]
      rcases mem_cons.mp member with rfl | later
      · omega
      · have := ih later
        omega

lemma length_le_of_completed
    (same : separator.intercalate (texts.filterMap nonemptyTrimmed) = state.streamed)
    (member : text ∈ texts) : (trim text).length ≤ state.streamed.length := by
  by_cases empty : trim text = []
  · simp [empty]
  · rw [← same]
    apply length_le_intercalate
    refine mem_filterMap.mpr ⟨text, member, ?_⟩
    rw [nonemptyTrimmed, if_neg empty]

lemma content_completes (completes : Completes event)
    (same : separator.intercalate (completedTexts event) = state.streamed) :
    (applyResponsesStreamEvent state event).1.content = state.content := by
  have short := fun texts text => @length_le_of_completed state text texts separator
  unfold completedTexts at same
  cases completes with
  | outputTextDone kind =>
    simp only [kind] at same
    simp only [applyResponsesStreamEvent, show responsesEventTypes.lookup _ = _ from kind]
    split
    · rfl
    · rename_i text given
      exact content_completedText (short _ text same (by simp [given]))
  | outputItemDone kind =>
    simp only [kind] at same
    simp only [applyResponsesStreamEvent, show responsesEventTypes.lookup _ = _ from kind]
    split
    · rfl
    · rename_i item given
      refine content_messageText (fun text found => short _ text same ?_)
      simpa [given] using found
  | completed kind =>
    simp only [kind] at same
    simp only [applyResponsesStreamEvent, show responsesEventTypes.lookup _ = _ from kind]
    split
    · rfl
    · rename_i response given
      refine (content_reasoningDone _).trans (content_completedItems ?_)
      intro item member text found
      refine short _ text same (mem_filterMap.mpr ⟨item, ?_, found⟩)
      simpa [given] using member

end Parts

/-- What the events of a response stream is what its state holds, and an event whose texts are
the content already changes nothing of it. -/
theorem streamed_is_stored :
    (∀ events, let r := applyResponsesStreamEvents {} events
      r.2.flatMap (·.contentDelta.getD []) = r.1.streamed ∧
        r.2.flatMap (·.reasoningDelta.getD []) = r.1.reasoning) ∧
    ∀ (state : ResponsesStreamState) (event : Value) (separator : List Char), Completes event →
      separator.intercalate (completedTexts event) = state.streamed →
      (applyResponsesStreamEvent state event).1.content = state.content := by
  constructor
  · intro events
    have grown := grown_events {} events
    exact ⟨grown.streamed.symm, grown.thought.symm⟩
  · intro state event separator completes same
    exact content_completes completes same

end Ai
