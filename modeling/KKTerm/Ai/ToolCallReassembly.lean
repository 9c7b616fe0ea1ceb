import KKTerm.Ai.ResponsesStream
import Mathlib.Data.Finset.Card
import Mathlib.Data.List.Dedup
import Mathlib.Data.List.Sort
import Mathlib.Order.Interval.Finset.Nat

/-!
# Tool calls put together from their fragments

A fragment goes to the slot of its index, or else of its id: a known one, or the next free one.
The fragments of a slot add up to its call, whose name and id are the last ones given.
-/

namespace Ai

open UInt32 ChatStreamState
open Prod hiding map_id map_map
open Option hiding map_id map_map mem_map mem_map_of_mem mem_toFinset
open List hiding modify

namespace ToolCallBuilders

variable {b : ToolCallBuilders} {i j : UInt32} {f : ToolCallAccumulator → ToolCallAccumulator}

lemma lookup_isSome_iff : (b.lookup i).isSome ↔ i ∈ b.keys := by
  rw [List.lookup_isSome_iff, keys, mem_map]
  constructor
  · rintro ⟨entry, member, same⟩
    exact ⟨entry, member, (eq_of_beq same).symm⟩
  · rintro ⟨entry, member, rfl⟩
    exact ⟨entry, member, beq_self_eq_true _⟩

lemma lookup_map_at :
    (b.map (fun entry => if entry.1 = i then (i, f entry.2) else entry)).lookup j =
      if j = i then (b.lookup i).map f else b.lookup j := by
  induction b with
  | nil => simp
  | cons entry rest ih =>
    obtain ⟨k, acc⟩ := entry
    have differ {x y : UInt32} (apart : ¬ x = y) : (x == y) = false := beq_eq_false_iff_ne.mpr apart
    rw [map_cons, lookup_cons, lookup_cons, lookup_cons, ih]
    by_cases here : k = i
    · subst here
      by_cases same : j = k
      · simp [same]
      · simp [same, differ same]
    · by_cases same : j = k
      · subst same
        simp [here]
      · simp [here, differ same, differ (Ne.symm here)]

lemma lookup_modify :
    (b.modify i f).lookup j = if j = i then some (f ((b.lookup i).getD {})) else b.lookup j := by
  unfold modify
  split
  · rename_i known
    obtain ⟨acc, found⟩ := isSome_iff_exists.mp (lookup_isSome_iff.mpr known)
    rw [lookup_map_at, found]
    rfl
  · rename_i new
    have none_ : b.lookup i = none := by
      rw [← not_isSome_iff_eq_none, lookup_isSome_iff]
      exact new
    rw [lookup_append, none_]
    by_cases same : j = i
    · simp [same, none_]
    · have apart : (j == i) = false := beq_eq_false_iff_ne.mpr same
      have alone : List.lookup j [(i, f {})] = none := by
        rw [lookup_cons, apart]
        rfl
      rw [alone, or_none, if_neg same]

lemma nodup_modify (nodup : b.keys.Nodup) : (b.modify i f).keys.Nodup := by
  unfold modify
  split
  · have kept :
        keys (b.map (fun entry => if entry.1 = i then (i, f entry.2) else entry)) = b.keys := by
      rw [keys, map_map, keys]
      refine map_congr_left fun entry _ => ?_
      simp only [Function.comp]
      split
      · exact Eq.symm ‹_›
      · rfl
    rw [kept]
    exact nodup
  · rename_i new
    rw [keys, map_append]
    refine nodup_append.mpr ⟨nodup, nodup_singleton _, fun k old k' added same => ?_⟩
    obtain rfl : k' = i := mem_singleton.mp added
    exact new (same ▸ old)

lemma nodup_foldl {hash : HashOrder} (placed : List (SseToolCallDelta × Nat))
    (nodup : b.keys.Nodup) :
    (placed.foldl (applyToolCall hash) b).keys.Nodup := by
  induction placed generalizing b with
  | nil => exact nodup
  | cons p rest ih => exact ih (nodup_modify nodup)

lemma length_keys_le (nodup : b.keys.Nodup) : b.keys.length ≤ 2 ^ 32 := by
  have apart : (b.keys.map UInt32.toNat).Nodup := nodup.map fun _ _ same => UInt32.toNat_inj.mp same
  have words : (b.keys.map UInt32.toNat).toFinset ⊆ Finset.range (2 ^ 32) := by
    intro n member
    obtain ⟨k, -, rfl⟩ := mem_map.mp (mem_toFinset.mp member)
    exact Finset.mem_range.mpr k.toNat_lt
  have fits := Finset.card_le_card words
  rwa [toFinset_card_of_nodup apart, length_map, Finset.card_range] at fits

end ToolCallBuilders

/-- The fragments of one slot together. -/
def gather (fragments : List SseToolCallDelta) : ToolCallAccumulator :=
  fragments.foldl ToolCallAccumulator.add {}

namespace SseToolCallDelta

def name (tc : SseToolCallDelta) : Option (List Char) :=
  tc.function.bind SseToolCallFunctionDelta.name

def arguments (tc : SseToolCallDelta) : List Char :=
  (tc.function.bind SseToolCallFunctionDelta.arguments).getD []

end SseToolCallDelta

def lastGiven (texts : List (List Char)) : List Char :=
  texts.getLast?.getD []

variable (fragments : List SseToolCallDelta)

lemma gather_concat (tc : SseToolCallDelta) :
    gather (fragments ++ [tc]) = (gather fragments).add tc := by
  rw [gather, foldl_append]
  rfl

lemma lastGiven_filterMap (given : SseToolCallDelta → Option (List Char))
    (fragments : List SseToolCallDelta) (tc : SseToolCallDelta) :
    lastGiven ((fragments ++ [tc]).filterMap given) =
      (given tc).getD (lastGiven (fragments.filterMap given)) := by
  rw [filterMap_append]
  cases here : given tc with
  | none => simp [here]
  | some text => simp [here, lastGiven]

lemma gather_fields :
    (gather fragments).id = lastGiven (fragments.filterMap SseToolCallDelta.id) ∧
      (gather fragments).name = lastGiven (fragments.filterMap SseToolCallDelta.name) ∧
      (gather fragments).arguments = fragments.flatMap SseToolCallDelta.arguments := by
  induction fragments using reverseRecOn with
  | nil => exact ⟨rfl, rfl, rfl⟩
  | append_singleton fragments tc ih =>
    obtain ⟨id, name, arguments⟩ := ih
    rw [gather_concat, lastGiven_filterMap, lastGiven_filterMap, flatMap_append, ← id, ← name,
      ← arguments, flatMap_singleton]
    exact ⟨rfl, rfl, rfl⟩

section Assembly
variable {hash : HashOrder} {slotOf : SseToolCallDelta → UInt32} {b : ToolCallBuilders}
  {fragments : List SseToolCallDelta}

/-- Every slot holds its fragments together. -/
structure Assembled (slotOf : SseToolCallDelta → UInt32) (fragments : List SseToolCallDelta)
    (b : ToolCallBuilders) : Prop where
  nodup : b.keys.Nodup
  lookup : ∀ i, b.lookup i =
    if i ∈ fragments.map slotOf then some (gather (fragments.filter (slotOf · = i))) else none

lemma Assembled.add (assembled : Assembled slotOf fragments b) (tc : SseToolCallDelta) :
    Assembled slotOf (fragments ++ [tc]) (b.modify (slotOf tc) (·.add tc)) where
  nodup := ToolCallBuilders.nodup_modify assembled.nodup
  lookup i := by
    rw [ToolCallBuilders.lookup_modify, assembled.lookup, assembled.lookup, filter_append]
    by_cases here : i = slotOf tc
    · subst here
      have inside : slotOf tc ∈ (fragments ++ [tc]).map slotOf := by simp
      rw [if_pos rfl, if_pos inside, filter_cons_of_pos (by simp), filter_nil, gather_concat]
      congr 2
      split
      · rfl
      · rename_i new
        have none_ : fragments.filter (slotOf · = slotOf tc) = [] := by
          rw [filter_eq_nil_iff]
          intro other member same
          exact new (mem_map.mpr ⟨other, member, by simpa using same⟩)
        rw [none_]
        rfl
    · have other : ¬ slotOf tc = i := Ne.symm here
      simp [here, other]

lemma Assembled.mem_keys (assembled : Assembled slotOf fragments b) {i : UInt32} :
    i ∈ b.keys ↔ i ∈ fragments.map slotOf := by
  rw [← ToolCallBuilders.lookup_isSome_iff, assembled.lookup]
  split
  · simp [*]
  · simp [*]

/-- If every fragment finds its slot among those before it, the fragments are assembled. -/
lemma assembled_foldl {placed : List (SseToolCallDelta × Nat)}
    (finds : ∀ front p b, front ++ [p] <+: placed → Assembled slotOf (front.map fst) b →
      b.slot hash p.2 p.1 = slotOf p.1) :
    Assembled slotOf (placed.map fst)
      (placed.foldl (applyToolCall hash) []) := by
  induction placed using reverseRecOn with
  | nil => exact ⟨nodup_nil, fun i => rfl⟩
  | append_singleton front p ih =>
    have before := ih fun front' q b begins => finds front' q b (begins.trans (prefix_append _ _))
    have slot := finds front p _ prefix_rfl before
    rw [foldl_append, map_append]
    simp only [foldl_cons, foldl_nil, applyToolCall, slot]
    exact before.add p.1

structure StreamedCall where
  id : List Char
  name : List Char
  arguments : List Char
  identified : id ≠ []
  named : name ≠ []

/-- A later fragment gives a field again, or nothing or an empty text for it. -/
def Repeats (field : List Char) (given : Option (List Char)) : Prop :=
  given = none ∨ given = some [] ∨ given = some field

/-- The fragments cut the arguments of the call; the first carries its id and name. -/
def StreamedCall.CutInto (call : StreamedCall) (mine : List SseToolCallDelta) : Prop :=
  ∃ first later, mine = first :: later ∧ first.id = some call.id ∧ first.name = some call.name ∧
    mine.flatMap SseToolCallDelta.arguments = call.arguments ∧
    ∀ tc ∈ later, Repeats call.id tc.id ∧ Repeats call.name tc.name

/-- The last name given is not empty. -/
def KeepsName (mine : List SseToolCallDelta) : Prop :=
  lastGiven (mine.filterMap SseToolCallDelta.name) ≠ []

/-- The last id given is not empty, or the call gets its own id anyway. -/
def KeepsId (slot : UInt32) (call : StreamedCall) (mine : List SseToolCallDelta) : Prop :=
  lastGiven (mine.filterMap SseToolCallDelta.id) ≠ [] ∨
    call.id = "call_".toList ++ (toString slot).toList

def StreamedCall.answer (call : StreamedCall) : List Char × List Char × List Char :=
  (call.id, call.name, call.arguments)

def OpenAiToolCall.answer (call : OpenAiToolCall) : List Char × List Char × List Char :=
  (call.id, call.function.name, call.function.arguments)

/-- The last text of a field is the field, or empty. -/
lemma lastGiven_repeats {given : SseToolCallDelta → Option (List Char)} {field : List Char}
    {first : SseToolCallDelta} {later : List SseToolCallDelta} (start : given first = some field)
    (repeats : ∀ tc ∈ later, Repeats field (given tc)) :
    lastGiven ((first :: later).filterMap given) = field ∨
      lastGiven ((first :: later).filterMap given) = [] := by
  induction later using reverseRecOn with
  | nil => simp [start, lastGiven]
  | append_singleton later tc ih =>
    have before := ih fun other member => repeats other (mem_append_left _ member)
    rw [← cons_append, lastGiven_filterMap]
    rcases repeats tc (by simp) with here | here | here
    · rw [here]
      exact before
    · rw [here]
      exact .inr rfl
    · rw [here]
      exact .inl rfl

/-- A call comes out of its fragments when its name and its id are kept. -/
lemma toToolCall_answer {slot : UInt32} {call : StreamedCall} {mine : List SseToolCallDelta}
    (cut : call.CutInto mine) :
    (toToolCall slot (gather mine)).map OpenAiToolCall.answer = some call.answer ↔
      KeepsName mine ∧ KeepsId slot call mine := by
  obtain ⟨first, later, rfl, id, name, arguments, repeats⟩ := cut
  obtain ⟨id', name', arguments'⟩ := gather_fields (first :: later)
  have lastName := lastGiven_repeats name fun tc member => (repeats tc member).2
  have lastId := lastGiven_repeats id fun tc member => (repeats tc member).1
  simp only [toToolCall, KeepsName, KeepsId, id', name', arguments', arguments]
  by_cases unnamed : lastGiven ((first :: later).filterMap SseToolCallDelta.name) = []
  · simp [unnamed]
  · rw [if_neg unnamed, lastName.resolve_right unnamed]
    by_cases lost : lastGiven ((first :: later).filterMap SseToolCallDelta.id) = []
    · simp [OpenAiToolCall.answer, StreamedCall.answer, lost, call.named, eq_comm]
    · simp [OpenAiToolCall.answer, StreamedCall.answer, lastId.resolve_right lost, call.named,
        call.identified]

variable {calls : List (UInt32 × StreamedCall)}

/-- What comes out of slots that are assembled is what was streamed, exactly when each call keeps
its name and its id. -/
lemma intoToolCalls_iff {state : ChatStreamState}
    (assembled : Assembled slotOf fragments state.toolCallBuilders)
    (ordered : (calls.map fst).Pairwise (· < ·))
    (slots : ∀ i, i ∈ calls.map fst ↔ i ∈ fragments.map slotOf)
    (cut : ∀ call ∈ calls, call.2.CutInto (fragments.filter (slotOf · = call.1))) :
    state.intoToolCalls.map OpenAiToolCall.answer = calls.map (·.2.answer) ↔
      ∀ call ∈ calls, KeepsName (fragments.filter (slotOf · = call.1)) ∧
        KeepsId call.1 call.2 (fragments.filter (slotOf · = call.1)) := by
  have sorted : state.toolCallBuilders.keys.mergeSort (fun a b => a ≤ b) = calls.map fst := by
    have distinct : (calls.map fst).Nodup := ordered.imp fun below => UInt32.ne_of_lt below
    have perm : (state.toolCallBuilders.keys.mergeSort (fun a b => a ≤ b)).Perm
        (calls.map fst) := by
      refine (mergeSort_perm _ _).trans ?_
      rw [perm_ext_iff_of_nodup assembled.nodup distinct]
      exact fun i => assembled.mem_keys.trans (slots i).symm
    refine @Perm.eq_of_pairwise _ (· ≤ ·) _ _ ?_ ?_ ?_ perm
    · exact fun a b _ _ below above => UInt32.le_antisymm below above
    · have := @pairwise_mergeSort _ (fun a b : UInt32 => decide (a ≤ b)) ?_ ?_
        state.toolCallBuilders.keys
      · simpa using this
      · intro a b c
        simpa using UInt32.le_trans
      · intro a b
        simpa using UInt32.le_total a b
    · exact ordered.imp UInt32.le_of_lt
  have each : ∀ call ∈ calls, ((state.toolCallBuilders.lookup call.1).bind
      (toToolCall call.1)).map OpenAiToolCall.answer =
        (toToolCall call.1
          (gather (fragments.filter (slotOf · = call.1)))).map OpenAiToolCall.answer := by
    intro call member
    rw [assembled.lookup, if_pos ((slots _).mp (mem_map_of_mem member))]
    rfl
  rw [intoToolCalls]
  simp only [sorted, filterMap_map, map_filterMap]
  rw [filterMap_eq_map_iff_forall_eq_some]
  refine forall₂_congr fun call member => ?_
  rw [← toToolCall_answer (cut call member), ← each call member]
  rfl

/-- The fragments of some chunks in order, each with its position in its delta. -/
def placedFragments (chunks : List ChatSseChunk) : List (SseToolCallDelta × Nat) :=
  chunks.flatMap fun chunk => chunk.choices.flatMap fun choice => choice.delta.toolCalls.zipIdx

def streamedFragments (chunks : List ChatSseChunk) : List SseToolCallDelta :=
  (placedFragments chunks).map Prod.fst

def applyChunks (hash : HashOrder) (state : ChatStreamState) (chunks : List ChatSseChunk) :
    ChatStreamState :=
  chunks.foldl (fun state chunk => (state.applyChunk hash chunk).1) state

lemma toolCallBuilders_applyChunks (state : ChatStreamState) (chunks : List ChatSseChunk) :
    (applyChunks hash state chunks).toolCallBuilders =
      (placedFragments chunks).foldl (applyToolCall hash)
        state.toolCallBuilders := by
  have choices (choices : List ChatSseChoice) (state : ChatStreamState) :
      (choices.foldl (applyChoice hash) state).toolCallBuilders =
        (choices.flatMap fun choice => choice.delta.toolCalls.zipIdx).foldl
          (applyToolCall hash) state.toolCallBuilders := by
    induction choices generalizing state with
    | nil => rfl
    | cons choice choices ih =>
      rw [foldl_cons, ih, flatMap_cons, foldl_append]
      rfl
  induction chunks generalizing state with
  | nil => rfl
  | cons chunk chunks ih =>
    have split : placedFragments (chunk :: chunks) =
        (chunk.choices.flatMap fun choice => choice.delta.toolCalls.zipIdx) ++
          placedFragments chunks := flatMap_cons
    rw [split, foldl_append, ← choices]
    exact ih _

/-- The calls by increasing index, whose fragments all carry the index of their call. -/
structure Indexed (calls : List (UInt32 × StreamedCall)) (fragments : List SseToolCallDelta) :
    Prop where
  ordered : (calls.map Prod.fst).Pairwise (· < ·)
  known : ∀ tc ∈ fragments, ∃ call ∈ calls, tc.index = some call.1
  cut : ∀ call ∈ calls, call.2.CutInto (fragments.filter (·.index = some call.1))

lemma indexed_iff {chunks : List ChatSseChunk}
    (indexed : Indexed calls (streamedFragments chunks)) :
    (applyChunks hash {} chunks).intoToolCalls.map OpenAiToolCall.answer = calls.map (·.2.answer) ↔
      ∀ call ∈ calls, KeepsName ((streamedFragments chunks).filter (·.index = some call.1)) ∧
        KeepsId call.1 call.2 ((streamedFragments chunks).filter (·.index = some call.1)) := by
  let slotOf : SseToolCallDelta → UInt32 := fun tc => tc.index.getD 0
  have given : ∀ tc ∈ streamedFragments chunks, tc.index = some (slotOf tc) := by
    intro tc member
    obtain ⟨call, -, same⟩ := indexed.known tc member
    simp only [slotOf, same, getD_some]
  have parts (i : UInt32) : (streamedFragments chunks).filter (slotOf · = i) =
      (streamedFragments chunks).filter (·.index = some i) := by
    refine filter_congr fun tc member => ?_
    simp [given tc member]
  have assembled : Assembled slotOf (streamedFragments chunks)
      (applyChunks hash {} chunks).toolCallBuilders := by
    rw [toolCallBuilders_applyChunks]
    refine assembled_foldl fun front p b begins _ => ?_
    have member : p.1 ∈ streamedFragments chunks := mem_map_of_mem (begins.subset (by simp))
    rw [ToolCallBuilders.slot, given p.1 member]
    rfl
  have slots : ∀ i, i ∈ calls.map fst ↔ i ∈ (streamedFragments chunks).map slotOf := by
    intro i
    constructor
    · intro listed
      obtain ⟨call, member, rfl⟩ := mem_map.mp listed
      obtain ⟨first, later, mine, -⟩ := indexed.cut call member
      have inside : first ∈ (streamedFragments chunks).filter (·.index = some call.1) := by
        rw [mine]
        exact mem_cons_self
      obtain ⟨inside, same⟩ := mem_filter.mp inside
      refine mem_map.mpr ⟨first, inside, ?_⟩
      simp only [slotOf, of_decide_eq_true same, getD_some]
    · intro member
      obtain ⟨tc, inside, rfl⟩ := mem_map.mp member
      obtain ⟨call, member, same⟩ := indexed.known tc inside
      refine mem_map.mpr ⟨call, member, ?_⟩
      simp only [slotOf, same, getD_some]
  have whole := intoToolCalls_iff assembled indexed.ordered slots fun call member => by
    rw [parts]
    exact indexed.cut call member
  simpa only [parts] using whole

end Assembly

instance lawfulOrderMaxUInt32 : Std.LawfulOrderMax UInt32 where
  max_le_iff a b c := by
    simp only [Max.max, UInt32.le_iff_toNat_le]
    split <;> omega
  max_eq_or a b := by
    simp only [Max.max]
    split <;> simp

/-- The smallest indexes are taken: the next one is free. -/
lemma ToolCallBuilders.freeIndex_eq {b : ToolCallBuilders} {n : Nat} (few : n < 2 ^ 32)
    (taken : ∀ i, i ∈ b.keys ↔ i.toNat < n) : b.freeIndex = ofNat n := by
  have toNat_ofNat {k : Nat} (small : k < 2 ^ 32) : (ofNat k).toNat = k := by
    rw [toNat_ofNat']
    exact Nat.mod_eq_of_lt small
  rw [freeIndex]
  cases n with
  | zero =>
    have none_ : b.keys = [] := eq_nil_iff_forall_not_mem.mpr fun i => by simp [taken]
    rw [none_]
    rfl
  | succ k =>
    have largest : b.keys.max? = some (ofNat k) := by
      refine max?_eq_some_iff.mpr ⟨(taken _).mpr ?_, fun i member => ?_⟩
      · rw [toNat_ofNat (by omega)]
        omega
      · have small := (taken i).mp member
        rw [le_iff_toNat_le, toNat_ofNat (by omega)]
        omega
    rw [largest, ofNat_add]
    rfl

lemma lastGiven_mem {texts : List (List Char)} (some_ : texts ≠ []) :
    lastGiven texts ∈ texts := by
  rw [lastGiven, getLast?_eq_some_getLast some_]
  exact getLast_mem some_

/-- The calls in order of their first appearance, whose fragments all carry the id of their call
and none carries an index. -/
structure Identified (calls : List StreamedCall) (fragments : List SseToolCallDelta) : Prop where
  distinct : (calls.map StreamedCall.id).Nodup
  appear : calls.map StreamedCall.id = (fragments.filterMap SseToolCallDelta.id).eraseDups
  unindexed : ∀ tc ∈ fragments, tc.index = none
  known : ∀ tc ∈ fragments, ∃ call ∈ calls, tc.id = some call.id
  cut : ∀ call ∈ calls, call.CutInto (fragments.filter (·.id = some call.id))

namespace Identified
variable {calls : List StreamedCall}

/-- A call has the slot of its place among the calls. -/
def slotOf (calls : List StreamedCall) (tc : SseToolCallDelta) : UInt32 :=
  UInt32.ofNat ((calls.map StreamedCall.id).idxOf (tc.id.getD []))

lemma toNat_slotOf (few : calls.length ≤ 2 ^ 32) {tc : SseToolCallDelta} {call : StreamedCall}
    (member : call ∈ calls) (same : tc.id = some call.id) :
    (slotOf calls tc).toNat = (calls.map StreamedCall.id).idxOf call.id := by
  have place := idxOf_lt_length_of_mem (mem_map_of_mem (f := StreamedCall.id) member)
  rw [length_map] at place
  rw [slotOf, same, getD_some, toNat_ofNat']
  exact Nat.mod_eq_of_lt (by omega)

/-- Fragments have one slot exactly when they have one id. -/
lemma slotOf_inj (few : calls.length ≤ 2 ^ 32) {tc tc' : SseToolCallDelta}
    (known : ∃ call ∈ calls, tc.id = some call.id)
    (known' : ∃ call ∈ calls, tc'.id = some call.id) :
    slotOf calls tc = slotOf calls tc' ↔ tc.id = tc'.id := by
  obtain ⟨call, member, same⟩ := known
  obtain ⟨call', member', same'⟩ := known'
  rw [← UInt32.toNat_inj, toNat_slotOf few member same, toNat_slotOf few member' same', same, same',
    Option.some.injEq]
  exact idxOf_inj (mem_map_of_mem member)

/-- The gathered fragments of a slot have the id of every one of them. -/
lemma gather_id {fragments : List SseToolCallDelta} {id : List Char}
    (some_ : fragments ≠ []) (ids : ∀ tc ∈ fragments, tc.id = some id) :
    (gather fragments).id = id := by
  obtain ⟨first, later, rfl⟩ := exists_cons_of_ne_nil some_
  have given : (first :: later).filterMap SseToolCallDelta.id ≠ [] := by
    rw [filterMap_cons_some (ids first mem_cons_self)]
    exact cons_ne_nil _ _
  have last := lastGiven_mem given
  obtain ⟨tc, member, same⟩ := mem_filterMap.mp last
  rw [(gather_fields _).1]
  exact Option.some.inj (same.symm.trans (ids tc member))

section Slots
variable {hash : HashOrder} {front rest : List SseToolCallDelta} {tc : SseToolCallDelta}
  {b : ToolCallBuilders} {position : Nat}

lemma seen_prefix (identified : Identified calls (front ++ rest)) :
    (front.filterMap SseToolCallDelta.id).eraseDups <+: calls.map StreamedCall.id := by
  rw [identified.appear, filterMap_append, eraseDups_append]
  exact prefix_append _ _

lemma mem_keys_iff (few : calls.length ≤ 2 ^ 32) (identified : Identified calls (front ++ rest))
    (assembled : Assembled (slotOf calls) front b) (i : UInt32) :
    i ∈ b.keys ↔ i.toNat < (front.filterMap SseToolCallDelta.id).eraseDups.length := by
  obtain ⟨more, ids⟩ := seen_prefix identified
  have distinct := identified.distinct
  rw [← ids] at distinct
  have place {id : List Char} (seen : id ∈ (front.filterMap SseToolCallDelta.id).eraseDups) :
      (calls.map StreamedCall.id).idxOf id =
        (front.filterMap SseToolCallDelta.id).eraseDups.idxOf id := by
    rw [← ids, idxOf_append_of_mem seen]
  rw [assembled.mem_keys, mem_map]
  constructor
  · rintro ⟨tc, member, rfl⟩
    obtain ⟨call, called, same⟩ := identified.known tc (mem_append_left _ member)
    have seen : call.id ∈ (front.filterMap SseToolCallDelta.id).eraseDups :=
      mem_eraseDups.mpr (mem_filterMap.mpr ⟨tc, member, same⟩)
    rw [toNat_slotOf few called same, place seen]
    exact idxOf_lt_length_of_mem seen
  · intro small
    have seen := getElem_mem small
    obtain ⟨tc, member, same⟩ := mem_filterMap.mp (mem_eraseDups.mp seen)
    obtain ⟨call, called, same'⟩ := identified.known tc (mem_append_left _ member)
    refine ⟨tc, member, UInt32.toNat_inj.mp ?_⟩
    rw [toNat_slotOf few called same', ← Option.some.inj (same.symm.trans same'), place seen]
    exact (nodup_append.mp distinct).1.idxOf_getElem _ small

/-- A slot is found by the id exactly when a fragment before has the id. -/
lemma indexOf_eq (few : calls.length ≤ 2 ^ 32) (identified : Identified calls (front ++ tc :: rest))
    (assembled : Assembled (slotOf calls) front b) {id : List Char} (same : tc.id = some id) :
    b.indexOf hash id =
      if id ∈ front.filterMap SseToolCallDelta.id then some (slotOf calls tc) else none := by
  have known := identified.known
  -- the id of a slot is the id of its fragments
  have held (i : UInt32) (taken : i ∈ b.keys) :
      (b.lookup i).any (fun acc => acc.id = id) ↔ i = slotOf calls tc := by
    obtain ⟨other, member, rfl⟩ := mem_map.mp (assembled.mem_keys.mp taken)
    have knownOther := known other (mem_append_left _ member)
    obtain ⟨call, called, otherId⟩ := knownOther
    have gathered : (gather (front.filter (slotOf calls · = slotOf calls other))).id = call.id := by
      refine gather_id ?_ fun third inside => ?_
      · exact ne_nil_of_mem (mem_filter.mpr ⟨member, by simp⟩)
      · obtain ⟨inside, equal⟩ := mem_filter.mp inside
        rw [← otherId]
        exact (slotOf_inj few (known third (mem_append_left _ inside))
          (known other (mem_append_left _ member))).mp (of_decide_eq_true equal)
    rw [assembled.lookup, if_pos (mem_map_of_mem member), any_some, decide_eq_true_iff,
      gathered, slotOf_inj few (known other (mem_append_left _ member)) (known tc (by simp)),
      otherId, same, Option.some.injEq]
  rw [ToolCallBuilders.indexOf]
  split
  · rename_i seen
    obtain ⟨other, member, otherId⟩ := mem_filterMap.mp seen
    have slot : slotOf calls other = slotOf calls tc :=
      (slotOf_inj few (known other (mem_append_left _ member)) (known tc (by simp))).mpr
        (otherId.trans same.symm)
    have taken : slotOf calls tc ∈ b.keys := assembled.mem_keys.mpr (slot ▸ mem_map_of_mem member)
    cases found : (hash.order b.keys).find? fun index =>
        (b.lookup index).any fun acc => acc.id = id with
    | none =>
      have passed := find?_eq_none.mp found _ ((hash.perm _).mem_iff.mpr taken)
      exact absurd ((held _ taken).mpr rfl) passed
    | some i =>
      have inside := (hash.perm _).mem_iff.mp (mem_of_find?_eq_some found)
      obtain ⟨holds, -⟩ := find?_eq_some_iff_append.mp found
      rw [(held i inside).mp holds]
  · rename_i new
    refine find?_eq_none.mpr fun i member holds => new ?_
    have taken := (hash.perm _).mem_iff.mp member
    obtain rfl := (held i taken).mp holds
    obtain ⟨other, member, equal⟩ := mem_map.mp (assembled.mem_keys.mp taken)
    have otherId := (slotOf_inj few (known other (mem_append_left _ member))
      (known tc (by simp))).mp equal
    exact mem_filterMap.mpr ⟨other, member, otherId.trans same⟩

lemma slot_eq (few : calls.length ≤ 2 ^ 32) (identified : Identified calls (front ++ tc :: rest))
    (assembled : Assembled (slotOf calls) front b) : b.slot hash position tc = slotOf calls tc := by
  obtain ⟨call, called, same⟩ := identified.known tc (by simp)
  rw [ToolCallBuilders.slot, identified.unindexed tc (by simp), same, bind_some,
    indexOf_eq few identified assembled same]
  by_cases seen : call.id ∈ front.filterMap SseToolCallDelta.id
  · simp [seen]
  · -- a new id is the next of the ids
    have fresh : call.id ∉ (front.filterMap SseToolCallDelta.id).eraseDups := by rwa [mem_eraseDups]
    have next : (calls.map StreamedCall.id).idxOf call.id =
        (front.filterMap SseToolCallDelta.id).eraseDups.length := by
      have split := identified.appear
      rw [filterMap_append, filterMap_cons_some same, eraseDups_append,
        cons_removeAll, if_pos (by simpa using seen), eraseDups_cons] at split
      rw [split, idxOf_append_of_notMem fresh, idxOf_cons_self, Nat.add_zero]
    have place := toNat_slotOf few called same
    have small := (slotOf calls tc).toNat_lt
    have free := ToolCallBuilders.freeIndex_eq (by omega) (mem_keys_iff few identified assembled)
    simp only [seen, if_false, or_none, none_or, filter_some, call.identified,
      ne_eq, not_false_eq_true, decide_true, if_true, map_some, getD_some, free]
    rw [← UInt32.toNat_inj, place, next, toNat_ofNat']
    exact Nat.mod_eq_of_lt (by omega)

end Slots

def placed (calls : List StreamedCall) : List (UInt32 × StreamedCall) :=
  ((List.range calls.length).map UInt32.ofNat).zip calls

lemma fst_placed : (placed calls).map fst = (range calls.length).map ofNat :=
  map_fst_zip (by simp)

lemma map_placed {α : Type} (f : StreamedCall → α) :
    (placed calls).map (fun call => f call.2) = calls.map f := by
  have seconds : (placed calls).map snd = calls := map_snd_zip (by simp)
  conv_rhs => rw [← seconds, map_map]
  rfl

variable {call : StreamedCall}

lemma mem_placed : call ∈ calls ↔ ∃ slot, (slot, call) ∈ placed calls := by
  have seconds := @map_placed calls _ id
  rw [map_id] at seconds
  constructor
  · intro member
    rw [← seconds] at member
    obtain ⟨⟨slot, called⟩, placed, rfl⟩ := mem_map.mp member
    exact ⟨slot, placed⟩
  · rintro ⟨slot, placed⟩
    exact seconds ▸ mem_map_of_mem (f := fun call : UInt32 × StreamedCall => id call.2) placed

/-- A fragment has the slot of a call exactly when it has its id. -/
lemma slotOf_eq_iff (few : calls.length ≤ 2 ^ 32) (distinct : (calls.map StreamedCall.id).Nodup)
    {call : UInt32 × StreamedCall} (member : call ∈ placed calls) {tc : SseToolCallDelta}
    (known : ∃ call ∈ calls, tc.id = some call.id) :
    slotOf calls tc = call.1 ↔ tc.id = some call.2.id := by
  obtain ⟨k, small, rfl⟩ := mem_iff_getElem.mp member
  have small' : k < calls.length := by simpa [placed] using small
  obtain ⟨other, called, same⟩ := known
  have place : (calls.map StreamedCall.id).idxOf calls[k].id = k := by
    have := distinct.idxOf_getElem k (by simpa using small')
    rwa [getElem_map] at this
  simp only [placed, getElem_zip, getElem_map, getElem_range]
  rw [← UInt32.toNat_inj, toNat_slotOf few called same, toNat_ofNat',
    Nat.mod_eq_of_lt (by omega), same, Option.some.injEq]
  constructor
  · intro there
    exact (idxOf_inj (mem_map_of_mem called)).mp (there.trans place.symm)
  · intro equal
    rw [equal, place]

lemma ordered_placed (few : calls.length ≤ 2 ^ 32) :
    ((placed calls).map fst).Pairwise (· < ·) := by
  rw [fst_placed, pairwise_map]
  refine pairwise_lt_range.imp_of_mem fun {i j} hi hj below => ?_
  rw [mem_range] at hi hj
  rw [lt_iff_toNat_lt, toNat_ofNat', toNat_ofNat', Nat.mod_eq_of_lt (by omega),
    Nat.mod_eq_of_lt (by omega)]
  exact below

/-- The id of a call is kept when all its fragments have it. -/
lemma keepsId {slot : UInt32} {fragments : List SseToolCallDelta} (some_ : fragments ≠ [])
    (ids : ∀ tc ∈ fragments, tc.id = some call.id) : KeepsId slot call fragments := by
  refine Or.inl ?_
  rw [← (gather_fields _).1, gather_id some_ ids]
  exact call.identified

end Identified

lemma identified_iff {hash : HashOrder} {calls : List StreamedCall} {chunks : List ChatSseChunk}
    (identified : Identified calls (streamedFragments chunks)) :
    (applyChunks hash {} chunks).intoToolCalls.map OpenAiToolCall.answer =
        calls.map StreamedCall.answer ↔
      calls.length ≤ 2 ^ 32 ∧
        ∀ call ∈ calls, KeepsName ((streamedFragments chunks).filter (·.id = some call.id)) := by
  by_cases few : calls.length ≤ 2 ^ 32
  · have assembled : Assembled (Identified.slotOf calls) (streamedFragments chunks)
        (applyChunks hash {} chunks).toolCallBuilders := by
      rw [toolCallBuilders_applyChunks]
      refine assembled_foldl fun front p b begins before => ?_
      obtain ⟨rest, whole⟩ := begins
      have split : streamedFragments chunks = front.map fst ++ p.1 :: rest.map fst := by
        rw [streamedFragments, ← whole]
        simp
      exact Identified.slot_eq few (split ▸ identified) before
    have parts (call : UInt32 × StreamedCall) (member : call ∈ Identified.placed calls) :
        (streamedFragments chunks).filter (Identified.slotOf calls · = call.1) =
          (streamedFragments chunks).filter (·.id = some call.2.id) := by
      refine filter_congr fun tc inside => ?_
      simp [Identified.slotOf_eq_iff few identified.distinct member (identified.known tc inside)]
    have cut (call : UInt32 × StreamedCall) (member : call ∈ Identified.placed calls) :
        call.2.CutInto
          ((streamedFragments chunks).filter (Identified.slotOf calls · = call.1)) := by
      rw [parts call member]
      exact identified.cut call.2 (Identified.mem_placed.mpr ⟨call.1, member⟩)
    have slots (i : UInt32) : i ∈ (Identified.placed calls).map fst ↔
        i ∈ (streamedFragments chunks).map (Identified.slotOf calls) := by
      constructor
      · intro listed
        obtain ⟨call, member, rfl⟩ := mem_map.mp listed
        obtain ⟨first, later, mine, -⟩ := cut call member
        have inside := mine ▸ mem_cons_self (a := first) (l := later)
        obtain ⟨inside, same⟩ := mem_filter.mp inside
        exact mem_map.mpr ⟨first, inside, of_decide_eq_true same⟩
      · intro listed
        obtain ⟨tc, inside, rfl⟩ := mem_map.mp listed
        obtain ⟨call, member, same⟩ := identified.known tc inside
        obtain ⟨slot, placed⟩ := Identified.mem_placed.mp member
        rw [(Identified.slotOf_eq_iff few identified.distinct placed
          (identified.known tc inside)).mpr same]
        exact mem_map_of_mem placed
    have whole := intoToolCalls_iff assembled (Identified.ordered_placed few) slots cut
    rw [Identified.map_placed] at whole
    rw [whole, and_iff_right few]
    constructor
    · intro kept call member
      obtain ⟨slot, placed⟩ := Identified.mem_placed.mp member
      have name := (kept _ placed).1
      rwa [parts _ placed] at name
    · intro names call member
      rw [parts call member]
      have called := Identified.mem_placed.mpr ⟨call.1, member⟩
      refine ⟨names call.2 called, Identified.keepsId ?_ fun tc inside => ?_⟩
      · obtain ⟨first, later, mine, -⟩ := identified.cut call.2 called
        rw [mine]
        exact cons_ne_nil _ _
      · exact of_decide_eq_true (mem_filter.mp inside).2
  · -- there are fewer slots than calls
    refine iff_of_false (fun same => few ?_) (fun holds => few holds.1)
    have slots : (applyChunks hash {} chunks).toolCallBuilders.keys.length ≤ 2 ^ 32 := by
      rw [toolCallBuilders_applyChunks]
      exact ToolCallBuilders.length_keys_le (ToolCallBuilders.nodup_foldl _ nodup_nil)
    have out : (applyChunks hash {} chunks).intoToolCalls.length ≤ _ := length_filterMap_le _ _
    have lengths := congrArg length same
    rw [length_mergeSort] at out
    rw [length_map, length_map] at lengths
    omega

/-- With indexes a call comes out when the last name and the last id given for it are not empty (or
its id is made from the index); without, when the last name is not empty. -/
theorem reassembled (hash : HashOrder) (chunks : List ChatSseChunk) :
    (∀ calls : List (UInt32 × StreamedCall), Indexed calls (streamedFragments chunks) →
      ((applyChunks hash {} chunks).intoToolCalls.map OpenAiToolCall.answer =
          calls.map (·.2.answer) ↔
        ∀ call ∈ calls, KeepsName ((streamedFragments chunks).filter (·.index = some call.1)) ∧
          KeepsId call.1 call.2 ((streamedFragments chunks).filter (·.index = some call.1)))) ∧
    ∀ calls : List StreamedCall, Identified calls (streamedFragments chunks) →
      ((applyChunks hash {} chunks).intoToolCalls.map OpenAiToolCall.answer =
          calls.map StreamedCall.answer ↔
        calls.length ≤ 2 ^ 32 ∧
          ∀ call ∈ calls, KeepsName ((streamedFragments chunks).filter (·.id = some call.id))) :=
  ⟨fun _ indexed => indexed_iff indexed, fun _ identified => identified_iff identified⟩

namespace StreamedCall

/-- One call whose arguments come in two fragments, the second with an empty id and name. -/
def read : StreamedCall :=
  { id := "a".toList, name := "read".toList, arguments := "{}".toList
    identified := by decide, named := by decide }

def list : StreamedCall :=
  { id := "b".toList, name := "list".toList, arguments := "[]".toList
    identified := by decide, named := by decide }

def interleavedChunks : List ChatSseChunk :=
  [ { choices := [{ delta := { toolCalls :=
      [⟨none, some read.id, some ⟨some read.name, some ['{']⟩, none⟩,
        ⟨none, some list.id, some ⟨some list.name, some ['[']⟩, none⟩] } }] },
    { choices := [{ delta := { toolCalls :=
      [⟨none, some read.id, some ⟨none, some ['}']⟩, none⟩,
        ⟨none, some list.id, some ⟨none, some [']']⟩, none⟩] } }] } ]

def readChunks : List ChatSseChunk :=
  [ { choices := [{ delta := { toolCalls :=
      [⟨some 0, some read.id, some ⟨some read.name, some ['{']⟩, none⟩] } }] },
    { choices := [{ delta := { toolCalls :=
      [⟨some 0, some [], some ⟨some [], some ['}']⟩, none⟩] } }] } ]

end StreamedCall

/-- A hash map that iterates in the order of insertion. -/
def inserted : HashOrder where
  order keys := keys
  perm keys := List.Perm.refl keys

/-- A call whose later fragment has an empty name does not come out at all. -/
theorem empty_name_loses_call :
    Indexed [(0, StreamedCall.read)] (streamedFragments StreamedCall.readChunks) ∧
      (applyChunks inserted {} StreamedCall.readChunks).intoToolCalls = [] := by
  have fragments : streamedFragments StreamedCall.readChunks =
      [⟨some 0, some StreamedCall.read.id, some ⟨some StreamedCall.read.name, some ['{']⟩, none⟩,
        ⟨some 0, some [], some ⟨some [], some ['}']⟩, none⟩] := rfl
  refine ⟨⟨by simp, ?_, ?_⟩, ?_⟩
  · rw [fragments]
    simp
  · rw [fragments]
    intro call member
    rw [mem_singleton.mp member]
    refine ⟨_, _, rfl, rfl, rfl, rfl, ?_⟩
    intro later listed
    rw [mem_singleton.mp listed]
    exact ⟨.inr (.inl rfl), .inr (.inl rfl)⟩
  · have built : (applyChunks inserted {} StreamedCall.readChunks).toolCallBuilders =
        [(0, ⟨[], [], "{}".toList, none⟩)] := rfl
    rw [intoToolCalls, built, ToolCallBuilders.keys, map_singleton, mergeSort_singleton]
    rfl

/-- Two calls without indexes whose fragments are interleaved come out. -/
theorem interleaved_calls_reassembled :
    (applyChunks inserted {} StreamedCall.interleavedChunks).intoToolCalls.map
        OpenAiToolCall.answer =
      [StreamedCall.read, StreamedCall.list].map StreamedCall.answer := by
  have fragments : streamedFragments StreamedCall.interleavedChunks =
      [⟨none, some StreamedCall.read.id, some ⟨some StreamedCall.read.name, some ['{']⟩, none⟩,
        ⟨none, some StreamedCall.list.id, some ⟨some StreamedCall.list.name, some ['[']⟩, none⟩,
        ⟨none, some StreamedCall.read.id, some ⟨none, some ['}']⟩, none⟩,
        ⟨none, some StreamedCall.list.id, some ⟨none, some [']']⟩, none⟩] := rfl
  have apart : ¬ StreamedCall.read.id = StreamedCall.list.id := by decide
  have apart' : ¬ StreamedCall.list.id = StreamedCall.read.id := Ne.symm apart
  refine ((reassembled inserted StreamedCall.interleavedChunks).2 _ ⟨by decide, by decide, ?_, ?_,
    ?_⟩).mpr ⟨by decide, ?_⟩
  · rw [fragments]
    simp
  · rw [fragments]
    simp
  · rw [fragments]
    simp [StreamedCall.CutInto, Repeats, SseToolCallDelta.arguments, SseToolCallDelta.name, apart,
      apart']
    exact ⟨rfl, rfl⟩
  · rw [fragments]
    simp [KeepsName, lastGiven, apart, apart']
    exact ⟨StreamedCall.read.named, StreamedCall.list.named⟩

end Ai
