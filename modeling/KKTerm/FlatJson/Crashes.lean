import KKTerm.FlatJson.Threads

/-!
# Crashes

A process that dies inside a write leaves the old contents, the new ones, or, between the two
renames, no file at all; a missing index is read as an empty one.
-/

namespace FlatJson

open List hiding after
open Effects

variable {Bytes : Type} {store : Store Bytes}

lemma index_ne_thread (id : List Char) :
    assistantIndexPath store ≠ assistantThreadPath store id := by
  intro same
  obtain ⟨c, rest, digest, -, no_i⟩ := store.recordName_hex id
  have first := congrArg (fun p => p.name.head?) same
  rw [assistantIndexPath, assistantThreadPath, digest] at first
  exact no_i (Option.some.inj first).symm

lemma index_ne_temporary (path : FilePath) :
    assistantIndexPath store ≠ temporaryPath store.world path := by
  intro same
  have first := congrArg (fun p => p.name.head?) same
  exact absurd (Option.some.inj first) (by decide)

lemma index_ne_backup (path : FilePath) :
    assistantIndexPath store ≠ backupPath store.world path := by
  intro same
  have first := congrArg (fun p => p.name.head?) same
  exact absurd (Option.some.inj first) (by decide)

lemma thread_ne_temporary (id : List Char) (path : FilePath) :
    assistantThreadPath store id ≠ temporaryPath store.world path := by
  intro same
  obtain ⟨c, rest, digest, no_dot, -⟩ := store.recordName_hex id
  have first := congrArg (fun p => p.name.head?) same
  rw [assistantThreadPath, digest] at first
  exact no_dot (Option.some.inj first)

lemma thread_ne_backup (id : List Char) (path : FilePath) :
    assistantThreadPath store id ≠ backupPath store.world path := by
  intro same
  obtain ⟨c, rest, digest, no_dot, -⟩ := store.recordName_hex id
  have first := congrArg (fun p => p.name.head?) same
  rw [assistantThreadPath, digest] at first
  exact no_dot (Option.some.inj first)

/-- How many calls the files of these threads need. -/
def threadsCost (store : Store Bytes) (present : FilePath → Bool) : List Thread → Nat
  | [] => 0
  | record :: records =>
    let path := assistantThreadPath store record.id
    (if present path then 9 else 7) +
      threadsCost store (fun q => q = path || present q) records

/-- The index and the rows are as before. -/
structure IndexKept (store : Store Bytes) (s₀ s : Disk Bytes Thread) : Prop where
  rows : s.rows = s₀.rows
  index : s.files (assistantIndexPath store) = s₀.files (assistantIndexPath store)

lemma threadsCost_congr {present present' : FilePath → Bool} (records : List Thread)
    (agree : ∀ id, present (assistantThreadPath store id) = present' (assistantThreadPath store id)) :
    threadsCost store present records = threadsCost store present' records := by
  induction records generalizing present present' with
  | nil => rfl
  | cons record records ih =>
    rw [threadsCost, threadsCost, agree record.id]
    refine congrArg _ (ih fun id => ?_)
    rw [agree id]

/-- A computation is followed from each state in which it may start. -/
lemma triple_each {α : Type} {P : Disk Bytes Thread → Prop} {x : ThreadTask Bytes α}
    {Q : α → Disk Bytes Thread → Prop} {E : Stop → Disk Bytes Thread → Prop}
    (h : ∀ s, P s → Triple (· = s) x Q E) : Triple P x Q E :=
  fun s start => h s start s rfl

lemma Holds.indexKept {id : List Char} {s₀ s : Disk Bytes Thread} {contents : Option Bytes}
    (h : Holds store.world (assistantThreadPath store id) s₀ contents s) :
    IndexKept store s₀ s :=
  ⟨h.rows, h.files _ (index_ne_thread id) (index_ne_temporary _) (index_ne_backup _)⟩

lemma IndexKept.trans {s₀ s₁ s : Disk Bytes Thread} (first : IndexKept store s₀ s₁)
    (second : IndexKept store s₁ s) : IndexKept store s₀ s :=
  ⟨second.rows.trans first.rows, second.index.trans first.index⟩

/-- The files of threads leave the index and the rows alone. -/
lemma triple_writeThreads (sure : NoFailure store.world) (records : List Thread)
    (s₀ : Disk Bytes Thread) :
    Triple (· = s₀) (records.forM (writeThread store))
      (fun _ s => IndexKept store s₀ s ∧
        s.budget + threadsCost store (fun q => (s₀.files q).isSome) records = s₀.budget)
      (fun _ s => IndexKept store s₀ s ∧
        s₀.budget < threadsCost store (fun q => (s₀.files q).isSome) records) := by
  induction records generalizing s₀ with
  | nil =>
    refine triple_pure ?_
    rintro s rfl
    exact ⟨⟨rfl, rfl⟩, rfl⟩
  | cons record records ih =>
    have cost : threadsCost store (fun q => (s₀.files q).isSome) (record :: records) =
        writeCost (s₀.files (assistantThreadPath store record.id)) +
          threadsCost store (fun q => decide (q = assistantThreadPath store record.id) ||
            (s₀.files q).isSome) records := rfl
    rw [cost]
    refine triple_bind (triple_weaken (triple_writeJsonAtomic sure store.threadCodec
      (assistantThreadPath store record.id) record s₀) (fun _ h => h) (fun _ _ h => h) ?_)
      fun _ => triple_each ?_
    · rintro e s ⟨-, dead, holds⟩
      exact ⟨holds.indexKept, Nat.lt_of_lt_of_le dead (Nat.le_add_right _ _)⟩
    · rintro s₁ ⟨spent, holds⟩
      have later : threadsCost store (fun q => decide (q = assistantThreadPath store record.id) ||
          (s₀.files q).isSome) records =
          threadsCost store (fun q => (s₁.files q).isSome) records := by
        refine threadsCost_congr records fun id => ?_
        by_cases same : assistantThreadPath store id = assistantThreadPath store record.id
        · rw [same, holds.held, decide_eq_true rfl]
          rfl
        · rw [holds.files _ same (thread_ne_temporary id _) (thread_ne_backup id _),
            decide_eq_false same, Bool.false_or]
      rw [later]
      refine triple_weaken (ih s₁) (fun _ h => h) ?_ ?_
      · rintro _ s ⟨kept, budget⟩
        exact ⟨holds.indexKept.trans kept, by omega⟩
      · rintro _ s ⟨kept, dead⟩
        exact ⟨holds.indexKept.trans kept, by omega⟩

/-- What becomes of the index when its write begins after so many calls. -/
structure IndexWritten (store : Store Bytes) (s₀ : Disk Bytes Thread) (calls : Nat)
    (new : List Summary) (s : Disk Bytes Thread) : Prop where
  rows : s.rows = s₀.rows
  index : s.files (assistantIndexPath store) =
    leftBehind (s₀.files (assistantIndexPath store)) (store.indexCodec.toBytes new)
      (s₀.budget - calls)

lemma IndexKept.written {s₀ s : Disk Bytes Thread} (kept : IndexKept store s₀ s) {calls : Nat}
    (early : s₀.budget < calls) (new : List Summary) : IndexWritten store s₀ calls new s := by
  refine ⟨kept.rows, ?_⟩
  rw [leftBehind, if_pos (by omega)]
  exact kept.index

section
variable (sure : NoFailure store.world)
include sure

/-- The write of the index, from a state that so many calls have led to. -/
lemma triple_writeIndex (new : List Summary) {calls : Nat} {s₀ : Disk Bytes Thread} :
    Triple (fun s => IndexKept store s₀ s ∧ s.budget + calls = s₀.budget) (writeIndex store new)
      (fun _ => IndexWritten store s₀ calls new) (fun _ => IndexWritten store s₀ calls new) := by
  refine triple_each ?_
  rintro s₁ ⟨kept, budget⟩
  have written : ∀ {s}, Holds store.world (assistantIndexPath store) s₁
      (leftBehind (s₁.files (assistantIndexPath store)) (store.indexCodec.toBytes new)
        s₁.budget) s → IndexWritten store s₀ calls new s := by
    intro s holds
    refine ⟨holds.rows.trans kept.rows, ?_⟩
    rw [holds.held, kept.index, ← budget, Nat.add_sub_cancel]
  rintro s rfl
  have held := holds_after_write sure store.indexCodec (assistantIndexPath store) new s
  refine ⟨fun a s' run => ?_, fun e s' run => ?_⟩
  · exact written (by rw [writeIndex] at run; rw [run] at held; exact held)
  · exact written (by rw [writeIndex] at run; rw [run] at held; exact held)

/-- A name that is no index is removed without harm to it. -/
lemma triple_removeOther {path : FilePath}
    (other : path ≠ assistantIndexPath store) {s₀ : Disk Bytes Thread} {calls : Nat}
    {new : List Summary} :
    Triple (IndexWritten store s₀ calls new) (removeFileIfExists store.world path)
      (fun _ => IndexWritten store s₀ calls new) (fun _ => IndexWritten store s₀ calls new) := by
  refine triple_call sure (fun s h _ => h) fun s left h _ => ?_
  refine ⟨_, rfl, h.rows, ?_⟩
  exact (Files.set_other _ _ other.symm).trans h.index

lemma triple_removeStale (records : List Thread)
    {s₀ : Disk Bytes Thread} {calls : Nat} {new : List Summary} :
    Triple (IndexWritten store s₀ calls new) (removeStale store records)
      (fun _ => IndexWritten store s₀ calls new) (fun _ => IndexWritten store s₀ calls new) := by
  refine triple_bind (M := fun _ => IndexWritten store s₀ calls new) (triple_look fun s h => h)
    fun names => triple_forM fun name stale => triple_removeOther sure ?_
  intro same
  have kept := (mem_filter.mp stale).2
  rw [show name = "index.json".toList from congrArg FilePath.name same] at kept
  exact absurd kept (by simp)

end

def Readable (store : Store Bytes) (s : Disk Bytes Thread) (l : List Summary) : Prop :=
  readJsonOrDefault store.indexCodec [] s.files (assistantIndexPath store) = .ok l

lemma triple_readIndex {s₀ : Disk Bytes Thread} {l : List Summary}
    (readable : Readable store s₀ l) {P : Disk Bytes Thread → Prop}
    {E : Stop → Disk Bytes Thread → Prop}
    (same : ∀ s, P s → s.files (assistantIndexPath store) = s₀.files (assistantIndexPath store)) :
    Triple P (readIndex store) (fun found s => found = l ∧ P s) E := by
  refine triple_bind (M := fun found s => found = .ok l ∧ P s) (triple_look ?_) fun found => ?_
  · intro s start
    refine ⟨?_, start⟩
    rw [← readable, readJsonOrDefault, readJsonOrDefault, readJson, readJson, same s start]
  · rintro s ⟨rfl, start⟩
    exact triple_pure (fun s h => ⟨rfl, h⟩) s start

lemma triple_merge (sure : NoFailure store.world) (records : List Thread)
    {s₀ : Disk Bytes Thread} {l : List Summary} (readable : Readable store s₀ l) :
    Triple (· = s₀) (mergeAssistantThreadsLocked store records)
      (fun _ => IndexWritten store s₀ (threadsCost store (fun q => (s₀.files q).isSome) records)
        (mergedIndex store l records))
      (fun _ => IndexWritten store s₀ (threadsCost store (fun q => (s₀.files q).isSome) records)
        (mergedIndex store l records)) := by
  refine triple_bind (triple_readIndex readable (fun s h => by rw [h])) fun found => ?_
  rintro s ⟨rfl, start⟩
  refine triple_bind (triple_weaken (triple_writeThreads sure records s₀) (fun _ h => h)
    (fun _ _ h => h) ?_) (fun _ => triple_writeIndex sure _) s start
  rintro e s ⟨kept, early⟩
  exact kept.written early _

lemma triple_replace (sure : NoFailure store.world) (records : List Thread)
    (s₀ : Disk Bytes Thread) :
    Triple (· = s₀) (replaceAssistantThreadsLocked store records)
      (fun _ => IndexWritten store s₀
        (1 + threadsCost store (fun q => (s₀.files q).isSome) records) (replacedIndex store records))
      (fun _ => IndexWritten store s₀
        (1 + threadsCost store (fun q => (s₀.files q).isSome) records)
        (replacedIndex store records)) := by
  refine triple_bind (M := fun _ s => IndexKept store s₀ s ∧ s.budget + 1 = s₀.budget ∧
    s.files = s₀.files) ?_ fun _ => triple_each ?_
  · refine triple_call sure ?_ ?_
    · rintro s rfl empty
      exact (⟨rfl, rfl⟩ : IndexKept store s s).written (by omega) _
    · rintro s left rfl budget
      exact ⟨_, rfl, ⟨rfl, rfl⟩, budget.symm, rfl⟩
  rintro s₁ ⟨kept, spent, files⟩
  refine triple_bind (M := fun _ s => IndexKept store s₀ s ∧
    s.budget + (1 + threadsCost store (fun q => (s₀.files q).isSome) records) = s₀.budget)
    (triple_weaken (triple_writeThreads sure records s₁) (fun _ h => h) ?_ ?_) fun _ => ?_
  · rintro _ s ⟨threads, budget⟩
    rw [files] at budget
    exact ⟨kept.trans threads, by omega⟩
  · rintro e s ⟨threads, early⟩
    rw [files] at early
    exact (kept.trans threads).written (by omega) _
  refine triple_bind (triple_writeIndex sure _) fun _ => ?_
  exact triple_removeStale sure records

/-- A statement that keeps the index, from a state in which some calls are left. -/
lemma triple_execute (sure : NoFailure store.world) (change : List Thread → List Thread)
    (s₀ : Disk Bytes Thread) :
    Triple (· = s₀) (execute store change)
      (fun _ s => s.rows = change s₀.rows ∧ s.files = s₀.files ∧ s.budget + 1 = s₀.budget)
      (fun _ s => s = s₀ ∧ s₀.budget = 0) := by
  refine triple_call sure ?_ ?_
  · rintro s rfl empty
    exact ⟨rfl, empty⟩
  · rintro s left rfl budget
    exact ⟨_, rfl, rfl, rfl, budget.symm⟩

/-- The index after the write of an operation that changes the rows first. -/
structure RowsAndIndex (store : Store Bytes) (s₀ : Disk Bytes Thread)
    (change : List Thread → List Thread) (new : List Summary) (s : Disk Bytes Thread) : Prop where
  rows : s.rows = s₀.rows ∨ s.rows = change s₀.rows
  index : s.files (assistantIndexPath store) =
    leftBehind (s₀.files (assistantIndexPath store)) (store.indexCodec.toBytes new)
      (s₀.budget - 1)

lemma triple_delete (sure : NoFailure store.world) {threadId id : List Char}
    (valid : requiredField "assistant chat thread id".toList threadId = .ok id)
    {s₀ : Disk Bytes Thread} {l : List Summary} (readable : Readable store s₀ l) :
    Triple (· = s₀) (deleteAssistantChatThread store threadId)
      (fun _ => RowsAndIndex store s₀ (filter (fun row => row.id != id))
        (l.filter (fun summary => summary.id != id)))
      (fun _ => RowsAndIndex store s₀ (filter (fun row => row.id != id))
        (l.filter (fun summary => summary.id != id))) := by
  have unwritten : ∀ {s}, s = s₀ → s₀.budget = 0 → RowsAndIndex store s₀
      (filter (fun row => row.id != id)) (l.filter (fun summary => summary.id != id)) s := by
    rintro s rfl empty
    refine ⟨.inl rfl, ?_⟩
    rw [empty]
    rfl
  have written : ∀ {s}, IndexWritten store
      { s₀ with rows := s₀.rows.filter (fun row => row.id != id) } 1
        (l.filter (fun summary => summary.id != id)) s →
      RowsAndIndex store s₀ (filter (fun row => row.id != id))
        (l.filter (fun summary => summary.id != id)) s :=
    fun h => ⟨.inr h.rows, h.index⟩
  refine triple_bind (M := fun found s => found = id ∧ s = s₀) ?_ fun found => ?_
  · rw [valid]
    exact triple_pure fun s h => ⟨rfl, h⟩
  rintro s ⟨rfl, start⟩
  refine triple_bind (triple_weaken (triple_execute sure _ s₀) (fun _ h => h) (fun _ _ h => h)
    fun _ _ h => unwritten h.1 h.2) (fun _ => ?_) s start
  refine triple_bind (triple_readIndex readable (fun s h => by rw [h.2.1])) fun summaries => ?_
  rintro s ⟨rfl, rows, files, budget⟩
  refine triple_weaken (triple_bind (triple_writeIndex sure _) fun _ =>
    triple_removeOther sure (index_ne_thread found).symm) (fun _ h => h)
    (fun _ _ => written) (fun _ _ => written) s ?_
  exact ⟨⟨rows, by rw [files]⟩, budget⟩

/-- How many calls come before the write of the index, where there is one. -/
def indexWrite (store : Store Bytes) (s : Disk Bytes Thread) : Operation → Option Nat
  | .upsert request =>
    match validateAssistantChatThread store request with
    | .error _ => none
    | .ok thread =>
      if s.rows.any (fun row => row.id == thread.id) then none
      else some (threadsCost store (fun q => (s.files q).isSome) [thread])
  | .delete threadId =>
    match requiredField "assistant chat thread id".toList threadId with
    | .error _ => none
    | .ok _ => some 1
  | .merge records => some (threadsCost store (fun q => (s.files q).isSome) records)
  | .replace records => some (1 + threadsCost store (fun q => (s.files q).isSome) records)

/-- The threads that an operation is meant to delete. -/
def Deletes (op : Operation) (id : List Char) : Prop :=
  match op with
  | .upsert _ | .merge _ => False
  | .delete threadId => requiredField "assistant chat thread id".toList threadId = .ok id
  | .replace records => id ∉ records.map AssistantChatThreadRecord.id

/-- What an operation leaves, dead or not: the rows of what it does not delete, and the index
untouched or as its write leaves it, with all that is not deleted. -/
structure Leaves (store : Store Bytes) (op : Operation) (s₀ s : Disk Bytes Thread)
    (l : List Summary) : Prop where
  rows : ∀ id, ¬ Deletes op id →
    (id ∈ s.rows.map AssistantChatThreadRecord.id ↔ id ∈ s₀.rows.map AssistantChatThreadRecord.id)
  index : match indexWrite store s₀ op with
    | none => s.files (assistantIndexPath store) = s₀.files (assistantIndexPath store)
    | some calls => ∃ new : List Summary,
      (∀ id ∈ l.map AssistantChatThreadSummaryRecord.id, ¬ Deletes op id →
        id ∈ new.map AssistantChatThreadSummaryRecord.id) ∧
      s.files (assistantIndexPath store) =
        leftBehind (s₀.files (assistantIndexPath store)) (store.indexCodec.toBytes new)
          (s₀.budget - calls)

lemma ids_withSummary (summaries : List Summary) (record : Thread) {id : List Char}
    (h : id ∈ summaries.map AssistantChatThreadSummaryRecord.id ∨ id = record.id) :
    id ∈ (withSummary store summaries record).map AssistantChatThreadSummaryRecord.id := by
  rw [withSummary, map_append, mem_append]
  by_cases same : id = record.id
  · exact .inr (by rw [same]; exact mem_singleton_self _)
  · obtain ⟨summary, member, rfl⟩ := mem_map.mp (h.resolve_right same)
    exact .inl (mem_map_of_mem (mem_filter.mpr ⟨member, by simpa using same⟩))

lemma ids_mergedIndex (summaries : List Summary) (records : List Thread) {id : List Char}
    (h : id ∈ summaries.map AssistantChatThreadSummaryRecord.id) :
    id ∈ (mergedIndex store summaries records).map AssistantChatThreadSummaryRecord.id := by
  have kept : id ∈ (records.foldl (withSummary store) summaries).map
      AssistantChatThreadSummaryRecord.id := by
    induction records generalizing summaries with
    | nil => exact h
    | cons record records ih => exact ih _ (ids_withSummary summaries record (.inl h))
  exact (((perm_insertionSort newerFirst _).map _).mem_iff).mpr kept

lemma ids_replacedIndex (records : List Thread) {id : List Char}
    (h : id ∈ records.map AssistantChatThreadRecord.id) :
    id ∈ (replacedIndex store records).map AssistantChatThreadSummaryRecord.id := by
  refine (((perm_insertionSort laterUpdateFirst _).map _).mem_iff).mpr ?_
  rw [map_map]
  exact h

lemma of_triple {α : Type} {x : ThreadTask Bytes α} {R : Disk Bytes Thread → Prop}
    {s : Disk Bytes Thread} (h : Triple (· = s) x (fun _ => R) (fun _ => R)) : R (after x s).2 := by
  obtain ⟨returns, stops⟩ := h s rfl
  rcases run : after x s with ⟨e | a, s'⟩
  · exact stops e s' run
  · exact returns a s' run

lemma IndexWritten.leaves {op : Operation} {s₀ s : Disk Bytes Thread} {l new : List Summary}
    {calls : Nat} (h : IndexWritten store s₀ calls new s) (writes : indexWrite store s₀ op = some calls)
    (kept : ∀ id ∈ l.map AssistantChatThreadSummaryRecord.id, ¬ Deletes op id →
      id ∈ new.map AssistantChatThreadSummaryRecord.id) : Leaves store op s₀ s l := by
  refine ⟨fun id _ => by rw [h.rows], ?_⟩
  rw [writes]
  exact ⟨new, kept, h.index⟩

lemma leaves_unchanged {op : Operation} {s : Disk Bytes Thread} {l : List Summary}
    (writes : indexWrite store s op = none) : Leaves store op s s l := by
  refine ⟨fun id _ => Iff.rfl, ?_⟩
  rw [writes]

lemma after_orFail_error {α β : Type} (message : List Char) (f : α → ThreadTask Bytes β)
    (s : Disk Bytes Thread) :
    after (orFail (.error message) >>= f) s = (.error (.failed message), s) := by
  rw [orFail, after_bind, after_throw]

lemma leaves_upsert (sure : NoFailure store.world) (request : Thread) {s : Disk Bytes Thread}
    {l : List Summary} (readable : Readable store s l) :
    Leaves store (.upsert request) s (after (perform store (.upsert request)) s).2 l := by
  cases valid : validateAssistantChatThread store request with
  | error message =>
    have refused : after (upsertAssistantChatThread store request) s =
        (.error (.failed message), s) := by
      rw [upsertAssistantChatThread, valid, after_orFail_error]
    rw [perform, after_bind, refused]
    exact leaves_unchanged (by rw [indexWrite, valid])
  | ok thread =>
    refine of_triple (triple_bind (M := fun _ s' => Leaves store (.upsert request) s s' l) ?_
      fun _ => triple_pure fun _ h => h)
    rw [upsertAssistantChatThread, valid]
    refine triple_bind (M := fun found s' => found = thread ∧ s' = s)
      (triple_pure fun s' h => ⟨rfl, h⟩) fun found => ?_
    refine triple_bind (M := fun legacy s' => found = thread ∧ s' = s ∧
      legacy = s.rows.any (fun row => row.id == thread.id)) (triple_look ?_) fun legacy => ?_
    · rintro s' ⟨rfl, rfl⟩
      exact ⟨rfl, rfl, rfl⟩
    rintro s' ⟨rfl, rfl, exists_row⟩
    refine triple_bind (M := fun _ t => Leaves store (.upsert request) s' t l) ?_
      (fun _ => triple_pure fun _ h => h) s' rfl
    cases legacy with
    | true =>
      have writes : indexWrite store s' (.upsert request) = none := by
        rw [indexWrite, valid]
        exact if_pos exists_row.symm
      refine triple_weaken (triple_execute sure _ s') (fun _ h => h.symm) ?_ ?_
      · rintro _ t ⟨rows, files, -⟩
        have ids : t.rows.map AssistantChatThreadRecord.id =
            s'.rows.map AssistantChatThreadRecord.id := by
          rw [rows, map_map]
          refine map_congr_left fun row _ => ?_
          by_cases same : row.id = found.id
          · exact (congrArg AssistantChatThreadRecord.id (if_pos same)).trans same.symm
          · exact congrArg AssistantChatThreadRecord.id (if_neg same)
        refine ⟨fun id _ => by rw [ids], ?_⟩
        rw [writes, files]
      · rintro e t ⟨rfl, -⟩
        exact leaves_unchanged writes
    | false =>
      have writes : indexWrite store s' (.upsert request) =
          some (threadsCost store (fun q => (s'.files q).isSome) [found]) := by
        rw [indexWrite, valid]
        exact if_neg (by rw [← exists_row]; exact Bool.false_ne_true)
      refine triple_weaken (triple_merge sure [found] readable) (fun _ h => h.symm) ?_ ?_
      · exact fun _ t h => h.leaves writes fun id member _ => ids_mergedIndex l [found] member
      · exact fun _ t h => h.leaves writes fun id member _ => ids_mergedIndex l [found] member

lemma leaves_delete (sure : NoFailure store.world) (threadId : List Char) {s : Disk Bytes Thread}
    {l : List Summary} (readable : Readable store s l) :
    Leaves store (.delete threadId) s (after (perform store (.delete threadId)) s).2 l := by
  rw [perform]
  cases valid : requiredField "assistant chat thread id".toList threadId with
  | error message =>
    rw [deleteAssistantChatThread, valid, after_orFail_error]
    exact leaves_unchanged (by rw [indexWrite, valid])
  | ok id =>
    have outcome := of_triple (triple_delete sure valid readable)
    refine ⟨fun other kept => ?_, ?_⟩
    · have differ : other ≠ id := fun same => kept (by rw [Deletes, valid, same])
      rcases outcome.rows with same | filtered
      · rw [same]
      · rw [filtered]
        constructor
        · intro member
          obtain ⟨row, in_rows, rfl⟩ := mem_map.mp member
          exact mem_map_of_mem (mem_filter.mp in_rows).1
        · intro member
          obtain ⟨row, in_rows, rfl⟩ := mem_map.mp member
          exact mem_map_of_mem (mem_filter.mpr ⟨in_rows, by simpa using differ⟩)
    · rw [indexWrite, valid]
      refine ⟨_, fun other member kept => ?_, outcome.index⟩
      obtain ⟨summary, in_list, rfl⟩ := mem_map.mp member
      have differ : summary.id ≠ id := fun same => kept (by rw [Deletes, valid, same])
      exact mem_map_of_mem (mem_filter.mpr ⟨in_list, by simpa using differ⟩)

/-- Every operation leaves the rows and the index like this, wherever the process dies. -/
lemma leaves_perform (sure : NoFailure store.world) (op : Operation) {s : Disk Bytes Thread}
    {l : List Summary} (readable : Readable store s l) :
    Leaves store op s (after (perform store op) s).2 l := by
  cases op with
  | upsert request => exact leaves_upsert sure request readable
  | delete threadId => exact leaves_delete sure threadId readable
  | merge records =>
    exact (of_triple (triple_merge sure records readable)).leaves rfl
      fun id member _ => ids_mergedIndex l records member
  | replace records =>
    exact (of_triple (triple_replace sure records s)).leaves rfl
      fun id _ kept => ids_replacedIndex records (Decidable.not_not.mp kept)

lemma ids_keepNew (l : List Summary) (id : List Char) :
    id ∈ (l.foldl keepNew []).map AssistantChatThreadSummaryRecord.id ↔
      id ∈ l.map AssistantChatThreadSummaryRecord.id := by
  induction l using reverseRecOn with
  | nil => exact Iff.rfl
  | append_singleton l last ih =>
    rw [foldl_concat, map_append, mem_append, ← ih]
    generalize l.foldl keepNew [] = kept
    rw [keepNew]
    split
    · rename_i present
      obtain ⟨other, in_kept, same⟩ := any_eq_true.mp present
      refine ⟨.inl, ?_⟩
      rintro (before | now)
      · exact before
      · rw [mem_singleton.mp now]
        exact mem_map.mpr ⟨other, in_kept, beq_iff_eq.mp same⟩
    · rw [map_append, mem_append]

/-- A thread that the list of summaries shows. -/
def Listed (store : Store Bytes) (s : Disk Bytes Thread) (id : List Char) : Prop :=
  ∃ summaries, listAssistantChatThreadSummaries store s = .ok summaries ∧
    id ∈ summaries.map AssistantChatThreadSummaryRecord.id

lemma listed_iff {s : Disk Bytes Thread} {id : List Char} :
    Listed store s id ↔ ∃ l, Readable store s l ∧
      (id ∈ s.rows.map AssistantChatThreadRecord.id ∨
        id ∈ l.map AssistantChatThreadSummaryRecord.id) := by
  have ids : ∀ l : List Summary,
      id ∈ (((s.rows.map (summaryOfRow store) ++ l).insertionSort newerFirst).foldl keepNew []).map
        AssistantChatThreadSummaryRecord.id ↔
      id ∈ s.rows.map AssistantChatThreadRecord.id ∨
        id ∈ l.map AssistantChatThreadSummaryRecord.id := by
    intro l
    rw [ids_keepNew, ((perm_insertionSort newerFirst _).map _).mem_iff, map_append,
      mem_append, map_map]
    rfl
  constructor
  · rintro ⟨summaries, listed, member⟩
    obtain ⟨l, readable, done⟩ := Fallible.bind_eq_ok.mp listed
    cases done
    exact ⟨l, readable, (ids l).mp member⟩
  · rintro ⟨l, readable, member⟩
    exact ⟨_, Fallible.bind_eq_ok.mpr ⟨l, readable, rfl⟩, (ids l).mpr member⟩

/-- The process dies between the two renames of the write of the index. -/
def DiesInIndex (store : Store Bytes) (op : Operation) (s : Disk Bytes Thread) : Prop :=
  ∃ calls, indexWrite store s op = some calls ∧ s.budget = calls + 7 ∧
    (s.files (assistantIndexPath store)).isSome = true

/-- Threads that the operation does not delete are still listed afterwards. -/
def KeepsThreads (store : Store Bytes) (op : Operation) (s : Disk Bytes Thread) : Prop :=
  ∀ id, Listed store s id → ¬ Deletes op id → Listed store (after (perform store op) s).2 id

lemma Readable.congr {s s' : Disk Bytes Thread} {l : List Summary} (h : Readable store s l)
    (same : s'.files (assistantIndexPath store) = s.files (assistantIndexPath store)) :
    Readable store s' l := by
  rwa [Readable, readJsonOrDefault, readJson, same]

/-- A missing index reads as an empty one. -/
lemma readable_of_none {s : Disk Bytes Thread} (gone : s.files (assistantIndexPath store) = none)
    {l : List Summary} : Readable store s l ↔ l = [] := by
  rw [Readable, readJsonOrDefault_of_none gone, Except.ok.injEq]
  exact eq_comm

lemma leftBehind_cases (old : Option Bytes) (new : Bytes) (calls : Nat) :
    leftBehind old new calls = old ∨
      (old.isSome = true ∧ calls = 7) ∧ leftBehind old new calls = none ∨
      ¬ (old.isSome = true ∧ calls = 7) ∧ leftBehind old new calls = some new := by
  rw [leftBehind]
  split
  · exact .inl rfl
  · split
    · rename_i gap
      exact .inr (.inl ⟨gap, rfl⟩)
    · rename_i past
      exact .inr (.inr ⟨past, rfl⟩)

/-- An operation keeps the threads it does not delete unless the process dies between the two
renames of the index, and unless all of them are rows of the database even then. -/
lemma keepsThreads_iff (sure : NoFailure store.world) (op : Operation) (s : Disk Bytes Thread) :
    KeepsThreads store op s ↔
      (DiesInIndex store op s → ∀ id, Listed store s id → ¬ Deletes op id →
        id ∈ s.rows.map AssistantChatThreadRecord.id) := by
  constructor
  · rintro keeps ⟨calls, writes, budget, target⟩ id listed kept
    obtain ⟨l, readable, -⟩ := listed_iff.mp listed
    have leaves := leaves_perform sure op readable
    have index := leaves.index
    rw [writes] at index
    obtain ⟨new, -, left_behind⟩ := index
    have gone : (after (perform store op) s).2.files (assistantIndexPath store) = none := by
      rw [left_behind, leftBehind, if_neg (by omega), if_pos ⟨target, by omega⟩]
    obtain ⟨l', readable', member⟩ := listed_iff.mp (keeps id listed kept)
    rw [(readable_of_none gone).mp readable'] at member
    exact (leaves.rows id kept).mp (member.resolve_right not_mem_nil)
  · intro condition id listed kept
    obtain ⟨l, readable, member⟩ := listed_iff.mp listed
    have leaves := leaves_perform sure op readable
    have row := fun in_rows => (leaves.rows id kept).mpr in_rows
    have index := leaves.index
    refine listed_iff.mpr ?_
    cases writes : indexWrite store s op with
    | none =>
      rw [writes] at index
      exact ⟨l, readable.congr index, member.imp_left row⟩
    | some calls =>
      rw [writes] at index
      obtain ⟨new, listed_new, left_behind⟩ := index
      rcases leftBehind_cases (s.files (assistantIndexPath store)) (store.indexCodec.toBytes new)
        (s.budget - calls) with same | ⟨⟨target, seven⟩, gone⟩ | ⟨-, replaced⟩
      · exact ⟨l, readable.congr (left_behind.trans same), member.imp_left row⟩
      · have dies : DiesInIndex store op s := ⟨calls, writes, by omega, target⟩
        exact ⟨[], (readable_of_none (left_behind.trans gone)).mpr rfl,
          Or.inl (row (condition dies id listed kept))⟩
      · exact ⟨new, readJsonOrDefault_of_holds (left_behind.trans replaced),
          member.imp row fun in_list => listed_new id in_list kept⟩

/-- A write that stops anywhere leaves the old value or the new one to be read, exactly unless
it stops between the two renames (and the default is neither); and an operation on the threads
loses none that it does not delete exactly unless it stops there in the index. -/
theorem crash_keeps_records (store : Store Bytes) (sure : NoFailure store.world) :
    (∀ {α Row : Type} (codec : Codec Bytes α) (default v w : α) (path : FilePath)
      (s : Disk Bytes Row), s.files path = some (codec.toBytes v) →
      ((readJsonOrDefault codec default
          (after (writeJsonAtomic store.world codec path w) s).2.files path = .ok v ∨
        readJsonOrDefault codec default
          (after (writeJsonAtomic store.world codec path w) s).2.files path = .ok w) ↔
        (s.budget = 7 → default = v ∨ default = w))) ∧
    (∀ (op : Operation) (s : Disk Bytes Thread), KeepsThreads store op s ↔
      (DiesInIndex store op s → ∀ id, Listed store s id → ¬ Deletes op id →
        id ∈ s.rows.map AssistantChatThreadRecord.id)) := by
  refine ⟨?_, fun op s => keepsThreads_iff sure op s⟩
  intro α Row codec default v w path s old
  have held := (holds_after_write sure codec path w s).held
  by_cases seven : s.budget = 7
  · have gone : leftBehind (s.files path) (codec.toBytes w) s.budget = none := by
      rw [old, seven]
      rfl
    rw [readJsonOrDefault_of_none (held.trans gone), Except.ok.injEq, Except.ok.injEq]
    exact ⟨fun found _ => found, fun found => found seven⟩
  · refine ⟨fun _ gap => absurd gap seven, fun _ => ?_⟩
    rcases leftBehind_cases (s.files path) (codec.toBytes w) s.budget with
      same | ⟨⟨-, gap⟩, -⟩ | ⟨-, replaced⟩
    · exact .inl (readJsonOrDefault_of_holds (held.trans (same.trans old)))
    · exact absurd gap seven
    · exact .inr (readJsonOrDefault_of_holds (held.trans replaced))

section Example

inductive Contents where
  | empty
  | thread (record : Thread)
  | index (summaries : List Summary)

def threadContents : Codec Contents Thread where
  toBytes := .thread
  fromSlice
    | .thread record => .ok record
    | _ => .error "expected an object".toList
  fromSlice_toBytes _ := rfl

def indexContents : Codec Contents (List Summary) where
  toBytes := .index
  fromSlice
    | .index summaries => .ok summaries
    | _ => .error "expected an array".toList
  fromSlice_toBytes _ := rfl

def exampleStore : Store Contents where
  world := ⟨"4711".toList, .empty, fun _ => none, fun _ => []⟩
  directory := "assistant-chat-threads".toList
  recordName _ := "ca978112ca1bbdcafac231b39a23dc4da786eff8147c4e72b9807785afee48bb".toList
  recordName_hex _ := ⟨_, _, rfl, by decide, by decide⟩
  threadCodec := threadContents
  indexCodec := indexContents
  parseIsArray _ := .ok true
  lastContent _ := none
  extractLastContent _ := []

def newThread : Thread :=
  ⟨"a".toList, "title".toList, "context".toList, "[]".toList, "1".toList, "1".toList⟩

def oldSummary : Summary :=
  ⟨"b".toList, "title".toList, "context".toList, [], "1".toList, "1".toList⟩

/-- A disk with one thread in its index, and a process that lives so long. -/
def oneThread (budget : Nat) : Disk Contents Thread :=
  ⟨fun q => if q = assistantIndexPath exampleStore then some (.index [oldSummary]) else none, [],
    budget⟩

theorem crash_keeps_records_in_use :
    (readJsonOrDefault indexContents [] (after (writeJsonAtomic exampleStore.world indexContents
        (assistantIndexPath exampleStore) []) (oneThread 6)).2.files
          (assistantIndexPath exampleStore) = .ok [oldSummary] ∨
      readJsonOrDefault indexContents [] (after (writeJsonAtomic exampleStore.world indexContents
        (assistantIndexPath exampleStore) []) (oneThread 6)).2.files
          (assistantIndexPath exampleStore) = .ok []) ∧
    KeepsThreads exampleStore (.upsert newThread) (oneThread 13) := by
  have keeps := crash_keeps_records exampleStore (fun _ => rfl)
  constructor
  · exact (keeps.1 indexContents [] [oldSummary] [] (assistantIndexPath exampleStore) (oneThread 6)
      rfl).mpr fun seven => absurd seven (by decide)
  · refine (keeps.2 (.upsert newThread) (oneThread 13)).mpr ?_
    rintro ⟨calls, writes, budget, -⟩
    have cost : indexWrite exampleStore (oneThread 13) (.upsert newThread) = some 7 := by
      decide +kernel
    rw [cost] at writes
    cases writes
    exact absurd budget (by decide)

/-- A process that dies between the two renames of the index: the next one reads an empty index,
and the thread that was there is not listed any more. -/
theorem crash_empties_index :
    readJsonOrDefault indexContents [] (after (writeJsonAtomic exampleStore.world indexContents
      (assistantIndexPath exampleStore) [oldSummary, oldSummary]) (oneThread 7)).2.files
        (assistantIndexPath exampleStore) = .ok [] ∧
    listAssistantChatThreadSummaries exampleStore (oneThread 14) = .ok [oldSummary] ∧
    listAssistantChatThreadSummaries exampleStore
      (after (perform exampleStore (.upsert newThread)) (oneThread 14)).2 = .ok [] := by
  decide +kernel

end Example

end FlatJson
