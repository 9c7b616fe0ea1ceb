import KKTerm.UiState.DurableState

/-!
# When the two tiers converge

The database will hold at a key what its timer or the queued commands leave
there. A step keeps the cache equal to that, or leaves a pending reply that will
make it so, provided that no reply brings a row that has been overtaken. Of a run
whose steps all meet the condition, the two tiers agree once nothing is pending.
-/

namespace UiState

open AList Runs KeyValue Text
open Option hiding mem_map mem_map_of_mem
open List

variable {s s' : State} {key : List Char}

lemma ne_nil_of_durable (durable : isDurableKey key = true) : key ≠ [] := by
  rintro rfl
  exact absurd durable (by decide +kernel)

lemma requiredField_eq_some {k : List Char} :
    requiredField k = some key ↔ trim k = key ∧ key ≠ [] := by
  rw [requiredField]
  by_cases blank : trim k = []
  · rw [if_pos blank]
    refine ⟨nofun, fun ⟨same, filled⟩ => ?_⟩
    exact absurd (same.symm.trans blank) filled
  · rw [if_neg blank, Option.some.injEq]
    refine ⟨fun same => ⟨same, ?_⟩, And.left⟩
    exact same ▸ blank

lemma matchesLike_of_isPrefixOf {start : List Char} (covers : start.isPrefixOf key = true) :
    matchesLike start key = true :=
  isPrefixOf_iff_prefix.mpr ((List.isPrefixOf_iff_prefix.mp covers).map Char.toLower)

/-- Where a durable key is meant, the key has no surrounding white space. -/
def Plain (k : List Char) : Prop :=
  isDurableKey k ∨ isDurableKey (trim k) → trim k = k

instance decidablePlain (k : List Char) : Decidable (Plain k) :=
  inferInstanceAs (Decidable (_ → _))

/-- A command on a plain key touches the row of that key alone. -/
lemma Plain.requiredField_iff {k : List Char} (plain : Plain k)
    (durable : isDurableKey key = true) : requiredField k = some key ↔ k = key := by
  rw [requiredField_eq_some]
  constructor
  · rintro ⟨trimmed, -⟩
    rw [← trimmed] at durable ⊢
    exact (plain (.inr durable)).symm
  · rintro rfl
    exact ⟨plain (.inl durable), ne_nil_of_durable durable⟩

section Queue
variable {commands : List Command}

lemma queuedAnswers_append (front back : List Command) (held : Option (List Char)) :
    queuedAnswers key (front ++ back) held =
      queuedAnswers key front held ++ queuedAnswers key back (rowAfter key front held) := by
  induction front generalizing held with
  | nil => rfl
  | cons command rest ih =>
    cases command with
    | listDurableUiState asker => exact congrArg (List.cons _) (ih held)
    | setDurableUiState k value => exact ih _
    | deleteDurableUiState k => exact ih _
    | deleteDurableUiStateByPrefix start => exact ih _

lemma State.future_issue (s : State) (commands : List Command) :
    (s.issue commands).future key = (s.pendingFlushes.lookup key).or
      (rowAfter key commands (rowAfter key s.queue (s.database.lookup key))) :=
  congrArg (s.pendingFlushes.lookup key).or (rowAfter_append key s.queue commands _)

lemma State.answers_issue (s : State) (commands : List Command) :
    (s.issue commands).answers key = s.answers key ++
      queuedAnswers key commands (rowAfter key s.queue (s.database.lookup key)) :=
  (congrArg (_ ++ ·) (queuedAnswers_append s.queue commands _)).trans (append_assoc _ _ _).symm

/-- Executing the first command changes neither what the database will hold nor
what will be told. -/
lemma State.execute_future {command : Command} {rest : List Command}
    (first : s.queue = command :: rest) (key : List Char) :
    let s' := { s with
      database := command.apply s.database
      queue := rest
      replies := s.replies ++ command.reply s.database }
    s'.future key = s.future key ∧ s'.answers key = s.answers key := by
  constructor
  · rw [State.future, State.future, first, Command.lookup_apply]
    rfl
  · rw [State.answers, State.answers, first, Command.lookup_apply]
    cases command with
    | listDurableUiState asker =>
      simp only [Command.reply, map_append, map_cons, map_nil,
        lookup_eraseWhere, append_assoc, queuedAnswers]
      cases covered : matchesLike asker.start key <;> simp [Asker.answer, covered, Command.row]
    | setDurableUiState k value => simp [Command.reply, queuedAnswers]
    | deleteDurableUiState k => simp [Command.reply, queuedAnswers]
    | deleteDurableUiStateByPrefix start => simp [Command.reply, queuedAnswers]

/-- Pushes of plain keys set the row of each pushed key, and no other. -/
lemma rowAfter_push {records cache : Entries} (durable : isDurableKey key = true)
    (plain : ∀ k ∈ cache.keys, isDurableKey k → records.lookup k ≠ cache.lookup k →
      trim k = k) (held : Option (List Char)) :
    rowAfter key (State.push records cache) held =
      ((cache.lookup key).filter (fun value => records.lookup key != some value)).or held := by
  let pushed := cache.entries.filter (fun row =>
    isDurableKey row.1 && records.lookup row.1 != some row.2)
  have distinct : pushed.NodupKeys := cache.nodupKeys.sublist filter_sublist
  have written : ∀ held : Option (List Char), ∀ row ∈ pushed,
      Command.row key held (.setDurableUiState row.1 row.2) =
        if row.1 = key then some row.2 else held := by
    intro held row member
    obtain ⟨member, kept⟩ := mem_filter.mp member
    obtain ⟨owned, differs⟩ := Bool.and_eq_true_iff.mp kept
    have found : cache.lookup row.1 = some row.2 := mem_dlookup cache.nodupKeys member
    have trimmed := plain row.1 (mem_keys_of_mem member) owned (found ▸ bne_iff_ne.mp differs)
    have alone := Plain.requiredField_iff (fun _ => trimmed) durable
    rw [Command.row]
    by_cases same : row.1 = key
    · rw [if_pos (alone.mpr same), if_pos same]
    · rw [if_neg (fun required => same (alone.mp required)), if_neg same]
  rw [rowAfter, State.push, foldl_map, foldl_ext _ _ _ (fun a b => written a b),
    foldl_of_keys (k := key) (fun held row differ => if_neg differ) distinct,
    dlookup_filter _ cache.nodupKeys]
  simp only [if_true, durable, Bool.true_and]
  change ((cache.lookup key).filter _).elim held some = _
  cases (cache.lookup key).filter (fun value => records.lookup key != some value) <;> rfl

end Queue

/-- Whether the records a call will be given still settle what the cache holds at a
key: the startup pulls or pushes a difference, and a reload fills a gap. -/
def Settles (key : List Char) (cached : Option (List Char)) : Asker × Option (List Char) → Prop
  | (.hydrate, told) => told ≠ cached
  | (.reload start, told) => start.isPrefixOf key ∧ cached = none ∧ told ≠ none

instance decidableSettles (key : List Char) (cached : Option (List Char)) :
    DecidablePred (Settles key cached)
  | (.hydrate, told) => inferInstanceAs (Decidable (told ≠ cached))
  | (.reload start, told) =>
    inferInstanceAs (Decidable (start.isPrefixOf key ∧ cached = none ∧ told ≠ none))

namespace State

def WillSettle (s : State) (key : List Char) : Prop :=
  s.hydrated = false ∨ ∃ pending ∈ s.answers key, Settles key (s.cache.lookup key) pending

instance decidableWillSettle (s : State) (key : List Char) : Decidable (s.WillSettle key) :=
  inferInstanceAs (Decidable (_ ∨ _))

/-- The cache holds what the database will hold, or a reply will see to it. -/
def Held (s : State) (key : List Char) : Prop :=
  s.cache.lookup key = s.future key ∨ s.pendingFlushes.lookup key = none ∧ s.WillSettle key

structure Gone (s : State) (key : List Char) : Prop where
  cache : s.cache.lookup key = none
  future : s.future key = none

/-- What a reply brings has not been overtaken: a row it writes to the cache is the
row that the database will hold, and a key it pushes has no surrounding white space. -/
def Fresh (s : State) (reply : Reply) : Prop :=
  match reply.asker with
  | .hydrate =>
    (∀ key ∈ reply.records.keys, isDurableKey key → s.cache.lookup key = none →
      reply.records.lookup key = s.future key) ∧
    ∀ key ∈ s.cache.keys, isDurableKey key →
      reply.records.lookup key ≠ s.cache.lookup key → trim key = key
  | .reload start =>
    ∀ key ∈ reply.records.keys, isDurableKey key → start.isPrefixOf key →
      reply.records.lookup key = s.future key

instance decidableFresh (s : State) (reply : Reply) : Decidable (s.Fresh reply) := by
  unfold Fresh
  split <;> infer_instance

/-- The condition on a step. A clear must not reach, through letters of the other
case, a row whose cached value no timer and no reply will write again. -/
def Coherent (s : State) : Event → Prop
  | .write key _ | .remove key => Plain key
  | .clear start =>
    ∀ key ∈ s.cache.keys, isDurableKey key → matchesLike start key →
      start.isPrefixOf key = false → s.pendingFlushes.lookup key = none → s.WillSettle key
  | .deliver i => ∀ reply ∈ s.replies[i]?, s.Fresh reply
  | .reload _ | .hydrate | .timer _ | .execute => True

instance decidableCoherent (s : State) : DecidablePred s.Coherent
  | .write key _ | .remove key => inferInstanceAs (Decidable (Plain key))
  | .clear start =>
    inferInstanceAs (Decidable (∀ key ∈ s.cache.keys, isDurableKey key → matchesLike start key →
      start.isPrefixOf key = false → s.pendingFlushes.lookup key = none → s.WillSettle key))
  | .deliver i => inferInstanceAs (Decidable (∀ reply ∈ s.replies[i]?, s.Fresh reply))
  | .reload _ | .hydrate | .timer _ | .execute => inferInstanceAs (Decidable True)

end State

/-- At one key, a step keeps both what is held and that it is gone. -/
structure Keeps (s s' : State) (key : List Char) : Prop where
  held : s.Held key → s'.Held key
  gone : s.Gone key → s'.Gone key

/-- A step that leaves one key alone, with the pending answers that settle it. -/
structure Frame (s s' : State) (key : List Char) : Prop where
  cache : s'.cache.lookup key = s.cache.lookup key
  timer : s'.pendingFlushes.lookup key = s.pendingFlushes.lookup key
  future : s'.future key = s.future key
  hydrated : s'.hydrated = s.hydrated
  answers : ∀ pending ∈ s.answers key, Settles key (s.cache.lookup key) pending →
    pending ∈ s'.answers key

open Frame

lemma Frame.willSettle (frame : Frame s s' key) (h : s.WillSettle key) : s'.WillSettle key := by
  rcases h with early | ⟨pending, member, settles⟩
  · exact .inl (frame.hydrated.trans early)
  · refine Or.inr ⟨pending, frame.answers pending member settles, ?_⟩
    rw [frame.cache]
    exact settles

lemma Frame.keeps (frame : Frame s s' key) : Keeps s s' key where
  held h := by
    rcases h with equal | ⟨idle, settles⟩
    · exact .inl (by rw [frame.cache, frame.future, equal])
    · exact .inr ⟨frame.timer.trans idle, frame.willSettle settles⟩
  gone h := ⟨frame.cache.trans h.cache, frame.future.trans h.future⟩

lemma Keeps.of_eq (equal : s'.cache.lookup key = s'.future key)
    (gone : s.Gone key → s'.future key = none) : Keeps s s' key where
  held _ := Or.inl equal
  gone h := ⟨equal.trans (gone h), gone h⟩

lemma Keeps.of_gone (h : s'.Gone key) : Keeps s s' key :=
  .of_eq (h.cache.trans h.future.symm) (fun _ => h.future)

lemma State.future_of_idle (idle : s.pendingFlushes.lookup key = none) :
    s.future key = rowAfter key s.queue (s.database.lookup key) := by
  rw [State.future, idle]
  rfl

variable {value : List Char} {i : Nat} {records : Entries}

lemma State.future_of_timer (timer : s.pendingFlushes.lookup key = some value) :
    s.future key = some value := by
  rw [State.future, timer]
  rfl

variable {k start : List Char} {e : Event}

lemma Keeps.write (other : k ≠ key) : Keeps s (s.writeDurableUiState k value) key := by
  have timer : (s.pendingFlushes.insert k value).lookup key = s.pendingFlushes.lookup key :=
    lookup_insert_ne (Ne.symm other)
  refine keeps ⟨lookup_insert_ne (Ne.symm other), timer, ?_, rfl, fun _ member _ => member⟩
  exact congrArg (Option.or · _) timer

lemma held_of_write (s : State) (key value : List Char) :
    (s.writeDurableUiState key value).Held key := by
  refine Or.inl ?_
  rw [State.future_of_timer (lookup_insert _)]
  exact lookup_insert _

lemma gone_of_remove (s : State) (plain : Plain key) (durable : isDurableKey key = true) :
    (s.removeDurableUiState key).Gone key := by
  refine ⟨lookup_erase _ _, ?_⟩
  rw [State.removeDurableUiState, State.future_issue, lookup_erase]
  exact if_pos ((plain.requiredField_iff durable).mpr rfl)

lemma Keeps.remove (plain : Plain k) (durable : isDurableKey key = true) :
    Keeps s (s.removeDurableUiState k) key := by
  by_cases same : k = key
  · subst same
    exact .of_gone (gone_of_remove s plain durable)
  · have timer : (s.pendingFlushes.erase k).lookup key = s.pendingFlushes.lookup key :=
      lookup_erase_ne (Ne.symm same)
    refine keeps ⟨lookup_erase_ne (Ne.symm same), timer, ?_, rfl, ?_⟩
    · rw [State.removeDurableUiState, State.future_issue]
      have row : rowAfter key [.deleteDurableUiState k] = id :=
        funext (fun _ => if_neg (fun required =>
          same ((plain.requiredField_iff durable).mp required)))
      rw [row]
      exact congrArg (Option.or · _) timer
    · rw [State.removeDurableUiState, State.answers_issue]
      exact fun _ member _ => mem_append_left _ member

lemma clear_cache (s : State) (start : List Char) (durable : isDurableKey key = true) :
    (s.clearDurableUiStateByPrefix start).cache.lookup key =
      if start.isPrefixOf key then none else s.cache.lookup key := by
  have filled : (!key.isEmpty) = true := by
    rw [Bool.not_eq_true', ← Bool.not_eq_true, List.isEmpty_iff]
    exact ne_nil_of_durable durable
  refine (lookup_eraseWhere _ s.cache key).trans ?_
  rw [filled, Bool.true_and]

lemma clear_timer (s : State) (start key : List Char) :
    (s.clearDurableUiStateByPrefix start).pendingFlushes.lookup key =
      if start.isPrefixOf key then none else s.pendingFlushes.lookup key :=
  lookup_eraseWhere _ s.pendingFlushes key

lemma clear_future (s : State) (start key : List Char) :
    (s.clearDurableUiStateByPrefix start).future key =
      (if start.isPrefixOf key then none else s.pendingFlushes.lookup key).or
        (if matchesLike start key then none
          else rowAfter key s.queue (s.database.lookup key)) := by
  rw [← clear_timer]
  exact State.future_issue _ _

lemma gone_of_clear (s : State) (covers : start.isPrefixOf key = true)
    (durable : isDurableKey key = true) : (s.clearDurableUiStateByPrefix start).Gone key where
  cache := (clear_cache s start durable).trans (if_pos covers)
  future := by
    rw [clear_future, if_pos covers, if_pos (matchesLike_of_isPrefixOf covers)]
    rfl

lemma Keeps.clear (durable : isDurableKey key = true) (coherent : s.Coherent (.clear start)) :
    Keeps s (s.clearDurableUiStateByPrefix start) key := by
  have cache := clear_cache s start durable
  have timer := clear_timer s start key
  have future := clear_future s start key
  have answers : s.answers key ⊆ (s.clearDurableUiStateByPrefix start).answers key := by
    rw [State.clearDurableUiStateByPrefix, State.answers_issue]
    exact subset_append_left _ _
  cases covers : start.isPrefixOf key with
  | true => exact .of_gone (gone_of_clear s covers durable)
  | false =>
    rw [covers] at cache timer future
    cases matched : matchesLike start key with
    | false =>
      rw [matched] at future
      exact keeps ⟨cache, timer, future, rfl, fun _ member _ => answers member⟩
    | true =>
      rw [matched] at future
      cases waiting : s.pendingFlushes.lookup key with
      | some value =>
        rw [waiting] at future
        exact keeps ⟨cache, timer, future.trans (State.future_of_timer waiting).symm,
          rfl, fun _ member _ => answers member⟩
      | none =>
        rw [waiting] at future
        cases cached : s.cache.lookup key with
        | none => exact .of_eq ((cache.trans cached).trans future.symm) (fun _ => future)
        | some value =>
          -- the row is deleted under the cache: only a pending call can push it again
          have member : key ∈ s.cache.keys := AList.mem_keys.mp
            (lookup_isSome.mp (by rw [cached]; rfl))
          have settles := coherent key member durable matched covers waiting
          refine ⟨fun _ => Or.inr ⟨timer.trans waiting, ?_⟩, fun h => ?_⟩
          · rcases settles with early | ⟨pending, told, settles⟩
            · exact .inl early
            · refine Or.inr ⟨pending, answers told, ?_⟩
              rw [cache]
              exact settles
          · exact absurd (cached.symm.trans h.cache) nofun

lemma Keeps.reload : Keeps s (s.reloadDurableUiStatePrefix start) key := by
  have cache : (s.reloadDurableUiStatePrefix start).cache.lookup key =
      if start.isPrefixOf key then none else s.cache.lookup key :=
    lookup_eraseWhere _ s.cache key
  have timer : (s.reloadDurableUiStatePrefix start).pendingFlushes.lookup key =
      if start.isPrefixOf key then none else s.pendingFlushes.lookup key :=
    lookup_eraseWhere _ s.pendingFlushes key
  have future : (s.reloadDurableUiStatePrefix start).future key =
      ((s.reloadDurableUiStatePrefix start).pendingFlushes.lookup key).or
        (rowAfter key s.queue (s.database.lookup key)) :=
    State.future_issue _ _
  have answers : (s.reloadDurableUiStatePrefix start).answers key = s.answers key ++
      [(.reload start, (Asker.reload start).answer key
        (rowAfter key s.queue (s.database.lookup key)))] :=
    State.answers_issue _ _
  cases covers : start.isPrefixOf key with
  | false =>
    rw [covers] at cache timer
    refine keeps ⟨cache, timer, ?_, rfl, ?_⟩
    · rw [future, timer]
      rfl
    · rw [answers]
      exact fun _ member _ => mem_append_left _ member
  | true =>
    rw [covers] at cache timer
    have told : (Asker.reload start).answer key (rowAfter key s.queue (s.database.lookup key)) =
        rowAfter key s.queue (s.database.lookup key) :=
      if_pos (matchesLike_of_isPrefixOf covers)
    rw [timer] at future
    rw [told] at answers
    constructor
    · intro _
      cases row : rowAfter key s.queue (s.database.lookup key) with
      | none => exact .inl ((cache.trans row.symm).trans future.symm)
      | some value =>
        rw [row] at answers
        refine Or.inr ⟨timer, .inr ⟨(.reload start, some value), ?_, covers, cache, nofun⟩⟩
        rw [answers]
        exact mem_append_right _ mem_cons_self
    · intro h
      refine ⟨cache, future.trans ?_⟩
      exact (or_eq_none_iff.mp h.future).2

lemma Keeps.hydrate : Keeps s s.hydrateDurableUiState key := by
  have future : s.hydrateDurableUiState.future key = s.future key := State.future_issue _ _
  have answers : s.hydrateDurableUiState.answers key = s.answers key ++
      [(.hydrate, Asker.hydrate.answer key (rowAfter key s.queue (s.database.lookup key)))] :=
    State.answers_issue _ _
  refine ⟨fun h => ?_, fun h => ⟨h.cache, future.trans h.future⟩⟩
  rcases h with equal | ⟨idle, -⟩
  · exact .inl (equal.trans future.symm)
  · by_cases same : s.cache.lookup key = s.future key
    · exact .inl (same.trans future.symm)
    · -- the snapshot will differ from the cache
      refine Or.inr ⟨idle, .inr ⟨(.hydrate, s.future key), ?_, Ne.symm same⟩⟩
      rw [answers, State.future_of_idle idle]
      exact mem_append_right _ mem_cons_self

lemma Keeps.flush (plain : ∀ k ∈ s.pendingFlushes, Plain k) (durable : isDurableKey key = true)
    (expired : s.flush k = some s') : Keeps s s' key := by
  obtain ⟨value, waiting, rfl⟩ := map_eq_some_iff.mp expired
  have alone := (plain k (lookup_isSome.mp (by rw [waiting]; rfl))).requiredField_iff durable
  have row (held : Option (List Char)) : rowAfter key [.setDurableUiState k value] held =
      if requiredField k = some key then some value else held := rfl
  by_cases same : k = key
  · subst same
    have future : ({ s with pendingFlushes := s.pendingFlushes.erase k }.issue
        [.setDurableUiState k value]).future k = s.future k := by
      rw [State.future_issue, lookup_erase, row, if_pos (alone.mpr rfl),
        State.future_of_timer waiting]
      rfl
    refine ⟨fun h => ?_, fun h => ⟨h.cache, future.trans h.future⟩⟩
    rcases h with equal | ⟨idle, -⟩
    · exact .inl (equal.trans future.symm)
    · exact absurd (waiting.symm.trans idle) nofun
  · have timer : (s.pendingFlushes.erase k).lookup key = s.pendingFlushes.lookup key :=
      lookup_erase_ne (Ne.symm same)
    refine keeps ⟨rfl, timer, ?_, rfl, ?_⟩
    · rw [State.future_issue, timer, row, if_neg (fun required => same (alone.mp required))]
      rfl
    · rw [State.answers_issue]
      exact fun _ member _ => mem_append_left _ member

lemma Keeps.execute (executed : s.execute = some s') : Keeps s s' key := by
  rw [State.execute] at executed
  cases first : s.queue with
  | nil =>
    rw [first] at executed
    cases executed
  | cons command rest =>
    rw [first] at executed
    cases executed
    obtain ⟨future, answers⟩ := State.execute_future first key
    exact keeps ⟨rfl, rfl, future, rfl, fun _ member _ => answers.symm ▸ member⟩

lemma State.mem_answers_of_eraseIdx {reply : Reply} (found : s.replies[i]? = some reply)
    {pending : Asker × Option (List Char)} (member : pending ∈ s.answers key)
    (other : pending ≠ (reply.asker, reply.records.lookup key)) :
    pending ∈ { s with replies := s.replies.eraseIdx i }.answers key := by
  rcases mem_append.mp member with replied | queued
  · obtain ⟨r, held, rfl⟩ := mem_map.mp replied
    obtain ⟨j, found'⟩ := mem_iff_getElem?.mp held
    have apart : j ≠ i := by
      rintro rfl
      obtain rfl := Option.some.inj (found.symm.trans found')
      exact other rfl
    have kept : r ∈ s.replies.eraseIdx i := mem_eraseIdx_iff_getElem?.mpr ⟨j, apart, found'⟩
    exact mem_append_left _ (mem_map_of_mem kept)
  · exact mem_append_right _ queued

lemma Keeps.deliver_reload (durable : isDurableKey key = true)
    (found : s.replies[i]? = some ⟨.reload start, records⟩)
    (fresh : s.Fresh ⟨.reload start, records⟩) :
    Keeps s ({ s with replies := s.replies.eraseIdx i }.resume ⟨.reload start, records⟩) key := by
  have cache : (insertWhere start.isPrefixOf s.cache records).lookup key =
      if start.isPrefixOf key then (records.lookup key).or (s.cache.lookup key)
      else s.cache.lookup key :=
    lookup_insertWhere _ s.cache records key
  by_cases settles : start.isPrefixOf key = true ∧ records.lookup key ≠ none
  · obtain ⟨covers, filled⟩ := settles
    have member : key ∈ records.keys := by
      by_contra absent
      exact filled (lookup_eq_none.mpr (fun held => absent (AList.mem_keys.mp held)))
    have told : records.lookup key = s.future key := fresh key member durable covers
    obtain ⟨value, held⟩ := ne_none_iff_exists'.mp filled
    rw [if_pos covers, held] at cache
    refine .of_eq (cache.trans (held.symm.trans told)) (fun h => ?_)
    exact absurd (told.trans h.future) filled
  · have same : (insertWhere start.isPrefixOf s.cache records).lookup key =
        s.cache.lookup key := by
      rw [cache]
      split
      · rename_i covers
        rw [not_not.mp (fun filled => settles ⟨covers, filled⟩)]
        rfl
      · rfl
    refine keeps ⟨same, rfl, rfl, rfl, fun pending member still => ?_⟩
    refine State.mem_answers_of_eraseIdx found member ?_
    rintro rfl
    exact settles ⟨still.1, still.2.2⟩

lemma Keeps.deliver_hydrate (durable : isDurableKey key = true)
    (found : s.replies[i]? = some ⟨.hydrate, records⟩) (fresh : s.Fresh ⟨.hydrate, records⟩) :
    Keeps s ({ s with replies := s.replies.eraseIdx i }.resume ⟨.hydrate, records⟩) key := by
  obtain ⟨pulled, pushed⟩ := fresh
  have cache (k : List Char) (durable : isDurableKey k = true) :
      (State.pull records s.cache).lookup k = (s.cache.lookup k).or (records.lookup k) :=
    (lookup_insertMissing isDurableKey s.cache records k).trans (if_pos durable)
  have plain : ∀ k ∈ (State.pull records s.cache).keys, isDurableKey k →
      records.lookup k ≠ (State.pull records s.cache).lookup k → trim k = k := by
    intro k _ durable differ
    rw [cache k durable] at differ
    cases cached : s.cache.lookup k with
    | none =>
      rw [cached] at differ
      exact absurd rfl differ
    | some value =>
      rw [cached] at differ
      have member : k ∈ s.cache.keys := AList.mem_keys.mp (lookup_isSome.mp (by rw [cached]; rfl))
      exact pushed k member durable (cached ▸ differ)
  have future : ({ s with replies := s.replies.eraseIdx i }.resume
      ⟨.hydrate, records⟩).future key = (s.pendingFlushes.lookup key).or
        ((((s.cache.lookup key).or (records.lookup key)).filter
          (fun value => records.lookup key != some value)).or
            (rowAfter key s.queue (s.database.lookup key))) := by
    rw [State.resume, State.future_issue, rowAfter_push durable plain, cache key durable]
  have answers : ∀ pending ∈ s.answers key, pending ≠ (.hydrate, records.lookup key) →
      pending ∈ ({ s with replies := s.replies.eraseIdx i }.resume
        ⟨.hydrate, records⟩).answers key := by
    intro pending member other
    rw [State.resume, State.answers_issue]
    exact mem_append_left _ (State.mem_answers_of_eraseIdx found member other)
  have cache' := cache key durable
  cases cached : s.cache.lookup key with
  | some value =>
    rw [cached, some_or] at cache' future
    refine ⟨fun h => ?_, fun h => absurd (cached.symm.trans h.cache) nofun⟩
    cases waiting : s.pendingFlushes.lookup key with
    | some later =>
      -- the timer was set with the cached value, whatever is pushed before it expires
      rw [waiting] at future
      rcases h with equal | ⟨idle, -⟩
      · rw [cached, State.future_of_timer waiting] at equal
        exact .inl (cache'.trans (equal.trans future.symm))
      · exact absurd (waiting.symm.trans idle) nofun
    | none =>
      rw [waiting, none_or] at future
      by_cases same : records.lookup key = some value
      · rw [filter_some_neg (p := fun value => records.lookup key != some value)
          (bne_eq_false_iff_eq.mpr same), none_or] at future
        rcases h with equal | ⟨-, early | ⟨pending, member, settles⟩⟩
        · rw [cached, State.future_of_idle waiting] at equal
          exact .inl (cache'.trans (equal.trans future.symm))
        · exact .inr ⟨waiting, .inl early⟩
        · refine Or.inr ⟨waiting, .inr ⟨pending, answers pending member ?_, ?_⟩⟩
          · rintro rfl
            exact settles (same.trans cached.symm)
          · rw [State.resume]
            change Settles key ((State.pull records s.cache).lookup key) pending
            rw [cache', ← cached]
            exact settles
      · rw [filter_some_pos (p := fun value => records.lookup key != some value)
          (bne_iff_ne.mpr same)] at future
        exact .inl (cache'.trans future.symm)
  | none =>
    rw [cached, none_or] at cache' future
    rw [filter_eq_none_iff.mpr (fun value told => by simpa using told), none_or]
      at future
    by_cases told : records.lookup key = none
    · refine keeps ⟨cache'.trans (told.trans cached.symm), rfl, future, rfl, ?_⟩
      intro pending member settles
      refine answers pending member ?_
      rintro rfl
      exact settles (told.trans cached.symm)
    · have member : key ∈ records.keys := by
        by_contra absent
        exact told (lookup_eq_none.mpr (fun held => absent (AList.mem_keys.mp held)))
      have overtaken : records.lookup key = s.future key := pulled key member durable cached
      refine .of_eq (cache'.trans (overtaken.trans future.symm)) (fun h => ?_)
      exact absurd (overtaken.trans h.future) told

lemma Keeps.step (taken : UiState.step s e = some s') (coherent : s.Coherent e)
    (plain : ∀ k ∈ s.pendingFlushes, Plain k) (durable : isDurableKey key = true)
    (other : ∀ value, e ≠ .write key value) : Keeps s s' key := by
  cases e with
  | write k value =>
    cases taken
    exact .write (fun same => other value (same ▸ rfl))
  | remove k =>
    cases taken
    exact .remove coherent durable
  | clear start =>
    cases taken
    exact .clear durable coherent
  | reload start =>
    cases taken
    exact .reload
  | hydrate =>
    rw [UiState.step, ite_none_left_eq_some] at taken
    obtain rfl := Option.some.inj taken.2
    exact .hydrate
  | timer k => exact .flush plain durable taken
  | execute => exact .execute taken
  | deliver i =>
    obtain ⟨⟨asker, records⟩, found, rfl⟩ := map_eq_some_iff.mp taken
    have fresh := coherent _ found
    cases asker with
    | hydrate => exact .deliver_hydrate durable found fresh
    | reload start => exact .deliver_reload durable found fresh

lemma plain_timers_step (taken : step s e = some s') (coherent : s.Coherent e)
    (plain : ∀ k ∈ s.pendingFlushes, Plain k) : ∀ k ∈ s'.pendingFlushes, Plain k := by
  intro k member
  cases e with
  | write key value =>
    cases taken
    rcases (mem_insert _).mp member with rfl | before
    · exact coherent
    · exact plain k before
  | remove key =>
    cases taken
    exact plain k (mem_erase.mp member).2
  | clear start =>
    cases taken
    exact plain k (mem_of_mem_eraseWhere _ _ member)
  | reload start =>
    cases taken
    exact plain k (mem_of_mem_eraseWhere _ _ member)
  | hydrate =>
    rw [step, ite_none_left_eq_some] at taken
    obtain rfl := Option.some.inj taken.2
    exact plain k member
  | timer key =>
    obtain ⟨value, -, rfl⟩ := map_eq_some_iff.mp taken
    exact plain k (mem_erase.mp member).2
  | execute =>
    rw [step, State.execute] at taken
    split at taken
    · cases taken
    · cases taken
      exact plain k member
  | deliver i =>
    obtain ⟨⟨asker, records⟩, -, rfl⟩ := map_eq_some_iff.mp taken
    cases asker with
    | hydrate => exact plain k member
    | reload start => exact plain k member

/-- Timers are on plain keys, and every durable key is held. -/
structure State.Settled (s : State) : Prop where
  timers : ∀ k ∈ s.pendingFlushes, Plain k
  held : ∀ k, isDurableKey k = true → s.Held k

lemma settled_start (cache database : Entries) : (State.start cache database).Settled where
  timers k member := absurd member (notMem_empty k)
  held _ _ := Or.inr ⟨lookup_empty _, .inl rfl⟩

lemma State.Settled.step (settled : s.Settled) (taken : UiState.step s e = some s')
    (coherent : s.Coherent e) : s'.Settled where
  timers := plain_timers_step taken coherent settled.timers
  held k durable := by
    by_cases own : ∃ value, e = .write k value
    · obtain ⟨value, rfl⟩ := own
      cases taken
      exact held_of_write s k value
    · have other : ∀ value, e ≠ .write k value := fun value same => own ⟨value, same⟩
      exact (Keeps.step taken coherent settled.timers durable other).held (settled.held k durable)

lemma State.Settled.run {events : List Event} (settled : s.Settled)
    (ran : run UiState.step s events = some s')
    (along : Along UiState.step State.Coherent s events) : s'.Settled :=
  along_invariant (fun _ _ _ taken coherent settled => settled.step taken coherent)
    along ran settled

lemma State.Gone.run {events : List Event} (gone : s.Gone key) (settled : s.Settled)
    (durable : isDurableKey key = true) (ran : run UiState.step s events = some s')
    (along : Along UiState.step State.Coherent s events)
    (unwritten : ∀ e ∈ events, ¬ e.Writes key) : s'.Gone key := by
  induction events generalizing s with
  | nil =>
    cases ran
    exact gone
  | cons e rest ih =>
    obtain ⟨s₁, taken, ran⟩ := run_cons_eq_some.mp ran
    obtain ⟨first, later⟩ := forall_mem_cons.mp unwritten
    have other : ∀ value, e ≠ .write key value := by
      rintro value rfl
      exact first rfl
    have kept := Keeps.step taken along.1 settled.timers durable other
    exact ih (kept.gone gone) (settled.step taken along.1) ran (along.2 s₁ taken) later

lemma gone_of_removes (removes : e.Removes key) (taken : step s e = some s')
    (coherent : s.Coherent e) (durable : isDurableKey key = true) : s'.Gone key := by
  cases e with
  | remove k =>
    cases taken
    obtain rfl : k = key := removes
    exact gone_of_remove s coherent durable
  | clear start =>
    cases taken
    exact gone_of_clear s removes durable
  | write | reload | hydrate | timer | execute | deliver => exact absurd removes id

lemma State.Quiet.future (quiet : s.Quiet) (key : List Char) :
    s.future key = s.database.lookup key := by
  rw [State.future, quiet.timers, quiet.commands]
  rfl

lemma State.Quiet.not_willSettle (quiet : s.Quiet) : ¬ s.WillSettle key := by
  rintro (early | ⟨pending, member, -⟩)
  · exact absurd (quiet.hydrated.symm.trans early) nofun
  · rw [State.answers, quiet.answers, quiet.commands] at member
    exact absurd member not_mem_nil

/-- In a run whose steps all meet the condition, the tiers agree on every durable key
once nothing is pending, and what the user removed last is in neither. -/
theorem tiers_converge {cache database : Entries} {events : List Event} {s : State}
    (ran : Runs.run step (State.start cache database) events = some s)
    (along : Runs.Along step State.Coherent (State.start cache database) events)
    (quiet : s.Quiet) :
    (∀ key, isDurableKey key → s.cache.lookup key = s.database.lookup key) ∧
      ∀ before e later key, events = before ++ e :: later → isDurableKey key → e.Removes key →
        (∀ e' ∈ later, ¬ e'.Writes key) →
        s.cache.lookup key = none ∧ s.database.lookup key = none := by
  have settled := settled_start cache database
  constructor
  · intro key durable
    rw [← quiet.future key]
    rcases (settled.run ran along).held key durable with equal | ⟨-, settles⟩
    · exact equal
    · exact absurd settles quiet.not_willSettle
  · rintro before e later key rfl durable removes unwritten
    obtain ⟨s₁, ran₁, ran₂⟩ := run_append_eq_some.mp ran
    obtain ⟨s₂, taken, ran₂⟩ := run_cons_eq_some.mp ran₂
    obtain ⟨along₁, along₂⟩ := along_append.mp along
    have settled₁ := settled.run ran₁ along₁
    obtain ⟨coherent, along₂⟩ := along₂ s₁ ran₁
    have gone := (gone_of_removes removes taken coherent durable).run
      (settled₁.step taken coherent) durable ran₂ (along₂ s₂ taken) unwritten
    exact ⟨gone.cache, (quiet.future key).symm.trans gone.future⟩

def notesKey : List Char := "kkterm.dashboard.notes.a.v1".toList

def notesStart : List Char := "kkterm.dashboard.notes.".toList

/-- The startup restores a note, which is edited, reloaded and then removed. -/
theorem tiers_converge_in_use :
    ∃ s ∈ Runs.run step (State.start ∅ (AList.singleton notesKey "1".toList))
      ([.hydrate, .execute, .deliver 0, .write notesKey "2".toList, .timer notesKey, .execute,
        .reload notesStart, .execute, .deliver 0, .write notesKey "3".toList] ++
          .remove notesKey :: [.execute]),
      (∀ key, isDurableKey key → s.cache.lookup key = s.database.lookup key) ∧
        s.cache.lookup notesKey = none ∧ s.database.lookup notesKey = none := by
  have reached : ∃ s ∈ run step (State.start ∅ (singleton notesKey "1".toList))
      ([.hydrate, .execute, .deliver 0, .write notesKey "2".toList, .timer notesKey, .execute,
        .reload notesStart, .execute, .deliver 0, .write notesKey "3".toList] ++
          .remove notesKey :: [.execute]), s.Quiet := by
    decide +kernel
  obtain ⟨s, ran, quiet⟩ := reached
  obtain ⟨agree, removed⟩ := tiers_converge ran (by decide +kernel) quiet
  exact ⟨s, ran, agree, removed _ _ _ notesKey rfl (by decide +kernel) rfl (by decide +kernel)⟩

/-- A reload that the user overtakes: the cache keeps the note as it was, once edited
and once removed. -/
theorem stale_reply_wins : isDurableKey notesKey = true ∧
    (∃ s ∈ Runs.run step (State.start ∅ (AList.singleton notesKey "1".toList))
      [.hydrate, .execute, .deliver 0, .reload notesStart, .execute,
        .write notesKey "2".toList, .deliver 0, .timer notesKey, .execute],
      s.Quiet ∧ s.cache.lookup notesKey = some "1".toList ∧
        s.database.lookup notesKey = some "2".toList) ∧
    ∃ s ∈ Runs.run step (State.start ∅ (AList.singleton notesKey "1".toList))
      [.hydrate, .execute, .deliver 0, .reload notesStart, .execute,
        .remove notesKey, .deliver 0, .execute],
      s.Quiet ∧ s.cache.lookup notesKey = some "1".toList ∧
        s.database.lookup notesKey = none := by
  decide +kernel

end UiState
