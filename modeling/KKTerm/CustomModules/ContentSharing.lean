import KKTerm.CustomModules.ContentStore
import KKTerm.Library.Runs
import Mathlib.Algebra.Order.BigOperators.Group.List

/-!
# Content that is shared between keys

A file is there as long as a row names it or a call is about to make one name it. Calls
that overlap can break this in two ways, which are named here; other runs keep it.
-/

namespace CustomModules.Content

open Fallible List AList Function

section Sharing
variable {Hash : Type} [DecidableEq Hash] (sha256 : Bytes → Hash)

def Kind.quotaBytes : Kind → Nat
  | .document => documentLimits.quotaBytes
  | .blob => blobLimits.quotaBytes

def Kind.maxKeys : Kind → Nat
  | .document => documentLimits.maxKeys
  | .blob => blobLimits.maxKeys

def totalBytes (rows : List (Row Hash)) (owner : Owner) : Nat :=
  ((rows.filter (fun r => r.place.owner = owner)).map (·.byteSize)).sum

/-- The property that is claimed of every state. -/
structure Sound (s : State Hash) : Prop where
  quota : ∀ owner, totalBytes s.disk.rows owner ≤ owner.kind.quotaBytes
  /-- Each row names a file with what was stored last. -/
  rows : s.calls.entries = [] → ∀ r ∈ s.disk.rows, ∃ bytes,
    s.disk.files r.path = some bytes ∧ s.stored r.place = some bytes ∧ r.byteSize = bytes.length
  files : s.calls.entries = [] → ∀ path bytes, s.disk.files path = some bytes →
    ∃ r ∈ s.disk.rows, r.path = path

/-- A call that names the content of a file in its next step. -/
def Stage.AboutToName (path : ContentPath Hash) : Stage Hash → Prop
  | .upsert w _ => w.path sha256 = path
  | _ => False

/-- What a step may do to content that another call counts on: a row is replaced or deleted
only when the call has read the hash that it names; a file is removed only when no row
names it and no call is about to. -/
def Stage.Undisturbed (s : State Hash) : Stage Hash → Prop
  | .upsert w previous => w.fits s.disk.rows = .ok () →
    ∀ r ∈ s.disk.rows, r.place = w.place →
      r.contentSha256 = sha256 w.bytes ∨ previous = some r.contentSha256
  | .deleteSelected place previous => ∀ r ∈ s.disk.rows, r.place = place →
    previous = some r.contentSha256
  | .removeFile path _ => (∀ r ∈ s.disk.rows, r.path ≠ path) ∧
    ∀ e ∈ s.calls.entries, ¬ e.2.AboutToName sha256 path
  | _ => True

def Undisturbed (s : State Hash) : Action → Prop
  | .start .. => True
  | .advance id => ∀ stage ∈ s.calls.lookup id, stage.Undisturbed sha256 s

instance decidableAboutToName (path : ContentPath Hash) :
    (stage : Stage Hash) → Decidable (stage.AboutToName sha256 path)
  | .upsert w _ => inferInstanceAs (Decidable (w.path sha256 = path))
  | .checkQuota _ | .readPrevious _ | .lookForContent .. | .compareContent ..
  | .renameIntoPlace .. | .selectDeleted _ | .deleteSelected .. | .deleteInTransaction _
  | .countReferences .. | .removeFile .. => .isFalse id

instance decidableFits (rows : List (Row Hash)) (w : Write) : Decidable (w.fits rows = .ok ()) :=
  match w.fits rows with
  | .ok _ => .isTrue rfl
  | .error _ => .isFalse (fun h => nomatch h)

instance decidableStageUndisturbed (s : State Hash) :
    (stage : Stage Hash) → Decidable (stage.Undisturbed sha256 s)
  | .upsert w previous => inferInstanceAs (Decidable (w.fits s.disk.rows = .ok () →
      ∀ r ∈ s.disk.rows, r.place = w.place →
        r.contentSha256 = sha256 w.bytes ∨ previous = some r.contentSha256))
  | .deleteSelected place previous => inferInstanceAs (Decidable (∀ r ∈ s.disk.rows,
      r.place = place → previous = some r.contentSha256))
  | .removeFile path _ => inferInstanceAs (Decidable ((∀ r ∈ s.disk.rows, r.path ≠ path) ∧
      ∀ e ∈ s.calls.entries, ¬ e.2.AboutToName sha256 path))
  | .checkQuota _ | .readPrevious _ | .lookForContent .. | .compareContent ..
  | .renameIntoPlace .. | .selectDeleted _ | .deleteInTransaction _ | .countReferences .. =>
    .isTrue trivial

instance decidableUndisturbed (s : State Hash) : DecidablePred (Undisturbed sha256 s)
  | .start .. => .isTrue trivial
  | .advance id => inferInstanceAs (Decidable (∀ stage ∈ s.calls.lookup id,
      stage.Undisturbed sha256 s))

/-- A call that will name the content of a file, or see to it that an unused one goes. -/
def Stage.Owes (path : ContentPath Hash) : Stage Hash → Prop
  | .upsert w _ => w.path sha256 = path
  | .countReferences path' _ => path' = path
  | .removeFile path' _ => path' = path
  | _ => False

def Next.Owes (path : ContentPath Hash) : Next Hash → Prop
  | .goesOn stage => stage.Owes sha256 path
  | .finished _ => False

/-- The invariant. -/
structure Kept (rows : List (Row Hash)) (files : ContentPath Hash → Option Bytes)
    (calls : AList (fun _ : Nat => Stage Hash)) (stored : Place → Option Bytes) : Prop where
  quota : ∀ owner, totalBytes rows owner ≤ owner.kind.quotaBytes
  unique : (rows.map (·.place)).Nodup
  contents : ∀ path bytes, files path = some bytes → sha256 bytes = path.sha256
  named : ∀ r ∈ rows, ∃ bytes,
    files r.path = some bytes ∧ stored r.place = some bytes ∧ r.byteSize = bytes.length
  writing : ∀ id w previous, calls.lookup id = some (.upsert w previous) →
    files (w.path sha256) = some w.bytes
  owned : ∀ path bytes, files path = some bytes →
    (∃ r ∈ rows, r.path = path) ∨
      ∃ id stage, calls.lookup id = some stage ∧ stage.Owes sha256 path

def Inv (s : State Hash) : Prop :=
  Kept sha256 s.disk.rows s.disk.files s.calls s.stored

section Rows
variable {sha256} {rows : List (Row Hash)} {place : Place} {owner : Owner}

variable {r : Row Hash} {w : Write}

omit [DecidableEq Hash]

lemma mem_without : r ∈ without rows place ↔ r ∈ rows ∧ r.place ≠ place := by
  rw [without, mem_filter, decide_eq_true_iff]

lemma totalBytes_cons (r : Row Hash) :
    totalBytes (r :: rows) owner =
      (if r.place.owner = owner then r.byteSize else 0) + totalBytes rows owner := by
  by_cases same : r.place.owner = owner
  · simp [totalBytes, same]
  · simp [totalBytes, same]

lemma totalBytes_without_le : totalBytes (without rows place) owner ≤ totalBytes rows owner := by
  have fewer : (without rows place).Sublist rows := filter_sublist
  exact ((fewer.filter _).map _).sum_le_sum (fun _ _ => Nat.zero_le _)

lemma filter_without_self :
    (without rows place).filter (fun r => r.place.owner = place.owner) =
      rows.filter (fun r => r.place.owner = place.owner ∧ r.place.key ≠ place.key) := by
  rw [without, filter_filter]
  refine filter_congr (fun r _ => ?_)
  rw [← Bool.decide_and, decide_eq_decide]
  refine and_congr_right (fun same => not_congr ?_)
  exact ⟨congrArg Place.key, Place.ext same⟩

lemma ensureQuota_eq_ok {limits : Limits} {byteSize : Nat}
    (h : ensureQuota limits rows place byteSize = .ok ()) :
    ((without rows place).filter (fun r => r.place.owner = place.owner)).length < limits.maxKeys ∧
      totalBytes (without rows place) place.owner + byteSize ≤ limits.quotaBytes := by
  obtain ⟨fewer, room⟩ := reject_bind_ok.mp h
  rw [totalBytes, filter_without_self]
  exact ⟨Nat.lt_of_not_le fewer, Nat.le_of_not_lt (reject_eq_ok.mp room)⟩

lemma fits_eq_ok (h : w.fits rows = .ok ()) :
    ((without rows w.place).filter (fun r => r.place.owner = w.place.owner)).length <
        w.place.owner.kind.maxKeys ∧
      totalBytes (without rows w.place) w.place.owner + w.bytes.length ≤
        w.place.owner.kind.quotaBytes := by
  unfold Write.fits at h
  unfold Kind.maxKeys Kind.quotaBytes
  cases kind : w.place.owner.kind with
  | document =>
    rw [kind] at h
    exact ensureQuota_eq_ok h
  | blob =>
    rw [kind] at h
    exact ensureQuota_eq_ok h

lemma quota_upsert (h : w.fits rows = .ok ())
    (before : ∀ owner, totalBytes rows owner ≤ owner.kind.quotaBytes) (owner : Owner) :
    totalBytes (w.row sha256 :: without rows w.place) owner ≤ owner.kind.quotaBytes := by
  have room := (fits_eq_ok h).2
  have fewer : totalBytes (without rows w.place) owner ≤ totalBytes rows owner :=
    totalBytes_without_le
  have old := before owner
  rw [totalBytes_cons]
  split
  · rename_i same
    subst same
    simp only [Write.row] at *
    omega
  · omega

lemma quota_without (before : ∀ owner, totalBytes rows owner ≤ owner.kind.quotaBytes)
    (owner : Owner) : totalBytes (without rows place) owner ≤ owner.kind.quotaBytes :=
  le_trans totalBytes_without_le (before owner)

lemma nodup_without (h : (rows.map (·.place)).Nodup) :
    ((without rows place).map (·.place)).Nodup :=
  h.sublist (List.Sublist.map _ filter_sublist)

lemma nodup_upsert (h : (rows.map (·.place)).Nodup) :
    ((r :: without rows r.place).map (·.place)).Nodup := by
  rw [map_cons, nodup_cons]
  refine ⟨?_, nodup_without h⟩
  intro member
  obtain ⟨other, inside, same⟩ := mem_map.mp member
  exact (mem_without.mp inside).2 same

lemma previousAt_of_mem (unique : (rows.map (·.place)).Nodup) (member : r ∈ rows)
    (there : r.place = place) : previousAt rows place = some r.contentSha256 := by
  cases found : rows.find? (fun r => r.place = place) with
  | none =>
    have none_there := find?_eq_none.mp found r member
    simp [there] at none_there
  | some r' =>
    have place' := find?_some found
    rw [decide_eq_true_iff] at place'
    have same := inj_on_of_nodup_map unique (mem_of_find?_eq_some found) member
      (place'.trans there.symm)
    rw [previousAt, found, same]
    rfl

end Rows

section Calls
variable {sha256} {calls : AList (fun _ : Nat => Stage Hash)} {id : Nat} {next : Next Hash}

omit [DecidableEq Hash]

lemma lookup_setCall_ne {id' : Nat} (differ : id' ≠ id) :
    (setCall calls id next).lookup id' = calls.lookup id' := by
  cases next with
  | goesOn stage => exact lookup_insert_ne differ
  | finished result => exact lookup_erase_ne differ

lemma lookup_setCall_eq_some {id' : Nat} {stage : Stage Hash}
    (found : (setCall calls id next).lookup id' = some stage) :
    id' = id ∧ next = .goesOn stage ∨ id' ≠ id ∧ calls.lookup id' = some stage := by
  by_cases same : id' = id
  · subst same
    left
    cases next with
    | goesOn stage' =>
      rw [setCall, lookup_insert] at found
      cases found
      exact ⟨rfl, rfl⟩
    | finished result =>
      rw [setCall, lookup_erase] at found
      cases found
  · right
    rw [lookup_setCall_ne same] at found
    exact ⟨same, found⟩

lemma Next.Owes.lookup {path : ContentPath Hash} (owes : next.Owes sha256 path) :
    ∃ stage, (setCall calls id next).lookup id = some stage ∧ stage.Owes sha256 path := by
  cases next with
  | goesOn stage => exact ⟨stage, lookup_insert _, owes⟩
  | finished result => exact owes.elim

end Calls

section Steps
variable {sha256} {rows : List (Row Hash)} {files : ContentPath Hash → Option Bytes}
variable {calls : AList (fun _ : Nat => Stage Hash)} {stored : Place → Option Bytes}
variable {id : Nat} {stage : Stage Hash} {next : Next Hash}

variable {path : ContentPath Hash} {w : Write} {owner : Owner} {call : Call}

omit [DecidableEq Hash] in
lemma owned_other (here : calls.lookup id = some stage) (done : ¬ stage.Owes sha256 path)
    (owed : ∃ id stage, calls.lookup id = some stage ∧ stage.Owes sha256 path) :
    ∃ id' stage, (setCall calls id next).lookup id' = some stage ∧ stage.Owes sha256 path := by
  obtain ⟨id', stage', found, owes⟩ := owed
  by_cases same : id' = id
  · subst same
    rw [here] at found
    cases found
    exact absurd owes done
  · exact ⟨id', stage', (lookup_setCall_ne same).trans found, owes⟩

omit [DecidableEq Hash] in
lemma Kept.move (h : Kept sha256 rows files calls stored) (here : calls.lookup id = some stage)
    (writes : ∀ w previous, next = .goesOn (.upsert w previous) →
      files (w.path sha256) = some w.bytes)
    (owes : ∀ path bytes, files path = some bytes → stage.Owes sha256 path →
      (∃ r ∈ rows, r.path = path) ∨ next.Owes sha256 path) :
    Kept sha256 rows files (setCall calls id next) stored := by
  refine ⟨h.quota, h.unique, h.contents, h.named, ?_, ?_⟩
  · intro id' w previous found
    rcases lookup_setCall_eq_some found with ⟨-, goes⟩ | ⟨-, found⟩
    · exact writes w previous goes
    · exact h.writing id' w previous found
  · intro path bytes file
    by_cases self : stage.Owes sha256 path
    · exact (owes path bytes file self).imp_right (fun owes => ⟨id, owes.lookup⟩)
    · exact (h.owned path bytes file).imp_right (owned_other here self)

variable {previous : Option Hash} {result : Except Message (Answer Hash)}

lemma Kept.renameIntoPlace (h : Kept sha256 rows files calls stored) (injective : Injective sha256)
    (here : calls.lookup id = some (.renameIntoPlace w previous)) :
    Kept sha256 rows (update files (w.path sha256) (some w.bytes))
      (setCall calls id (.goesOn (.upsert w previous))) stored := by
  have kept : ∀ path bytes, sha256 bytes = path.sha256 → files path = some bytes →
      update files (w.path sha256) (some w.bytes) path = some bytes := by
    intro path bytes hash file
    by_cases same : path = w.path sha256
    · subst same
      rw [update_self, injective hash]
    · rw [update_of_ne same, file]
  refine ⟨h.quota, h.unique, ?_, ?_, ?_, ?_⟩
  · intro path bytes file
    by_cases same : path = w.path sha256
    · subst same
      rw [update_self] at file
      cases file
      rfl
    · rw [update_of_ne same] at file
      exact h.contents path bytes file
  · intro r member
    obtain ⟨bytes, file, rest⟩ := h.named r member
    exact ⟨bytes, kept _ _ (h.contents _ _ file) file, rest⟩
  · intro id' w' previous' found
    rcases lookup_setCall_eq_some found with ⟨-, goes⟩ | ⟨-, found⟩
    · cases goes
      exact update_self _ _ _
    · exact kept _ _ rfl (h.writing id' w' previous' found)
  · intro path bytes file
    by_cases same : path = w.path sha256
    · exact .inr ⟨id, _, lookup_insert _, same.symm⟩
    · rw [update_of_ne same] at file
      exact (h.owned path bytes file).imp_right (owned_other here not_false)

/-- A file goes that no row names and no call is about to name. -/
lemma Kept.removeFile (h : Kept sha256 rows files calls stored)
    (here : calls.lookup id = some (.removeFile path result)) (unnamed : ∀ r ∈ rows, r.path ≠ path)
    (unawaited : ∀ e ∈ calls.entries, ¬ e.2.AboutToName sha256 path) :
    Kept sha256 rows (update files path none) (setCall calls id (.finished result))
      stored := by
  have left : ∀ {path' bytes}, update files path none path' = some bytes →
      path' ≠ path ∧ files path' = some bytes := by
    intro path' bytes file
    by_cases same : path' = path
    · rw [same, update_self] at file
      cases file
    · rw [update_of_ne same] at file
      exact ⟨same, file⟩
  refine ⟨h.quota, h.unique, ?_, ?_, ?_, ?_⟩
  · exact fun path' bytes file => h.contents path' bytes (left file).2
  · intro r member
    obtain ⟨bytes, file, rest⟩ := h.named r member
    exact ⟨bytes, (update_of_ne (unnamed r member) _ _).trans file, rest⟩
  · intro id' w previous found
    rcases lookup_setCall_eq_some found with ⟨-, ⟨⟩⟩ | ⟨-, found⟩
    have other : w.path sha256 ≠ path := unawaited _ (mem_lookup_iff.mp found)
    exact (update_of_ne other _ _).trans (h.writing id' w previous found)
  · intro path' bytes file
    obtain ⟨other, file⟩ := left file
    exact (h.owned path' bytes file).imp_right (owned_other here (fun owed => other owed.symm))

omit [DecidableEq Hash] in
lemma cleanUp_owes {old : Hash} (known : previous = some old) :
    (cleanUp owner previous result).Owes sha256 { owner, sha256 := old } := by
  subst known
  rfl

omit [DecidableEq Hash] in
lemma cleanUp_ne_upsert {previous' : Option Hash} :
    cleanUp owner previous result ≠ .goesOn (.upsert w previous') := by
  cases previous with
  | none => exact fun h => nomatch h
  | some old => exact fun h => nomatch h

/-- A row is written; the content of the row that it replaces is looked after. -/
lemma Kept.upsert (h : Kept sha256 rows files calls stored)
    (here : calls.lookup id = some (.upsert w previous)) (fits : w.fits rows = .ok ())
    (read : ∀ r ∈ rows, r.place = w.place →
      r.contentSha256 = sha256 w.bytes ∨ previous = some r.contentSha256) :
    Kept sha256 (w.row sha256 :: without rows w.place) files
      (setCall calls id (cleanUp w.place.owner
        (previous.filter (fun old => old ≠ sha256 w.bytes)) result))
      (update stored w.place (some w.bytes)) := by
  have file := h.writing id w previous here
  refine ⟨quota_upsert fits h.quota, nodup_upsert h.unique, h.contents, ?_, ?_, ?_⟩
  · intro r member
    rcases mem_cons.mp member with rfl | member
    · exact ⟨w.bytes, file, update_self _ _ _, rfl⟩
    · obtain ⟨member, other⟩ := mem_without.mp member
      obtain ⟨bytes, file, kept, size⟩ := h.named r member
      exact ⟨bytes, file, (update_of_ne other _ _).trans kept, size⟩
  · intro id' w' previous' found
    rcases lookup_setCall_eq_some found with ⟨-, goes⟩ | ⟨-, found⟩
    · exact absurd goes cleanUp_ne_upsert
    · exact h.writing id' w' previous' found
  · intro path bytes file
    by_cases own : w.path sha256 = path
    · exact .inl ⟨_, mem_cons_self, own⟩
    · rcases h.owned path bytes file with ⟨r, member, rfl⟩ | owed
      · by_cases replaced : r.place = w.place
        · have differ : r.contentSha256 ≠ sha256 w.bytes := by
            intro same
            apply own
            rw [Row.path, replaced, same]
            rfl
          have kept : previous.filter (fun old => old ≠ sha256 w.bytes) =
              some r.contentSha256 := by
            rw [(read r member replaced).resolve_left differ, Option.filter_some]
            simp [differ]
          right
          refine ⟨id, Next.Owes.lookup ?_⟩
          rw [Row.path, replaced]
          exact cleanUp_owes kept
        · exact .inl ⟨r, mem_cons_of_mem _ (mem_without.mpr ⟨member, replaced⟩), rfl⟩
      · exact .inr (owned_other here own owed)

omit [DecidableEq Hash] in
lemma Kept.delete (h : Kept sha256 rows files calls stored) {place : Place}
    (here : calls.lookup id = some stage) (owes : ∀ path, ¬ stage.Owes sha256 path)
    (read : ∀ r ∈ rows, r.place = place → previous = some r.contentSha256) :
    Kept sha256 (without rows place) files (setCall calls id (cleanUp place.owner previous result))
      (update stored place none) := by
  refine ⟨quota_without h.quota, nodup_without h.unique, h.contents, ?_, ?_, ?_⟩
  · intro r member
    obtain ⟨member, other⟩ := mem_without.mp member
    obtain ⟨bytes, file, kept, size⟩ := h.named r member
    exact ⟨bytes, file, (update_of_ne other _ _).trans kept, size⟩
  · intro id' w' previous' found
    rcases lookup_setCall_eq_some found with ⟨-, goes⟩ | ⟨-, found⟩
    · exact absurd goes cleanUp_ne_upsert
    · exact h.writing id' w' previous' found
  · intro path bytes file
    rcases h.owned path bytes file with ⟨r, member, rfl⟩ | owed
    · by_cases deleted : r.place = place
      · right
        refine ⟨id, Next.Owes.lookup ?_⟩
        rw [Row.path, deleted]
        exact cleanUp_owes (read r member deleted)
      · exact .inl ⟨r, mem_without.mpr ⟨member, deleted⟩, rfl⟩
    · exact .inr (owned_other here (owes path) owed)

variable {s s' : State Hash}

lemma act_advance (here : s.calls.lookup id = some stage) :
    act sha256 s (.advance id) = some {
      disk := (stage.step sha256 s.disk).1
      calls := setCall s.calls id (stage.step sha256 s.disk).2
      stored := stage.remember s.disk s.stored } := by
  rw [act, here]
  rfl

/-- A step of a call that changes neither the database nor the files. -/
lemma Inv.moves (h : Inv sha256 s) (here : s.calls.lookup id = some stage)
    (step : stage.step sha256 s.disk = (s.disk, next))
    (forgets : stage.remember s.disk s.stored = s.stored)
    (writes : ∀ w previous, next = .goesOn (.upsert w previous) →
      s.disk.files (w.path sha256) = some w.bytes)
    (owes : ∀ path, stage.Owes sha256 path →
      (∃ r ∈ s.disk.rows, r.path = path) ∨ next.Owes sha256 path)
    (taken : act sha256 s (.advance id) = some s') : Inv sha256 s' := by
  rw [act_advance here, step, forgets] at taken
  cases taken
  exact Kept.move h here writes (fun path _ _ => owes path)

/-- Each step of a call that is not disturbed keeps the invariant. -/
lemma Inv.advance (injective : Injective sha256) (h : Inv sha256 s)
    (here : s.calls.lookup id = some stage) (undisturbed : stage.Undisturbed sha256 s)
    (taken : act sha256 s (.advance id) = some s') : Inv sha256 s' := by
  cases stage with
  | checkQuota w =>
    refine h.moves here rfl rfl ?_ (fun _ owes => owes.elim) taken
    intro w' previous goes
    split at goes <;> cases goes
  | readPrevious w =>
    exact h.moves here rfl rfl (fun _ _ goes => nomatch goes) (fun _ owes => owes.elim) taken
  | lookForContent w previous =>
    refine h.moves here rfl rfl ?_ (fun _ owes => owes.elim) taken
    intro w' previous' goes
    split at goes
    · rename_i present
      obtain ⟨bytes, file⟩ := Option.isSome_iff_exists.mp present
      have same := injective (h.contents _ _ file)
      rw [foundContent] at goes
      split at goes
      · cases goes
      · cases goes
        rw [file, same]
    · cases goes
  | compareContent w previous =>
    refine h.moves here rfl rfl ?_ (fun _ owes => owes.elim) taken
    intro w' previous' goes
    split at goes
    · cases goes
    · rename_i existing file
      split at goes
      · rename_i same
        cases goes
        rw [file, same]
      · cases goes
  | renameIntoPlace w previous =>
    rw [act_advance here] at taken
    cases taken
    exact Kept.renameIntoPlace h injective here
  | upsert w previous =>
    cases fits : w.fits s.disk.rows with
    | ok done =>
      rw [act_advance here, Stage.step, Stage.remember, fits] at taken
      cases taken
      exact Kept.upsert h here fits (undisturbed fits)
    | error e =>
      have left : Stage.step sha256 s.disk (.upsert w previous) =
          (s.disk, .goesOn (.countReferences (w.path sha256) (.error e))) := by
        rw [Stage.step, fits]
      have forgets : Stage.remember s.disk s.stored (.upsert w previous) = s.stored := by
        rw [Stage.remember, fits]
      exact h.moves here left forgets (fun _ _ goes => nomatch goes) (fun _ owes => Or.inr owes)
        taken
  | selectDeleted place =>
    exact h.moves here rfl rfl (fun _ _ goes => nomatch goes) (fun _ owes => owes.elim) taken
  | deleteSelected place previous =>
    rw [act_advance here] at taken
    cases taken
    exact Kept.delete h here (fun _ => not_false) undisturbed
  | deleteInTransaction place =>
    rw [act_advance here] at taken
    cases taken
    exact Kept.delete h here (fun _ => not_false) (fun r => previousAt_of_mem h.unique)
  | countReferences path result =>
    by_cases named : ∃ r ∈ s.disk.rows, r.path = path
    · have left : Stage.step sha256 s.disk (.countReferences path result) =
          (s.disk, .finished result) := by
        rw [Stage.step, if_pos named]
      refine h.moves here left rfl (fun _ _ goes => nomatch goes) ?_ taken
      rintro path' rfl
      exact .inl named
    · have left : Stage.step sha256 s.disk (.countReferences path result) =
          (s.disk, .goesOn (.removeFile path result)) := by
        rw [Stage.step, if_neg named]
      exact h.moves here left rfl (fun _ _ goes => nomatch goes) (fun _ owes => Or.inr owes) taken
  | removeFile path result =>
    rw [act_advance here] at taken
    cases taken
    exact Kept.removeFile h here undisturbed.1 undisturbed.2

omit [DecidableEq Hash] in
lemma start_owes_nothing (accepted : call.start = .ok stage) (path : ContentPath Hash) :
    ¬ stage.Owes sha256 path := by
  cases call with
  | setDocument moduleId key bytes =>
    obtain ⟨⟨⟩, -, accepted⟩ := bind_eq_ok.mp accepted
    obtain ⟨-, accepted⟩ := reject_bind_ok.mp accepted
    cases accepted
    exact not_false
  | deleteDocument moduleId key =>
    obtain ⟨⟨⟩, -, accepted⟩ := bind_eq_ok.mp accepted
    cases accepted
    exact not_false
  | commitBlobWrite moduleId key mimeType bytes =>
    obtain ⟨⟨⟩, -, accepted⟩ := bind_eq_ok.mp accepted
    cases accepted
    exact not_false
  | deleteBlob moduleId key =>
    obtain ⟨⟨⟩, -, accepted⟩ := bind_eq_ok.mp accepted
    cases accepted
    exact not_false

lemma Inv.start (h : Inv sha256 s) (taken : act sha256 s (.start id call) = some s') :
    Inv sha256 s' := by
  rw [act] at taken
  split at taken
  · rename_i stage free accepted
    cases taken
    refine ⟨h.quota, h.unique, h.contents, h.named, ?_, ?_⟩
    · intro id' w previous found
      by_cases same : id' = id
      · rw [same, lookup_insert] at found
        cases found
        exact absurd rfl (start_owes_nothing accepted (w.path sha256))
      · rw [lookup_insert_ne same] at found
        exact h.writing id' w previous found
    · intro path bytes file
      refine (h.owned path bytes file).imp_right ?_
      rintro ⟨id', stage', found, owes⟩
      have other : id' ≠ id := by
        rintro rfl
        rw [free] at found
        cases found
      exact ⟨id', stage', (lookup_insert_ne other).trans found, owes⟩
  · cases taken
    exact h
  · cases taken

lemma Inv.act {a : Action} (injective : Injective sha256) (h : Inv sha256 s)
    (undisturbed : Undisturbed sha256 s a) (taken : act sha256 s a = some s') : Inv sha256 s' := by
  cases a with
  | start id call => exact h.start taken
  | advance id =>
    cases here : s.calls.lookup id with
    | none =>
      rw [Content.act, here] at taken
      cases taken
    | some stage => exact h.advance injective here (undisturbed stage here) taken

omit [DecidableEq Hash] in
lemma inv_empty : Inv sha256 (State.empty : State Hash) where
  quota _ := Nat.zero_le _
  unique := nodup_nil
  contents _ _ file := nomatch file
  named _ member := nomatch member
  writing _ _ _ found := nomatch found
  owned _ _ file := nomatch file

omit [DecidableEq Hash] in
lemma Inv.sound (h : Inv sha256 s) : Sound s := by
  refine ⟨h.quota, fun _ => h.named, ?_⟩
  intro idle path bytes file
  refine (h.owned path bytes file).resolve_right ?_
  rintro ⟨id, stage, found, -⟩
  have member := mem_lookup_iff.mp found
  rw [idle] at member
  cases member

/-- Rows and files agree whenever no call is in progress, in every run in which no step
disturbs another call; the quotas hold throughout. -/
theorem content_never_dangles (injective : Function.Injective sha256) {actions : List Action}
    (undisturbed : Runs.Along (Content.act sha256) (Undisturbed sha256) State.empty actions)
    (ran : Runs.run (Content.act sha256) State.empty actions = some s) : Sound s :=
  (Runs.along_invariant (fun _ _ _ taken undisturbed h => h.act injective undisturbed taken)
    undisturbed ran inv_empty).sound

variable (sha256) in
/-- Each key that something is stored under has one row, with the hash and the size of it, and no
module is over its limits. -/
structure Recorded (rows : List (Row Hash)) (stored : Place → Option Bytes) : Prop where
  unique : (rows.map (·.place)).Nodup
  current : ∀ r ∈ rows, ∃ bytes, stored r.place = some bytes ∧
    r.contentSha256 = sha256 bytes ∧ r.byteSize = bytes.length
  complete : ∀ place bytes, stored place = some bytes → ∃ r ∈ rows, r.place = place
  quota : ∀ owner, totalBytes rows owner ≤ owner.kind.quotaBytes
  keys : ∀ owner : Owner,
    (rows.filter (fun r => r.place.owner = owner)).length ≤ owner.kind.maxKeys

variable {rows : List (Row Hash)} {stored : Place → Option Bytes}

omit [DecidableEq Hash] in
lemma Recorded.delete (h : Recorded sha256 rows stored) (place : Place) :
    Recorded sha256 (without rows place) (update stored place none) where
  unique := nodup_without h.unique
  current r member := by
    obtain ⟨there, other⟩ := mem_without.mp member
    rw [update_of_ne other]
    exact h.current r there
  complete p bytes known := by
    have other : p ≠ place := fun same => by simp [same] at known
    rw [update_of_ne other] at known
    obtain ⟨r, there, rfl⟩ := h.complete p bytes known
    exact ⟨r, mem_without.mpr ⟨there, other⟩, rfl⟩
  quota := quota_without h.quota
  keys owner := Nat.le_trans (filter_sublist.filter _).length_le (h.keys owner)

omit [DecidableEq Hash] in
lemma Recorded.upsert {w : Write} (h : Recorded sha256 rows stored) (fits : w.fits rows = .ok ()) :
    Recorded sha256 (w.row sha256 :: without rows w.place)
      (update stored w.place (some w.bytes)) where
  unique := nodup_upsert (r := w.row sha256) h.unique
  current r member := by
    rcases mem_cons.mp member with rfl | member
    · exact ⟨w.bytes, update_self .., rfl, rfl⟩
    · obtain ⟨there, other⟩ := mem_without.mp member
      rw [update_of_ne other]
      exact h.current r there
  complete p bytes known := by
    by_cases same : p = w.place
    · exact ⟨_, mem_cons_self, same.symm⟩
    · rw [update_of_ne same] at known
      obtain ⟨r, there, rfl⟩ := h.complete p bytes known
      exact ⟨r, mem_cons_of_mem _ (mem_without.mpr ⟨there, same⟩), rfl⟩
  quota := quota_upsert fits h.quota
  keys owner := by
    have room := (fits_eq_ok fits).1
    have fewer := (h.delete w.place).keys owner
    by_cases same : w.place.owner = owner
    · subst same
      simpa [Write.row, Nat.succ_le_iff] using room
    · simpa [Write.row, same] using fewer

lemma Recorded.step (h : Recorded sha256 rows stored) (stage : Stage Hash)
    (files : ContentPath Hash → Option Bytes) :
    Recorded sha256 (stage.step sha256 ⟨rows, files⟩).1.rows (stage.remember ⟨rows, files⟩ stored) := by
  cases stage with
  | upsert w previous =>
    cases fits : w.fits rows with
    | ok _ =>
      simp only [Stage.step, Stage.remember, fits]
      exact h.upsert fits
    | error e =>
      simp only [Stage.step, Stage.remember, fits]
      exact h
  | deleteSelected place previous => exact h.delete place
  | deleteInTransaction place => exact h.delete place
  | _ => exact h

/-- However calls overlap, the rows say what was stored last. -/
theorem rows_recorded {actions : List Action}
    (ran : Runs.run (Content.act sha256) State.empty actions = some s) :
    Recorded sha256 s.disk.rows s.stored := by
  have empty : Recorded sha256 [] fun _ => none :=
    ⟨nodup_nil, fun _ member => (nomatch member), fun _ _ known => (nomatch known),
      fun _ => Nat.zero_le _, fun _ => Nat.zero_le _⟩
  refine Runs.run_invariant (P := fun s => Recorded sha256 s.disk.rows s.stored) ?_ ran empty
  intro s a s' taken h
  cases a with
  | start id call =>
    rw [Content.act] at taken
    split at taken <;> cases taken <;> exact h
  | advance id =>
    rw [Content.act] at taken
    obtain ⟨stage, -, rfl⟩ := Option.map_eq_some_iff.mp taken
    exact h.step stage s.disk.files

end Steps

end Sharing

section Overlaps

def document (id : Nat) (key : List Char) : Action :=
  .start id (.setDocument "com.example.notes".toList key [123, 125])

def deletion (id : Nat) (key : List Char) : Action :=
  .start id (.deleteDocument "com.example.notes".toList key)

def steps (id n : Nat) : List Action :=
  List.replicate n (.advance id)

/-- Two keys get the same content at the same time, then one is deleted. -/
def sharedRun : List Action :=
  [document 0 "a".toList, document 1 "b".toList] ++ steps 0 3 ++ steps 1 3 ++ steps 0 2 ++
    steps 1 2 ++ [deletion 2 "a".toList] ++ steps 2 2

theorem content_never_dangles_when_shared :
    ∃ s, Runs.run (act (id : Bytes → Bytes)) State.empty sharedRun = some s ∧ Sound s := by
  have reached : (Runs.run (act (id : Bytes → Bytes)) State.empty sharedRun).isSome = true := by
    decide +kernel
  obtain ⟨s, ran⟩ := Option.isSome_iff_exists.mp reached
  exact ⟨s, ran, content_never_dangles injective_id (by decide +kernel) ran⟩

/-- The second writer finds the file of the first key, which is then deleted. -/
def overlappingRun : List Action :=
  [document 0 "a".toList] ++ steps 0 5 ++ [document 1 "b".toList] ++ steps 1 4 ++
    [deletion 2 "a".toList] ++ steps 2 3 ++ steps 1 1

theorem overlapping_rows_recorded : ∃ s : State Bytes,
    Runs.run (act id) State.empty overlappingRun = some s ∧ Recorded id s.disk.rows s.stored := by
  have reached : (Runs.run (act (id : Bytes → Bytes)) State.empty overlappingRun).isSome = true := by
    decide +kernel
  obtain ⟨s, ran⟩ := Option.isSome_iff_exists.mp reached
  exact ⟨s, ran, rows_recorded ran⟩

/-- No call is in progress, and the one row that is there names a file that is not. -/
theorem overlap_leaves_dangling_row :
    ∃ s : State Bytes, Runs.run (act id) State.empty overlappingRun = some s ∧ ¬ Sound s := by
  have reached : (Runs.run (act (id : Bytes → Bytes)) State.empty overlappingRun).map (fun s =>
      (s.calls.entries.length, s.disk.rows.map (fun r => (s.disk.files r.path).isSome))) =
      some (0, [false]) := by
    decide +kernel
  obtain ⟨s, ran, found⟩ := Option.map_eq_some_iff.mp reached
  obtain ⟨idle, rows⟩ := Prod.mk.inj found
  refine ⟨s, ran, fun sound => ?_⟩
  obtain ⟨r, member, gone⟩ := mem_map.mp (rows ▸ mem_cons_self : false ∈ _)
  obtain ⟨bytes, file, -⟩ := sound.rows (length_eq_zero_iff.mp idle) r member
  rw [file] at gone
  cases gone

end Overlaps

end CustomModules.Content
