import KKTerm.Ssh.KnownHosts

/-!
# Pins in all interleavings

A call that replaces a key goes by the number of a line and then by a copy of the file. As long as
no other call makes them stale, no trusted key is lost. Without that, a line of another host is
removed or the key of another call is written over.
-/

namespace Ssh.KnownHosts

open Nat hiding sum_append
open Option hiding filter_filter format mem_map_of_mem
open Runs List

section Calls
variable {format : KeyFormat} {file : List Line} {call call' : Call}

def Call.isRemoving (call : Call) : Bool :=
  match call.phase with
  | .removing _ => true
  | _ => false

def Call.isWriting (call : Call) : Bool :=
  match call.phase with
  | .writing _ => true
  | _ => false

def Call.isLearning (call : Call) : Bool :=
  match call.phase with
  | .learning => true
  | _ => false

def Call.line (call : Call) : Line :=
  ⟨call.endpoint, call.key⟩

/-- The line with this number, counted from 0, conflicts with the key of the call. -/
def Call.ConflictsAt (call : Call) (file : List Line) (n : Nat) : Prop :=
  ∃ line, file[n]? = some line ∧ conflicts call.endpoint call.key line = true

/-- What a call knows of the file is still true of it. -/
def Call.UpToDate (call : Call) (file : List Line) : Prop :=
  match call.phase with
  | .removing line => ∃ n, line = n + 1 ∧ call.ConflictsAt file n
  | .writing lines => ∃ n, call.ConflictsAt file n ∧ lines = file.eraseIdx n
  | _ => True

/-- Only a call that may replace has begun to, and a removed line is remembered. -/
def Call.Guarded (call : Call) : Prop :=
  match call.phase with
  | .checking => call.removed = false
  | .replacing => call.replace = true
  | .removing _ => call.replace = true
  | .writing _ => call.replace = true
  | _ => call.removed = true → call.replace = true

variable {endpoint : Endpoint} {key : PublicKey} {file' : List Line}

lemma conflicts_iff {line : Line} :
    conflicts endpoint key line = true ↔ line.endpoint = endpoint ∧
      line.key.algorithm = key.algorithm ∧ line.key ≠ key := by
  simp [conflicts, and_assoc]

lemma hostKeyStatus_trusted :
    hostKeyStatus file endpoint key = .trusted ↔ ⟨endpoint, key⟩ ∈ file := by
  unfold hostKeyStatus
  split
  · rename_i there
    exact ⟨fun _ => there, fun _ => rfl⟩
  · rename_i missing
    refine ⟨fun trusted => ?_, fun there => absurd there missing⟩
    split at trusted <;> cases trusted

lemma hostKeyStatus_changed {line : Nat}
    (changed : hostKeyStatus file call.endpoint call.key = .changed line) :
    ∃ n, line = n + 1 ∧ call.ConflictsAt file n := by
  unfold hostKeyStatus at changed
  split at changed
  · cases changed
  · split at changed
    · rename_i n found
      cases changed
      obtain ⟨here, conflict, -⟩ := findIdx?_eq_some_iff_getElem.mp found
      exact ⟨n, rfl, _, getElem?_eq_getElem here, conflict⟩
    · cases changed

/-- A step of a call whose knowledge is up to date. -/
structure Sound (call : Call) (file : List Line) (call' : Call) (file' : List Line) : Prop where
  line : call'.line = call.line
  replace : call'.replace = call.replace
  guarded : call'.Guarded
  upToDate : call'.UpToDate file'
  removed : call.removed = true → call'.removed = true
  /-- A call that has removed a line does not end without learning its key. -/
  ends : call'.isReturned = true → call'.isTrusted = true ∨ call.removed = false
  trusted : call'.isTrusted = true → call.line ∈ file'
  change : file' = file ∨ call.isLearning = true ∧ file' = file ++ [call.line] ∨
    call.isWriting = true ∧ (call'.removed = true ∧ call'.isReturned = false ∧ call.replace = true) ∧
      ∃ n, call.ConflictsAt file n ∧ file' = file.eraseIdx n

lemma preview_ok (format : KeyFormat) (endpoint : Endpoint) (key : PublicKey) :
    ∃ shown, preview format endpoint key = .ok shown := by
  obtain ⟨text, encoded⟩ := format.toOpenssh_ok key
  rw [preview, encoded]
  exact ⟨_, rfl⟩

lemma finish_isTrusted (call : Call) : (call.finish format).isTrusted = true := by
  obtain ⟨shown, ok⟩ := preview_ok format call.endpoint call.key
  rw [Call.finish, Call.isTrusted, ok]

/-- A call that goes on to a phase in which it knows nothing of the file. -/
lemma sound_goOn {phase : Phase} (knows : { call with phase }.UpToDate file)
    (guarded : { call with phase }.Guarded) (not_returned : { call with phase }.isReturned = false) :
    Sound call file { call with phase } file where
  line := rfl
  replace := rfl
  guarded := guarded
  upToDate := knows
  removed := id
  ends returned := absurd (not_returned.symm.trans returned) Bool.false_ne_true
  trusted succeeded := by
    cases phase with
    | returned result => cases not_returned
    | _ => cases succeeded
  change := Or.inl rfl

lemma sound_finish (guarded : call.removed = true → call.replace = true) (there : call.line ∈ file')
    (change : file' = file ∨ call.isLearning = true ∧ file' = file ++ [call.line]) :
    Sound call file (call.finish format) file' where
  line := rfl
  replace := rfl
  guarded := guarded
  upToDate := trivial
  removed := id
  ends _ := Or.inl (finish_isTrusted call)
  trusted _ := there
  change := change.imp_right Or.inl

lemma sound_refuse (guarded : call.removed = false) (message : List Char) :
    Sound call file (call.refuse message) file where
  line := rfl
  replace := rfl
  guarded removed := absurd (guarded.symm.trans removed) Bool.false_ne_true
  upToDate := trivial
  removed := id
  ends _ := Or.inr guarded
  trusted succeeded := nomatch succeeded
  change := Or.inl rfl

lemma sound_check (checking : call.phase = .checking) (guarded : call.Guarded) :
    Sound call file (call.check format (hostKeyStatus file call.endpoint call.key)) file := by
  rw [Call.Guarded, checking] at guarded
  have none_removed : call.removed = true → call.replace = true :=
    fun removed => absurd (guarded.symm.trans removed) Bool.false_ne_true
  cases status : hostKeyStatus file call.endpoint call.key with
  | trusted => exact sound_finish none_removed (hostKeyStatus_trusted.mp status) (.inl rfl)
  | unknown => exact sound_goOn trivial none_removed rfl
  | changed line =>
    by_cases replaces : call.replace = true
    · rw [Call.check, if_pos replaces]
      exact sound_goOn trivial replaces rfl
    · rw [Call.check, if_neg replaces]
      exact sound_refuse guarded _

lemma sound_checkAgain (replaces : call.replace = true) :
    Sound call file (call.checkAgain (hostKeyStatus file call.endpoint call.key)) file := by
  cases status : hostKeyStatus file call.endpoint call.key with
  | changed line => exact sound_goOn (hostKeyStatus_changed status) replaces rfl
  | trusted => exact sound_goOn trivial (fun _ => replaces) rfl
  | unknown => exact sound_goOn trivial (fun _ => replaces) rfl

lemma sound_readWithout {n : Nat} (there : call.ConflictsAt file n)
    (replaces : call.replace = true) : Sound call file (call.readWithout (n + 1) file) file := by
  obtain ⟨line, found, conflict⟩ := there
  have inside : n < file.length := (List.getElem?_eq_some_iff.mp found).1
  rw [Call.readWithout, if_neg (by omega), Nat.add_sub_cancel]
  exact sound_goOn ⟨n, ⟨line, found, conflict⟩, rfl⟩ replaces rfl

lemma sound_next (guarded : call.Guarded) (upToDate : call.UpToDate file)
    (taken : call.next format file = some (call', file')) : Sound call file call' file' := by
  unfold Call.next at taken
  cases phase : call.phase with
  | checking =>
    rw [phase] at taken
    cases taken
    exact sound_check phase guarded
  | replacing =>
    rw [phase] at taken
    cases taken
    rw [Call.Guarded, phase] at guarded
    exact sound_checkAgain guarded
  | removing line =>
    rw [phase] at taken
    cases taken
    rw [Call.Guarded, phase] at guarded
    rw [Call.UpToDate, phase] at upToDate
    obtain ⟨n, rfl, there⟩ := upToDate
    exact sound_readWithout there guarded
  | writing lines =>
    rw [phase] at taken
    cases taken
    rw [Call.Guarded, phase] at guarded
    rw [Call.UpToDate, phase] at upToDate
    obtain ⟨n, there, rfl⟩ := upToDate
    exact {
      line := rfl
      replace := rfl
      guarded := guarded
      upToDate := trivial
      removed := fun _ => rfl
      ends := fun returned => nomatch returned
      trusted := fun succeeded => nomatch succeeded
      change := Or.inr (.inr ⟨by rw [Call.isWriting, phase], ⟨rfl, rfl, guarded⟩, n, there, rfl⟩) }
  | learning =>
    rw [phase] at taken
    cases taken
    rw [Call.Guarded, phase] at guarded
    exact sound_finish guarded (mem_append_right file mem_cons_self)
      (.inr ⟨by rw [Call.isLearning, phase], rfl⟩)
  | returned result =>
    rw [phase] at taken
    cases taken

end Calls

section States
variable {format : KeyFormat} {file₀ : List Line} {s s' : State} {i : Nat} {call call' : Call}

/-- The file is not changed while another call is about to write a copy of it, no line is removed
while another call is about to remove one by its number, and no call fails after it has removed a
line. -/
def Exclusive (s : State) : Event → Prop
  | .trust _ => True
  | .advance i => ∀ call ∈ s.calls[i]?, ∀ other ∈ s.calls.eraseIdx i,
    (call.isWriting = true → other.isRemoving = false) ∧
    (call.isWriting = true ∨ call.isLearning = true → other.isWriting = false)
  | .fail i _ => ∀ call ∈ s.calls[i]?, call.removed = false

instance (s : State) (e : Event) : Decidable (Exclusive s e) := by
  cases e
  · exact inferInstanceAs (Decidable True)
  · exact inferInstanceAs (Decidable (∀ call ∈ _, ∀ other ∈ _, _ ∧ _))
  · exact inferInstanceAs (Decidable (∀ call ∈ _, _))

/-- Another call replaces the keys of this one. -/
def Call.Supersedes (other call : Call) : Prop :=
  other.replace = true ∧ other.endpoint = call.endpoint ∧
    other.key.algorithm = call.key.algorithm

def State.unnamed (s : State) (line : Line) : Bool :=
  line.endpoint ∉ s.calls.map Call.endpoint

/-- The second call succeeded after the first one. -/
def State.Later (s : State) (i j : Nat) : Prop :=
  ∃ front back, s.succeeded = front ++ i :: back ∧ j ∈ back

/-- The key of a call that succeeded is trusted, or another call has replaced it or is about to. -/
def Kept (s : State) (i : Nat) (call : Call) : Prop :=
  call.line ∈ s.file ∨ ∃ j other, s.calls[j]? = some other ∧ other.Supersedes call ∧
    (s.Later i j ∨ other.removed = true ∧ other.isReturned = false)

structure Consistent (file₀ : List Line) (s : State) : Prop where
  guarded : ∀ call ∈ s.calls, call.Guarded
  upToDate : ∀ call ∈ s.calls, call.UpToDate s.file
  succeeded : ∀ i ∈ s.succeeded, ∃ call, s.calls[i]? = some call ∧ call.isTrusted = true
  logged : ∀ i call, s.calls[i]? = some call → call.isTrusted = true → i ∈ s.succeeded
  kept : ∀ i call, s.calls[i]? = some call → call.isTrusted = true → Kept s i call
  untouched : s.file.filter s.unnamed = file₀.filter s.unnamed

lemma isReturned_of_isTrusted (trusted : call.isTrusted = true) : call.isReturned = true := by
  unfold Call.isTrusted at trusted
  unfold Call.isReturned
  split at trusted
  · rename_i shown phase
    rw [phase]
  · cases trusted

lemma eraseIdx_filter {lines : List Line} {n : Nat} {line : Line} {p : Line → Bool}
    (there : lines[n]? = some line) (no : p line = false) :
    (lines.eraseIdx n).filter p = lines.filter p := by
  induction lines generalizing n with
  | nil => rfl
  | cons first lines ih =>
    cases n with
    | zero =>
      cases there
      rw [eraseIdx_cons_zero, filter_cons_of_neg (by rw [no]; decide)]
    | succ n => rw [eraseIdx_cons_succ, filter_cons, filter_cons, ih there]

lemma mem_eraseIdx_of_ne {lines : List Line} {n : Nat} {line kept : Line}
    (there : lines[n]? = some line) (member : kept ∈ lines) (differ : kept ≠ line) :
    kept ∈ lines.eraseIdx n := by
  obtain ⟨m, found⟩ := mem_iff_getElem?.mp member
  refine mem_eraseIdx_iff_getElem?.mpr ⟨m, ?_, found⟩
  rintro rfl
  exact differ (Option.some.inj (found.symm.trans there))

lemma Call.UpToDate.append {file : List Line} (known : call.UpToDate file)
    (no_copy : call.isWriting = false) (line : Line) : call.UpToDate (file ++ [line]) := by
  unfold Call.UpToDate at known ⊢
  cases phase : call.phase with
  | removing number =>
    rw [phase] at known
    obtain ⟨n, rfl, found, there, conflict⟩ := known
    have inside : n < file.length := (List.getElem?_eq_some_iff.mp there).1
    exact ⟨n, rfl, found, (getElem?_append_left inside).trans there, conflict⟩
  | writing lines =>
    rw [Call.isWriting, phase] at no_copy
    cases no_copy
  | _ => trivial

lemma upToDate_of_idle {file : List Line} (no_removal : call.isRemoving = false)
    (no_copy : call.isWriting = false) : call.UpToDate file := by
  unfold Call.UpToDate
  cases phase : call.phase with
  | removing number =>
    rw [Call.isRemoving, phase] at no_removal
    cases no_removal
  | writing lines =>
    rw [Call.isWriting, phase] at no_copy
    cases no_copy
  | _ => trivial

lemma set_getElem? {calls : List Call} (here : calls[i]? = some call) (j : Nat) :
    (calls.set i call')[j]? = if i = j then some call' else calls[j]? := by
  rw [getElem?_set]
  have inside : i < calls.length := (List.getElem?_eq_some_iff.mp here).1
  by_cases same : i = j
  · rw [if_pos same, if_pos same, if_pos inside]
  · rw [if_neg same, if_neg same]

lemma State.Later.update {j k : Nat} (later : s.Later j k) (call' : Call) (file' : List Line) :
    (s.update i call' file').Later j k := by
  obtain ⟨front, back, order, member⟩ := later
  unfold State.Later State.update
  by_cases trusted : call'.isTrusted = true
  · rw [if_pos trusted, order]
    exact ⟨front, back ++ [i], by rw [append_assoc]; rfl, mem_append_left _ member⟩
  · rw [if_neg trusted, order]
    exact ⟨front, back, rfl, member⟩

lemma later_last {j : Nat} (earlier : j ∈ s.succeeded) (trusted : call'.isTrusted = true)
    (file' : List Line) : (s.update i call' file').Later j i := by
  obtain ⟨front, back, order⟩ := append_of_mem earlier
  unfold State.Later State.update
  rw [if_pos trusted, order]
  exact ⟨front, back ++ [i], by rw [append_assoc]; rfl, mem_append_right _ mem_cons_self⟩

lemma Consistent.kept_update {file' : List Line} {k : Nat} {callK : Call}
    (c : Consistent file₀ s) (here : s.calls[i]? = some call) (active : call.isReturned = false)
    (sound : Sound call s.file call' file') (other_k : k ≠ i) (found : s.calls[k]? = some callK)
    (trusted : callK.isTrusted = true) : Kept (s.update i call' file') k callK := by
  have now : (s.update i call' file').calls[i]? = some call' := by
    rw [State.update, set_getElem? here, if_pos rfl]
  have still {j : Nat} (other_j : j ≠ i) :
      (s.update i call' file').calls[j]? = s.calls[j]? := by
    rw [State.update, set_getElem? here, if_neg (Ne.symm other_j)]
  rcases c.kept k callK found trusted with there | ⟨j, other, at_j, supersedes, done⟩
  · rcases sound.change with rfl | ⟨-, rfl⟩ | ⟨-, ⟨removed, not_returned, replaces⟩, n, ⟨line, at_n, conflict⟩, rfl⟩
    · exact .inl there
    · exact .inl (mem_append_left _ there)
    · by_cases same : callK.line = line
      · -- The line that is removed is the one of this call.
        subst same
        obtain ⟨endpoint, algorithm, -⟩ := conflicts_iff.mp conflict
        have line' := congrArg Line.key sound.line
        have endpoint' := congrArg Line.endpoint sound.line
        change call'.key = call.key at line'
        change call'.endpoint = call.endpoint at endpoint'
        refine Or.inr ⟨i, call', now, ⟨sound.replace.trans replaces, ?_, ?_⟩,
          Or.inr ⟨removed, not_returned⟩⟩
        · exact endpoint'.trans endpoint.symm
        · rw [line']
          exact algorithm.symm
      · exact .inl (mem_eraseIdx_of_ne at_n there same)
  · by_cases this : j = i
    · subst this
      obtain rfl : call = other := Option.some.inj (here.symm.trans at_j)
      have line' := congrArg Line.key sound.line
      have endpoint' := congrArg Line.endpoint sound.line
      have supersedes' : call'.Supersedes callK :=
        ⟨sound.replace.trans supersedes.1, endpoint'.trans supersedes.2.1,
          (congrArg PublicKey.algorithm line').trans supersedes.2.2⟩
      refine Or.inr ⟨j, call', now, supersedes', ?_⟩
      rcases done with ⟨front, back, order, member⟩ | ⟨removed, -⟩
      · have logged : j ∈ s.succeeded := by
          rw [order]
          exact mem_append_right front (mem_cons_of_mem k member)
        obtain ⟨done, at_j', trusted'⟩ := c.succeeded j logged
        obtain rfl : call = done := Option.some.inj (here.symm.trans at_j')
        exact absurd (active.symm.trans (isReturned_of_isTrusted trusted')) Bool.false_ne_true
      · cases returned : call'.isReturned with
        | false => exact .inr ⟨sound.removed removed, rfl⟩
        | true =>
          have learned := (sound.ends returned).resolve_right
            fun none_removed => Bool.false_ne_true (none_removed.symm.trans removed)
          exact .inl (later_last (c.logged k callK found trusted) learned file')
    · exact .inr ⟨j, other, (still this).trans at_j, supersedes,
        done.imp_left fun later => later.update call' file'⟩

lemma unnamed_update {file' : List Line} (here : s.calls[i]? = some call)
    (same : call'.line = call.line) : (s.update i call' file').unnamed = s.unnamed := by
  have endpoint : call'.endpoint = call.endpoint := congrArg Line.endpoint same
  have endpoints : (s.calls.set i call').map Call.endpoint = s.calls.map Call.endpoint := by
    refine ext_getElem? fun j => ?_
    rw [getElem?_map, getElem?_map, set_getElem? here]
    split
    · rename_i same
      rw [← same, here, map_some, map_some, endpoint]
    · rfl
  funext line
  rw [State.unnamed, State.unnamed, State.update, endpoints]

lemma not_unnamed (here : s.calls[i]? = some call) {line : Line}
    (same : line.endpoint = call.endpoint) : s.unnamed line = false := by
  rw [State.unnamed, decide_eq_false_iff_not, not_not, same]
  exact mem_map_of_mem (mem_of_getElem? here)

/-- A sound step of one call, when the others stay up to date. -/
lemma Consistent.update {file' : List Line} (c : Consistent file₀ s)
    (here : s.calls[i]? = some call) (active : call.isReturned = false)
    (sound : Sound call s.file call' file')
    (others : ∀ other ∈ s.calls.eraseIdx i, other.UpToDate file') :
    Consistent file₀ (s.update i call' file') := by
  have cases_of {j : Nat} {other : Call} (found : (s.update i call' file').calls[j]? = some other) :
      j = i ∧ other = call' ∨ j ≠ i ∧ s.calls[j]? = some other := by
    rw [State.update, set_getElem? here] at found
    split at found
    · rename_i same
      exact .inl ⟨same.symm, (Option.some.inj found).symm⟩
    · rename_i differ
      exact .inr ⟨Ne.symm differ, found⟩
  constructor
  · intro other member
    obtain ⟨j, found⟩ := mem_iff_getElem?.mp member
    rcases cases_of found with ⟨-, rfl⟩ | ⟨-, old⟩
    · exact sound.guarded
    · exact c.guarded other (mem_of_getElem? old)
  · intro other member
    obtain ⟨j, found⟩ := mem_iff_getElem?.mp member
    rcases cases_of found with ⟨-, rfl⟩ | ⟨differ, old⟩
    · exact sound.upToDate
    · exact others other (mem_eraseIdx_iff_getElem?.mpr ⟨j, differ, old⟩)
  · intro k logged
    have old_or_new : k ∈ s.succeeded ∨ k = i ∧ call'.isTrusted = true := by
      rw [State.update] at logged
      dsimp only at logged
      split at logged
      · rename_i trusted
        rcases mem_append.mp logged with old | new
        · exact .inl old
        · exact .inr ⟨mem_singleton.mp new, trusted⟩
      · exact .inl logged
    rcases old_or_new with old | ⟨rfl, trusted⟩
    · obtain ⟨done, found, trusted⟩ := c.succeeded k old
      have differ : i ≠ k := by
        rintro rfl
        obtain rfl : call = done := Option.some.inj (here.symm.trans found)
        exact Bool.false_ne_true (active.symm.trans (isReturned_of_isTrusted trusted))
      refine ⟨done, ?_, trusted⟩
      rw [State.update, set_getElem? here, if_neg differ]
      exact found
    · refine ⟨call', ?_, trusted⟩
      rw [State.update, set_getElem? here, if_pos rfl]
  · intro k other found trusted
    unfold State.update
    rcases cases_of found with ⟨rfl, rfl⟩ | ⟨-, old⟩
    · rw [if_pos trusted]
      exact mem_append_right _ mem_cons_self
    · have logged := c.logged k other old trusted
      split
      · exact mem_append_left _ logged
      · exact logged
  · intro k other found trusted
    rcases cases_of found with ⟨rfl, rfl⟩ | ⟨differ, old⟩
    · refine Or.inl ?_
      rw [sound.line]
      exact sound.trusted trusted
    · exact c.kept_update here active sound differ old trusted
  · rw [unnamed_update here sound.line, ← c.untouched]
    change file'.filter s.unnamed = s.file.filter s.unnamed
    rcases sound.change with rfl | ⟨-, rfl⟩ | ⟨-, -, n, ⟨line, there, conflict⟩, rfl⟩
    · rfl
    · rw [filter_append, filter_cons_of_neg, filter_nil, append_nil]
      rw [not_unnamed here rfl]
      exact Bool.false_ne_true
    · refine eraseIdx_filter there (not_unnamed here ?_)
      exact (conflicts_iff.mp conflict).1

lemma newCall_eq {request : TrustSshHostKeyRequest} (made : newCall format request = .ok call) :
    call.phase = .checking ∧ call.removed = false := by
  unfold newCall at made
  cases host : requiredHost request.host with
  | error error => rw [host] at made; cases made
  | ok name =>
    rw [host] at made
    cases key : format.fromOpenssh request.publicKey with
    | error error => rw [key] at made; cases made
    | ok key' =>
      rw [key] at made
      cases made
      exact ⟨rfl, rfl⟩

lemma Consistent.start (c : Consistent file₀ s) (checking : call.phase = .checking)
    (none_removed : call.removed = false) :
    Consistent file₀ { s with calls := s.calls ++ [call] } := by
  have not_trusted : ¬ call.isTrusted = true := by
    rw [Call.isTrusted, checking]
    exact Bool.false_ne_true
  have old_or_new {j : Nat} {other : Call} (found : (s.calls ++ [call])[j]? = some other) :
      s.calls[j]? = some other ∨ other = call := by
    rw [getElem?_append] at found
    split at found
    · exact .inl found
    · exact .inr (mem_singleton.mp (mem_of_getElem? found))
  have still {j : Nat} {other : Call} (found : s.calls[j]? = some other) :
      (s.calls ++ [call])[j]? = some other :=
    (getElem?_append_left (List.getElem?_eq_some_iff.mp found).1).trans found
  constructor
  · intro other member
    rcases mem_append.mp member with old | new
    · exact c.guarded other old
    · rw [mem_singleton.mp new, Call.Guarded, checking]
      exact none_removed
  · intro other member
    rcases mem_append.mp member with old | new
    · exact c.upToDate other old
    · rw [mem_singleton.mp new, Call.UpToDate, checking]
      trivial
  · intro k logged
    obtain ⟨done, found, trusted⟩ := c.succeeded k logged
    exact ⟨done, still found, trusted⟩
  · intro k other found trusted
    rcases old_or_new found with old | rfl
    · exact c.logged k other old trusted
    · exact absurd trusted not_trusted
  · intro k other found trusted
    rcases old_or_new found with old | rfl
    · refine (c.kept k other old trusted).imp_right ?_
      rintro ⟨j, newer, at_j, supersedes, done⟩
      exact ⟨j, newer, still at_j, supersedes, done⟩
    · exact absurd trusted not_trusted
  · have fewer : ∀ line, { s with calls := s.calls ++ [call] }.unnamed line = true →
        s.unnamed line = true := by
      intro line unnamed
      rw [State.unnamed, decide_eq_true_eq, map_append, mem_append, not_or] at unnamed
      exact decide_eq_true unnamed.1
    have narrow (file : List Line) :
        file.filter { s with calls := s.calls ++ [call] }.unnamed =
          (file.filter s.unnamed).filter { s with calls := s.calls ++ [call] }.unnamed := by
      rw [filter_filter]
      refine filter_congr fun line _ => ?_
      cases unnamed : { s with calls := s.calls ++ [call] }.unnamed line with
      | false => rfl
      | true => rw [fewer line unnamed]; rfl
    rw [narrow s.file, narrow file₀, c.untouched]

/-- A step adds a call, takes an active call further or lets it fail. -/
lemma step_cases {e : Event} (taken : step format s e = some s') :
    (∃ request, e = .trust request ∧ (s' = s ∨ ∃ call, call.phase = .checking ∧
      call.removed = false ∧ s' = { s with calls := s.calls ++ [call] })) ∨
    ∃ i call call' file', s.calls[i]? = some call ∧ call.isReturned = false ∧
      s' = s.update i call' file' ∧
      (e = .advance i ∧ call.next format s.file = some (call', file') ∨
        ∃ error message, e = .fail i error ∧ call' = call.refuse message ∧ file' = s.file) := by
  cases e with
  | trust request =>
    rw [step] at taken
    cases made : newCall format request with
    | error error =>
      rw [made] at taken
      cases taken
      exact .inl ⟨request, rfl, .inl rfl⟩
    | ok call =>
      rw [made] at taken
      cases taken
      obtain ⟨checking, none_removed⟩ := newCall_eq made
      exact .inl ⟨request, rfl, .inr ⟨call, checking, none_removed, rfl⟩⟩
  | advance i =>
    obtain ⟨call, here, taken⟩ := bind_eq_some_iff.mp taken
    obtain ⟨⟨call', file'⟩, moved, taken⟩ := bind_eq_some_iff.mp taken
    cases taken
    refine .inr ⟨i, call, call', file', here, ?_, rfl, .inl ⟨rfl, moved⟩⟩
    cases phase : call.phase with
    | returned result =>
      rw [Call.next, phase] at moved
      cases moved
    | _ => rw [Call.isReturned, phase]
  | fail i error =>
    obtain ⟨call, here, taken⟩ := bind_eq_some_iff.mp taken
    obtain ⟨context, failing, taken⟩ := bind_eq_some_iff.mp taken
    cases taken
    refine .inr ⟨i, call, _, s.file, here, ?_, rfl, .inr ⟨error, _, rfl, rfl, rfl⟩⟩
    cases phase : call.phase with
    | returned result =>
      rw [Call.errorContext, phase] at failing
      cases failing
    | _ => rw [Call.isReturned, phase]

lemma Consistent.step (c : Consistent file₀ s) {e : Event} (exclusive : Exclusive s e)
    (taken : step format s e = some s') : Consistent file₀ s' := by
  rcases step_cases taken with ⟨-, -, rfl | ⟨call, checking, none_removed, rfl⟩⟩ |
    ⟨i, call, call', file', here, active, rfl, ⟨rfl, moved⟩ | ⟨error, message, rfl, rfl, rfl⟩⟩
  · exact c
  · exact c.start checking none_removed
  · have sound := sound_next (c.guarded call (mem_of_getElem? here))
      (c.upToDate call (mem_of_getElem? here)) moved
    refine c.update here active sound fun other member => ?_
    obtain ⟨j, differ, found⟩ := mem_eraseIdx_iff_getElem?.mp member
    have known := c.upToDate other (mem_of_getElem? found)
    obtain ⟨no_removal, no_copy⟩ := exclusive call here other member
    rcases sound.change with rfl | ⟨learning, rfl⟩ | ⟨writing, -, n, -, rfl⟩
    · exact known
    · exact known.append (no_copy (.inr learning)) _
    · exact upToDate_of_idle (no_removal writing) (no_copy (.inl writing))
  · refine c.update here active (sound_refuse (exclusive call here) _) fun other member => ?_
    obtain ⟨j, differ, found⟩ := mem_eraseIdx_iff_getElem?.mp member
    exact c.upToDate other (mem_of_getElem? found)

lemma guarded_check (guarded : call.removed = false) (status : HostKeyTrustStatus) :
    (call.check format status).Guarded := by
  have none_removed : call.removed = true → call.replace = true :=
    fun removed => absurd (guarded.symm.trans removed) Bool.false_ne_true
  cases status with
  | trusted => exact none_removed
  | unknown => exact none_removed
  | changed line =>
    by_cases replaces : call.replace = true
    · rw [Call.check, if_pos replaces]
      exact replaces
    · rw [Call.check, if_neg replaces]
      exact none_removed

/-- Whatever a call knows, it stays guarded, and one that may not replace keeps all lines. -/
lemma guarded_next {file file' : List Line} (guarded : call.Guarded)
    (taken : call.next format file = some (call', file')) :
    call'.Guarded ∧ (call.replace = false → file <+: file') := by
  unfold Call.next at taken
  unfold Call.Guarded at guarded
  cases phase : call.phase with
  | checking =>
    rw [phase] at taken guarded
    cases taken
    exact ⟨guarded_check guarded _, fun _ => prefix_rfl⟩
  | replacing =>
    rw [phase] at taken guarded
    cases taken
    refine ⟨?_, fun _ => prefix_rfl⟩
    cases hostKeyStatus file call.endpoint call.key with
    | changed line => exact guarded
    | trusted => exact fun _ => guarded
    | unknown => exact fun _ => guarded
  | removing line =>
    rw [phase] at taken guarded
    cases taken
    refine ⟨?_, fun _ => prefix_rfl⟩
    unfold Call.readWithout
    split
    · exact fun _ => guarded
    · exact guarded
  | writing lines =>
    rw [phase] at taken guarded
    cases taken
    exact ⟨guarded, fun keeps => absurd (keeps.symm.trans guarded) Bool.false_ne_true⟩
  | learning =>
    rw [phase] at taken guarded
    cases taken
    exact ⟨guarded, fun _ => prefix_append file _⟩
  | returned result =>
    rw [phase] at taken
    cases taken

lemma guarded_refuse (guarded : call.Guarded) (message : List Char) :
    (call.refuse message).Guarded := by
  unfold Call.Guarded at guarded
  intro removed
  change call.removed = true at removed
  change call.replace = true
  cases phase : call.phase with
  | checking =>
    rw [phase] at guarded
    exact absurd (guarded.symm.trans removed) Bool.false_ne_true
  | replacing => rw [phase] at guarded; exact guarded
  | removing line => rw [phase] at guarded; exact guarded
  | writing lines => rw [phase] at guarded; exact guarded
  | learning => rw [phase] at guarded; exact guarded removed
  | returned result => rw [phase] at guarded; exact guarded removed

lemma guarded_step {e : Event} (taken : step format s e = some s')
    (guarded : ∀ call ∈ s.calls, call.Guarded) : ∀ call ∈ s'.calls, call.Guarded := by
  rcases step_cases taken with ⟨-, -, rfl | ⟨call, checking, none_removed, rfl⟩⟩ |
    ⟨i, call, call', file', here, active, rfl, how⟩
  · exact guarded
  · intro other member
    rcases mem_append.mp member with old | new
    · exact guarded other old
    · rw [mem_singleton.mp new, Call.Guarded, checking]
      exact none_removed
  · intro other member
    rcases mem_or_eq_of_mem_set member with old | rfl
    · exact guarded other old
    · rcases how with ⟨rfl, moved⟩ | ⟨error, message, rfl, rfl, rfl⟩
      · exact (guarded_next (guarded call (mem_of_getElem? here)) moved).1
      · exact guarded_refuse (guarded call (mem_of_getElem? here)) _

/-- How many steps are left to a call in a file of so many lines, when there are `k` calls. -/
def removalBound (k : Nat) : Nat → Nat
  | 0 => 1
  | lines + 1 => k * (removalBound k lines + 2) + 2

/-- The same for a call that is about to write a copy of so many lines. -/
def copyBound (k lines : Nat) : Nat :=
  k * (removalBound k lines + 2) + 1

lemma one_le_removalBound (k lines : Nat) : 1 ≤ removalBound k lines := by
  cases lines with
  | zero => exact Nat.le_refl 1
  | succ lines => exact Nat.le_add_left 1 _

lemma removalBound_mono {k a b : Nat} (some_call : 0 < k) (h : a ≤ b) :
    removalBound k a ≤ removalBound k b := by
  induction h with
  | refl => omega
  | @step b _ ih =>
    have one_call := Nat.le_mul_of_pos_left (removalBound k b + 2) some_call
    rw [removalBound]
    omega

lemma copyBound_mono {k a b : Nat} (some_call : 0 < k) (h : a ≤ b) :
    copyBound k a ≤ copyBound k b :=
  succ_le_succ (Nat.mul_le_mul_left k (Nat.add_le_add_right (removalBound_mono some_call h) 2))

/-- Calls that may still append a line. -/
def State.pending (s : State) : Nat :=
  s.calls.countP (fun call => !call.isReturned)

def Call.steps (k lines pending : Nat) (call : Call) : Nat :=
  match call.phase with
  | .checking => removalBound k (lines + pending) + 2
  | .replacing => removalBound k (lines + pending) + 1
  | .removing _ => removalBound k (lines + pending)
  | .writing copy => copyBound k (copy.length + pending)
  | .learning => 1
  | .returned _ => 0

def State.stepsLeft (s : State) : Nat :=
  (s.calls.map (Call.steps s.calls.length s.file.length s.pending)).sum

/-- The lines and the calls that may append do not become more, and the call has fewer steps left. -/
structure Fewer (k lines pending : Nat) (call : Call) (lines' pending' : Nat) (call' : Call) :
    Prop where
  total : lines' + pending' ≤ lines + pending
  appends : pending' ≤ pending
  fewer : call'.steps k lines' pending' < call.steps k lines pending

/-- How many calls may still append when one of the others is replaced by this one. -/
def pendingWith (others : Nat) (call : Call) : Nat :=
  if call.isReturned then others else others + 1

lemma steps_pos {k lines pending : Nat} (active : call.isReturned = false) :
    0 < call.steps k lines pending := by
  have positive := one_le_removalBound k (lines + pending)
  unfold Call.steps
  cases phase : call.phase with
  | returned result =>
    rw [Call.isReturned, phase] at active
    cases active
  | writing copy => exact succ_pos _
  | _ => dsimp only; omega

/-- A call that returns has no steps left, and may have appended one line. -/
lemma fewer_returned {k lines lines' others : Nat} (active : call.isReturned = false)
    (returned : call'.isReturned = true) (one_more : lines' ≤ lines + 1) :
    Fewer k lines (others + 1) call lines' (pendingWith others call') call' := by
  rw [pendingWith, if_pos returned]
  refine ⟨by omega, le_succ _, ?_⟩
  have no_steps : call'.steps k lines' others = 0 := by
    unfold Call.steps
    cases phase : call'.phase with
    | returned result => rfl
    | _ =>
      rw [Call.isReturned, phase] at returned
      cases returned
  rw [no_steps]
  exact steps_pos active

lemma fewer_active {k lines others : Nat} (active : call'.isReturned = false)
    (less : call'.steps k lines (others + 1) < call.steps k lines (others + 1)) :
    Fewer k lines (others + 1) call lines (pendingWith others call') call' := by
  rw [pendingWith, active, if_neg Bool.false_ne_true]
  exact ⟨Nat.le_refl _, Nat.le_refl _, less⟩

lemma fewer_check {k lines others : Nat} (checking : call.phase = .checking)
    (status : HostKeyTrustStatus) :
    Fewer k lines (others + 1) call lines (pendingWith others (call.check format status))
      (call.check format status) := by
  have active : call.isReturned = false := by rw [Call.isReturned, checking]
  have steps : call.steps k lines (others + 1) = removalBound k (lines + (others + 1)) + 2 := by
    rw [Call.steps, checking]
  cases status with
  | trusted =>
    exact fewer_returned active (isReturned_of_isTrusted (finish_isTrusted call)) (le_succ _)
  | unknown =>
    refine fewer_active rfl ?_
    rw [steps]
    exact succ_lt_succ (succ_pos _)
  | changed line =>
    by_cases replaces : call.replace = true
    · rw [Call.check, if_pos replaces]
      refine fewer_active rfl ?_
      rw [steps]
      exact lt_succ_self _
    · rw [Call.check, if_neg replaces]
      exact fewer_returned active rfl (le_succ _)

lemma fewer_readWithout {k others line : Nat} {file : List Line}
    (removing : call.phase = .removing line) :
    Fewer k file.length (others + 1) call file.length (pendingWith others (call.readWithout line file))
      (call.readWithout line file) := by
  have active : call.isReturned = false := by rw [Call.isReturned, removing]
  unfold Call.readWithout
  split
  · exact fewer_returned active rfl (le_succ _)
  · rename_i inside
    refine fewer_active rfl ?_
    have shorter : (file.eraseIdx (line - 1)).length + (others + 1) = file.length + others := by
      rw [length_eraseIdx_of_lt (by omega)]
      omega
    rw [Call.steps, Call.steps, removing]
    dsimp only
    rw [shorter]
    exact lt_succ_self _

lemma fewer_next {k others : Nat} {file file' : List Line} (no_copy : call.isWriting = false)
    (taken : call.next format file = some (call', file')) :
    Fewer k file.length (others + 1) call file'.length (pendingWith others call') call' := by
  have positive := one_le_removalBound k (file.length + (others + 1))
  unfold Call.next at taken
  cases phase : call.phase with
  | checking =>
    rw [phase] at taken
    cases taken
    exact fewer_check phase _
  | replacing =>
    rw [phase] at taken
    cases taken
    have steps : call.steps k file.length (others + 1) =
        removalBound k (file.length + (others + 1)) + 1 := by
      rw [Call.steps, phase]
    cases hostKeyStatus file call.endpoint call.key with
    | changed line => exact fewer_active rfl (steps ▸ lt_succ_self _)
    | trusted => exact fewer_active rfl (steps ▸ lt_succ_of_le positive)
    | unknown => exact fewer_active rfl (steps ▸ lt_succ_of_le positive)
  | removing line =>
    rw [phase] at taken
    cases taken
    exact fewer_readWithout phase
  | writing lines =>
    rw [Call.isWriting, phase] at no_copy
    cases no_copy
  | learning =>
    rw [phase] at taken
    cases taken
    refine fewer_returned (by rw [Call.isReturned, phase])
      (isReturned_of_isTrusted (finish_isTrusted call)) ?_
    rw [learn, length_append]
    exact Nat.le_refl _
  | returned result =>
    rw [phase] at taken
    cases taken

lemma sum_map_le_add {f g : Call → Nat} {b : Nat} {calls : List Call}
    (each : ∀ call ∈ calls, f call ≤ g call + b) :
    (calls.map f).sum ≤ (calls.map g).sum + calls.length * b := by
  induction calls with
  | nil => exact Nat.zero_le _
  | cons call calls ih =>
    obtain ⟨first, rest⟩ := forall_mem_cons.mp each
    have later := ih rest
    rw [map_cons, map_cons, sum_cons, sum_cons, length_cons, succ_mul]
    omega

/-- The steps of the other calls when the file has so many lines. -/
lemma steps_le {k lines pending lines' pending' : Nat} (some_call : 0 < k)
    (fewer_lines : lines' + pending' ≤ lines + pending) (fewer : pending' ≤ pending) (call : Call) :
    call.steps k lines' pending' ≤ call.steps k lines pending := by
  have lower := removalBound_mono some_call fewer_lines
  unfold Call.steps
  cases call.phase with
  | writing copy => exact copyBound_mono some_call (Nat.add_le_add_left fewer _)
  | learning => exact Nat.le_refl 1
  | returned result => exact Nat.le_refl 0
  | _ => dsimp only; omega

/-- Whatever is written over the file, a call that waits for it has at most so many steps more. -/
lemma steps_le_add (k lines lines' pending : Nat) (call : Call) :
    call.steps k lines' pending ≤
      call.steps k lines pending + (removalBound k (lines' + pending) + 2) := by
  unfold Call.steps
  cases call.phase with
  | writing copy => exact Nat.le_add_right _ _
  | _ => dsimp only; omega

lemma sum_middle (f : Call → Nat) (front back : List Call) (call : Call) :
    ((front ++ call :: back).map f).sum = ((front ++ back).map f).sum + f call := by
  simp only [map_append, map_cons, sum_append, sum_cons]
  omega

lemma countP_middle (front back : List Call) (call : Call) :
    (front ++ call :: back).countP (fun call => !call.isReturned) =
      pendingWith ((front ++ back).countP fun call => !call.isReturned) call := by
  rw [pendingWith, countP_append, countP_append, countP_cons]
  cases call.isReturned with
  | true => rfl
  | false => exact (Nat.add_assoc _ _ _).symm

section
variable (here : s.calls[i]? = some call)
include here

lemma split_calls : ∃ front back,
    s.calls = front ++ call :: back ∧ ∀ call', s.calls.set i call' = front ++ call' :: back := by
  obtain ⟨inside, rfl⟩ := List.getElem?_eq_some_iff.mp here
  refine ⟨s.calls.take i, s.calls.drop (i + 1), ?_, fun call' => ?_⟩
  · rw [← drop_eq_getElem_cons inside, take_append_drop]
  · rw [set_eq_take_append_cons_drop, if_pos inside]

lemma stepsLeft_of_fewer {file' : List Line} (active : call.isReturned = false)
    (fewer : ∀ others, Fewer s.calls.length s.file.length (others + 1) call file'.length
      (pendingWith others call') call') :
    (s.update i call' file').stepsLeft < s.stepsLeft := by
  obtain ⟨front, back, whole, changed⟩ := split_calls here
  have some_call : 0 < s.calls.length := length_pos_of_mem (mem_of_getElem? here)
  have fewer := fewer ((front ++ back).countP fun call => !call.isReturned)
  have before : s.pending = ((front ++ back).countP fun call => !call.isReturned) + 1 := by
    rw [State.pending, whole, countP_middle, pendingWith, active, if_neg Bool.false_ne_true]
  have now : (s.update i call' file').pending =
      pendingWith ((front ++ back).countP fun call => !call.isReturned) call' := by
    rw [State.pending, State.update, changed call', countP_middle]
  have size : (s.update i call' file').calls.length = s.calls.length := length_set
  rw [State.stepsLeft, State.stepsLeft, size, now, before]
  change ((s.calls.set i call').map (Call.steps s.calls.length file'.length _)).sum < _
  rw [changed call']
  generalize s.calls.length = k at some_call fewer ⊢
  rw [whole, sum_middle, sum_middle]
  have rest := sum_map_le_add (f := Call.steps k file'.length (pendingWith
      ((front ++ back).countP fun call => !call.isReturned) call'))
    (g := Call.steps k s.file.length (((front ++ back).countP fun call => !call.isReturned) + 1))
    (b := 0) fun call (_ : call ∈ front ++ back) =>
      steps_le some_call fewer.total fewer.appends call
  have this := fewer.fewer
  rw [Nat.mul_zero, Nat.add_zero] at rest
  omega

/-- A copy that is written gives every other call at most the steps that the copy was worth. -/
lemma stepsLeft_write {copy : List Line} (writing : call.phase = .writing copy) :
    (s.update i { call with phase := .replacing, removed := true } copy).stepsLeft <
      s.stepsLeft := by
  obtain ⟨front, back, whole, changed⟩ := split_calls here
  have active : call.isReturned = false := by rw [Call.isReturned, writing]
  have same : (s.update i { call with phase := .replacing, removed := true } copy).pending =
      s.pending := by
    rw [State.pending, State.pending, State.update, changed, whole, countP_middle, countP_middle,
      pendingWith, pendingWith, active]
    rfl
  have size : (s.update i { call with phase := .replacing, removed := true } copy).calls.length =
      s.calls.length := length_set
  have total : s.calls.length = (front ++ back).length + 1 := by
    rw [whole, length_append, length_append, length_cons, Nat.add_assoc]
  rw [State.stepsLeft, State.stepsLeft, size, same]
  change ((s.calls.set i _).map (Call.steps s.calls.length copy.length _)).sum < _
  rw [changed, whole, sum_middle, sum_middle, ← whole]
  have rest := sum_map_le_add fun call (_ : call ∈ front ++ back) =>
    steps_le_add s.calls.length s.file.length copy.length s.pending call
  have worth : call.steps s.calls.length s.file.length s.pending =
      s.calls.length * (removalBound s.calls.length (copy.length + s.pending) + 2) + 1 := by
    rw [Call.steps, writing]
    rfl
  have left : Call.steps s.calls.length copy.length s.pending
      { call with phase := .replacing, removed := true } =
        removalBound s.calls.length (copy.length + s.pending) + 1 := rfl
  rw [worth, left]
  generalize removalBound s.calls.length (copy.length + s.pending) = bound at rest ⊢
  have share : s.calls.length * (bound + 2) = (front ++ back).length * (bound + 2) + (bound + 2) := by
    rw [total, succ_mul]
  omega

end

lemma stepsLeft_step {e : Event} (no_start : ∀ request, e ≠ .trust request)
    (taken : step format s e = some s') : s'.stepsLeft < s.stepsLeft := by
  rcases step_cases taken with ⟨request, start, -⟩ |
    ⟨i, call, call', file', here, active, rfl, ⟨-, moved⟩ | ⟨error, message, -, rfl, rfl⟩⟩
  · exact absurd start (no_start request)
  · cases phase : call.phase with
    | writing copy =>
      rw [Call.next, phase] at moved
      cases moved
      exact stepsLeft_write here phase
    | _ =>
      exact stepsLeft_of_fewer here active
        fun others => fewer_next (by rw [Call.isWriting, phase]) moved
  · exact stepsLeft_of_fewer here active fun others => fewer_returned active rfl (le_succ _)

/-- The key of every call that succeeded is trusted, unless a later one has replaced it. -/
def PinsKept (s : State) : Prop :=
  ∀ i call, s.calls[i]? = some call → call.isTrusted = true →
    hostKeyStatus s.file call.endpoint call.key = .trusted ∨
      ∃ j other, s.calls[j]? = some other ∧ other.Supersedes call ∧ s.Later i j

def Event.caller : Event → Option Nat
  | .trust _ => none
  | .advance i => some i
  | .fail i _ => some i

lemma consistent_initial (file : List Line) : Consistent file (initial file) where
  guarded _ member := nomatch member
  upToDate _ member := nomatch member
  succeeded _ member := nomatch member
  logged _ _ found := nomatch found
  kept _ _ found := nomatch found
  untouched := rfl

lemma Consistent.pinsKept (c : Consistent file₀ s)
    (finished : ∀ call ∈ s.calls, call.isReturned = true) : PinsKept s := by
  intro i call here trusted
  rcases c.kept i call here trusted with there | ⟨j, other, at_j, supersedes, later | ⟨-, active⟩⟩
  · exact .inl (hostKeyStatus_trusted.mpr there)
  · exact .inr ⟨j, other, at_j, supersedes, later⟩
  · have returned := finished other (mem_of_getElem? at_j)
    exact absurd (active.symm.trans returned) Bool.false_ne_true

lemma prefix_step {e : Event} (guarded : ∀ call ∈ s.calls, call.Guarded)
    (caller : e.caller = some i) (here : s.calls[i]? = some call) (keeps : call.replace = false)
    (taken : step format s e = some s') : s.file <+: s'.file := by
  rcases step_cases taken with ⟨request, rfl, -⟩ |
    ⟨j, call', next, file', there, -, rfl, ⟨rfl, moved⟩ | ⟨error, message, rfl, rfl, rfl⟩⟩
  · cases caller
  · cases caller
    cases here.symm.trans there
    exact (guarded_next (guarded call (mem_of_getElem? here)) moved).2 keeps
  · exact prefix_rfl

lemma advance_isSome (here : s.calls[i]? = some call) (active : call.isReturned = false) :
    (step format s (.advance i)).isSome = true := by
  have goes_on : (call.next format s.file).isSome = true := by
    unfold Call.next
    cases phase : call.phase with
    | returned result =>
      rw [Call.isReturned, phase] at active
      cases active
    | _ => rfl
  obtain ⟨⟨call', file'⟩, moved⟩ := isSome_iff_exists.mp goes_on
  rw [step, here]
  change ((call.next format s.file) >>= fun _ => _).isSome = true
  rw [moved]
  rfl

/-- In every run with exclusive changes no pin is lost and no line of another host is changed. In
every run, a call that may not replace keeps all lines, and the calls end under every schedule. -/
theorem pins_kept (format : KeyFormat) :
    (∀ file events s, run (step format) (initial file) events = some s →
      Along (step format) Exclusive (initial file) events →
      (∀ call ∈ s.calls, call.isReturned = true) →
      PinsKept s ∧ s.file.filter s.unnamed = file.filter s.unnamed) ∧
    (∀ file events s e s' i call, run (step format) (initial file) events = some s →
      s.calls[i]? = some call → call.replace = false → e.caller = some i →
      step format s e = some s' → s.file <+: s'.file) ∧
    (∀ s events s', (∀ e ∈ events, ∀ request, e ≠ .trust request) →
      run (step format) s events = some s' → events.length ≤ s.stepsLeft) ∧
    ∀ s i call, s.calls[i]? = some call → call.isReturned = false →
      (step format s (.advance i)).isSome = true := by
  refine ⟨?_, ?_, ?_, fun s i call => advance_isSome⟩
  · intro file events s ran exclusive finished
    have c := along_invariant (fun s e s' taken exclusive c => Consistent.step c exclusive taken)
      exclusive ran (consistent_initial file)
    exact ⟨c.pinsKept finished, c.untouched⟩
  · intro file events s e s' i call ran here keeps caller taken
    have guarded := run_invariant (fun s e s' taken => guarded_step taken) ran
      (fun call (member : call ∈ (initial file).calls) => nomatch member)
    exact prefix_step guarded caller here keeps taken
  · intro s events s' no_start ran
    have bounded := run_length_le (m := State.stepsLeft)
      (fun e member s s' taken => stepsLeft_step (no_start e member) taken) ran
    omega

def Call.copy (call : Call) : List Line :=
  match call.phase with
  | .writing lines => lines
  | _ => []

/-- A line that was there from the start, or the one of a call that has succeeded. -/
def State.Accepted (file₀ : List Line) (s : State) (line : Line) : Prop :=
  line ∈ file₀ ∨ ∃ call ∈ s.calls, call.isTrusted = true ∧ call.line = line

/-- Neither the file nor a copy of it has any other line. -/
structure OnlyAccepted (file₀ : List Line) (s : State) : Prop where
  file : ∀ line ∈ s.file, s.Accepted file₀ line
  copies : ∀ call ∈ s.calls, ∀ line ∈ call.copy, s.Accepted file₀ line

lemma next_lines {file file' : List Line} (taken : call.next format file = some (call', file')) :
    (∀ line ∈ file', line ∈ file ∨ line ∈ call.copy ∨
      call'.isTrusted = true ∧ call'.line = line) ∧ ∀ line ∈ call'.copy, line ∈ file := by
  unfold Call.next at taken
  cases phase : call.phase with
  | checking =>
    rw [phase] at taken
    cases taken
    refine ⟨fun line there => .inl there, ?_⟩
    cases hostKeyStatus file call.endpoint call.key with
    | changed n => cases replaces : call.replace <;> simp [Call.check, Call.refuse, Call.copy, replaces]
    | _ => exact fun _ member => nomatch member
  | replacing =>
    rw [phase] at taken
    cases taken
    refine ⟨fun line there => .inl there, ?_⟩
    cases hostKeyStatus file call.endpoint call.key <;> exact fun _ member => nomatch member
  | removing n =>
    rw [phase] at taken
    cases taken
    refine ⟨fun line there => .inl there, ?_⟩
    by_cases outside : n = 0 ∨ file.length < n
    · rw [Call.readWithout, if_pos outside]
      exact fun _ member => nomatch member
    · rw [Call.readWithout, if_neg outside]
      exact fun line member => (eraseIdx_sublist ..).mem member
  | writing lines =>
    rw [phase] at taken
    cases taken
    rw [Call.copy, phase]
    exact ⟨fun line there => .inr (.inl there), fun _ member => nomatch member⟩
  | learning =>
    rw [phase] at taken
    cases taken
    refine ⟨fun line there => ?_, fun _ member => nomatch member⟩
    rcases mem_append.mp there with old | new
    · exact .inl old
    · exact .inr (.inr ⟨finish_isTrusted call, (mem_singleton.mp new).symm⟩)
  | returned result =>
    rw [phase] at taken
    cases taken

lemma OnlyAccepted.update {file' : List Line} (h : OnlyAccepted file₀ s)
    (here : s.calls[i]? = some call) (active : call.isReturned = false)
    (lines : ∀ line ∈ file', line ∈ s.file ∨ line ∈ call.copy ∨
      call'.isTrusted = true ∧ call'.line = line)
    (copied : ∀ line ∈ call'.copy, line ∈ s.file) :
    OnlyAccepted file₀ (s.update i call' file') := by
  have still : ∀ line, s.Accepted file₀ line → (s.update i call' file').Accepted file₀ line := by
    rintro line (first | ⟨other, member, trusted, rfl⟩)
    · exact .inl first
    · obtain ⟨j, found⟩ := mem_iff_getElem?.mp member
      have differ : i ≠ j := by
        rintro rfl
        cases here.symm.trans found
        exact absurd (active.symm.trans (isReturned_of_isTrusted trusted)) Bool.false_ne_true
      exact .inr ⟨other, mem_of_getElem? ((getElem?_set_ne differ).trans found), trusted, rfl⟩
  constructor
  · intro line there
    rcases lines line there with old | copy | ⟨trusted, rfl⟩
    · exact still line (h.file line old)
    · exact still line (h.copies call (mem_of_getElem? here) line copy)
    · exact .inr ⟨call', mem_set (List.getElem?_eq_some_iff.mp here).1 .., trusted, rfl⟩
  · intro other member line inside
    rcases mem_or_eq_of_mem_set member with old | rfl
    · exact still line (h.copies other old line inside)
    · exact still line (h.file line (copied line inside))

lemma OnlyAccepted.step {e : Event} (h : OnlyAccepted file₀ s)
    (taken : step format s e = some s') : OnlyAccepted file₀ s' := by
  rcases step_cases taken with ⟨-, -, rfl | ⟨call, checking, -, rfl⟩⟩ |
    ⟨i, call, call', file', here, active, rfl, ⟨rfl, moved⟩ | ⟨error, message, rfl, rfl, rfl⟩⟩
  · exact h
  · have still : ∀ line, s.Accepted file₀ line →
        State.Accepted file₀ { s with calls := s.calls ++ [call] } line := fun line =>
      Or.imp_right fun ⟨other, member, found⟩ => ⟨other, mem_append_left _ member, found⟩
    refine ⟨fun line there => still line (h.file line there), fun other member line inside => ?_⟩
    rcases mem_append.mp member with old | new
    · exact still line (h.copies other old line inside)
    · rw [mem_singleton.mp new, Call.copy, checking] at inside
      cases inside
  · exact h.update here active (next_lines moved).1 (next_lines moved).2
  · exact h.update here active (fun line there => .inl there) fun _ member => nomatch member

/-- Whatever happens to the calls, the file holds no line but those it began with and those of
calls that succeeded. -/
theorem lines_accepted {file : List Line} {events : List Event}
    (ran : run (step format) (initial file) events = some s) :
    ∀ line ∈ s.file, s.Accepted file line := by
  have start : OnlyAccepted file (initial file) :=
    ⟨fun line there => .inl there, fun _ member => nomatch member⟩
  have kept : OnlyAccepted file s := run_invariant (fun _ _ _ taken h => h.step taken) ran start
  exact kept.file

end States

section Example

/-- Keys that are written as their data. -/
def plainFormat : KeyFormat where
  fromOpenssh text := .ok ⟨"ssh-ed25519".toList, text⟩
  toOpenssh key := .ok key.data
  toOpenssh_ok key := ⟨key.data, rfl⟩
  fingerprint key := key.data

def lineOf (host data : String) : Line :=
  ⟨⟨host.toList, 22⟩, ⟨"ssh-ed25519".toList, data.toList⟩⟩

def requestFor (host data : String) (replace : Bool) : TrustSshHostKeyRequest :=
  ⟨host.toList, none, data.toList, replace⟩

/-- One call replaces a key, and then another one learns a new host. -/
def oneAfterTheOther : List Event :=
  [.trust (requestFor "a" "new" true), .advance 0, .advance 0, .advance 0, .advance 0, .advance 0,
    .advance 0, .trust (requestFor "c" "key" false), .advance 1, .advance 1]

theorem pins_kept_in_use :
    (∃ s, run (step plainFormat) (initial [lineOf "a" "old", lineOf "b" "key"]) oneAfterTheOther =
        some s ∧ PinsKept s ∧
      s.file.filter s.unnamed = [lineOf "a" "old", lineOf "b" "key"].filter s.unnamed) ∧
    (∃ s s', run (step plainFormat) (initial []) [.trust (requestFor "c" "key" false)] = some s ∧
      step plainFormat s (.advance 0) = some s' ∧ s.file <+: s'.file ∧
      [Event.advance 0, .advance 0].length ≤ s.stepsLeft ∧
      (step plainFormat s (.advance 0)).isSome = true) := by
  have kept := pins_kept plainFormat
  constructor
  · refine ⟨_, rfl, ?_⟩
    refine kept.1 [lineOf "a" "old", lineOf "b" "key"] oneAfterTheOther _ rfl ?_ ?_
    · decide +kernel
    · decide +kernel
  · refine ⟨_, _, rfl, rfl, ?_, ?_, ?_⟩
    · exact kept.2.1 [] [.trust (requestFor "c" "key" false)] _ (.advance 0) _ 0 _ rfl rfl rfl rfl rfl
    · refine kept.2.2.1 _ [.advance 0, .advance 0] _ ?_ rfl
      intro e member request start
      rw [start] at member
      simp at member
    · exact kept.2.2.2 _ 0 _ rfl rfl

/-- Two calls remove a line by the same number. -/
def staleNumber : List Event :=
  [.trust (requestFor "a" "new" true), .trust (requestFor "a" "newer" true),
    .advance 0, .advance 1, .advance 0, .advance 1, .advance 0, .advance 0, .advance 1, .advance 1,
    .advance 0, .advance 0, .advance 1, .advance 1, .advance 1, .advance 1, .advance 1]

/-- One call learns a key while another one holds a copy of the file. -/
def staleCopy : List Event :=
  [.trust (requestFor "a" "new" true), .trust (requestFor "c" "key" false),
    .advance 0, .advance 0, .advance 0, .advance 1, .advance 1, .advance 0, .advance 0, .advance 0]

theorem stale_lines_accepted :
    ∃ s, run (step plainFormat) (initial [lineOf "a" "old"]) staleCopy = some s ∧
      ∀ line ∈ s.file, s.Accepted [lineOf "a" "old"] line := by
  refine ⟨_, rfl, ?_⟩
  exact lines_accepted (show run (step plainFormat) _ staleCopy = some _ from rfl)

/-- The key of a host that no call names is lost, and so is the key of a call that succeeded. -/
theorem pins_are_lost :
    (∃ s, run (step plainFormat) (initial [lineOf "a" "old", lineOf "b" "key"]) staleNumber =
        some s ∧ s.calls.all Call.isReturned = true ∧
      s.file.filter s.unnamed ≠ [lineOf "a" "old", lineOf "b" "key"].filter s.unnamed) ∧
    ∃ s, run (step plainFormat) (initial [lineOf "a" "old"]) staleCopy = some s ∧
      s.calls.all Call.isReturned = true ∧ ¬ PinsKept s := by
  constructor
  · exact ⟨_, rfl, by decide +kernel, by decide +kernel⟩
  · refine ⟨_, rfl, by decide +kernel, fun kept => ?_⟩
    rcases kept 1 _ rfl rfl with trusted | ⟨j, other, at_j, ⟨replaces, endpoint, -⟩, -⟩
    · exact absurd trusted (by decide +kernel)
    · match j with
      | 0 =>
        cases at_j
        exact absurd endpoint (by decide +kernel)
      | 1 =>
        cases at_j
        cases replaces
      | _ + 2 => cases at_j

end Example

end Ssh.KnownHosts
