import KKTerm.Sftp.LocalTree

/-!
# Downloads that fail

A download that must not overwrite creates its folders and files only where there is nothing.
After a failure it removes what is at the path of the file, because there was nothing when it
looked. It destroys nothing and leaves nothing unfinished exactly when that removal meets no
file or link of others, and does not fail on its own file.
-/

namespace Sftp.OnTree

open Effects Paths FileTree Change Fallible

/-- The entries of others are as they were. -/
def LocalCall.Harmless (call : LocalCall) : Prop :=
  ∀ place e, place ∉ call.own → entry call.before place = some e →
    entry call.after place = some e

/-- A removal meets no entry of others that can be removed as a file, and is not made to fail on an
own file that is not finished. -/
def LocalCall.Spares (links : Nat) (call : LocalCall) : Prop :=
  ∀ path place, call.change = .removeFile path →
    locate call.before links path = .ok (.found place) →
    (∀ e, place ∉ call.own → entry call.before place = some e → e = .dir ∨ call.fault.isSome) ∧
      (place ∈ call.unfinished → call.fault = none)

def Good (links : Nat) (s : Local) : Prop :=
  ∀ call ∈ s.calls, call.Harmless ∧ call.Spares links

def Idle (links : Nat) (s : Local) : Prop :=
  Good links s ∧ s.unfinished = []

/-- A file was created at the path and is being written. -/
structure Writing (links : Nat) (path place : Path) (s : Local) : Prop where
  good : Good links s
  only : s.unfinished = [place]
  own : place ∈ s.own
  file : ∃ content, entry s.tree place = some (.file content)
  located : locate s.tree links path = .ok (.found place)

def Begun (links : Nat) (path : Path) (s : Local) : Prop :=
  Idle links s ∨ ∃ place, Writing links path place s

/-- Nothing of others was changed, and nothing unfinished is left of a failure, exactly when the
removals met nothing of others and did not fail. -/
def Judged (links : Nat) (stop : Stop) (s : Local) : Prop :=
  ((∀ call ∈ s.calls, call.Harmless) ∧ ((∃ message, stop = .failed message) → s.unfinished = [])) ↔
    ∀ call ∈ s.calls, call.Spares links

section Predicates
variable {links : Nat} {path place : Path} {s : Local} {stop : Stop}

lemma Good.judged (good : Good links s)
    (finished : (∃ message, stop = .failed message) → s.unfinished = []) : Judged links stop s :=
  iff_of_true ⟨fun call member => (good call member).1, finished⟩
    (fun call member => (good call member).2)

lemma Idle.judged (idle : Idle links s) : Judged links stop s :=
  idle.1.judged fun _ => idle.2

lemma Begun.good (begun : Begun links path s) : Good links s := by
  rcases begun with idle | ⟨place, writing⟩
  · exact idle.1
  · exact writing.good

/-- The predicate does not depend on the requests to the server. -/
def Apart (P : Local → Prop) : Prop :=
  ∀ s base, P s → P { s with base }

lemma Idle.apart : Apart (Idle links) :=
  fun _ _ idle => idle

lemma Writing.apart : Apart (Writing links path place) :=
  fun _ _ writing => ⟨writing.good, writing.only, writing.own, writing.file, writing.located⟩

lemma Begun.apart : Apart (Begun links path) :=
  fun s base begun => begun.imp (Idle.apart s base)
    (fun ⟨place, writing⟩ => ⟨place, writing.apart s base⟩)

/-- The predicate still holds when others have created entries. -/
def Stable (P : Local → Prop) : Prop :=
  ∀ s tree, Kept s.tree tree → P s → P { s with tree }

lemma Idle.stable : Stable (Idle links) :=
  fun _ _ _ idle => idle

lemma Writing.stable : Stable (Writing links path place) := by
  intro s tree kept writing
  obtain ⟨content, file⟩ := writing.file
  exact ⟨writing.good, writing.only, writing.own, kept.file file, locate_kept kept writing.located⟩

lemma Begun.stable : Stable (Begun links path) :=
  fun s tree kept begun => begun.imp (Idle.stable s tree kept)
    (fun ⟨place, writing⟩ => ⟨place, writing.stable s tree kept⟩)

end Predicates

section Steps
variable {d : Surroundings} {α : Type} {P : Local → Prop} {E : Stop → Local → Prop}

lemma kept_insert {t : Tree} {place : Path} (absent : entry t place = none) (e : Entry) :
    Kept t (t.insert place e) := by
  intro p held present
  rw [entry_insert (ne_nil_of_absent absent)]
  split_ifs with same
  · rw [same, absent] at present
    cases present
  · exact ⟨held, present, .refl held⟩

lemma kept_createEntry (t : Tree) (new : Path × Entry) : Kept t (createEntry t new) := by
  rw [createEntry]
  split_ifs with absent
  · exact kept_insert absent new.2
  · exact .refl t

lemma kept_others (created : List (Path × Entry)) (t : Tree) :
    Kept t (created.foldl createEntry t) := by
  induction created generalizing t with
  | nil => exact .refl t
  | cons new created ih => exact (kept_createEntry t new).trans (ih _)

lemma triple_remote {x : Transfer α} (apart : Apart P) (stops : ∀ e s, P s → E e s) :
    Triple P (remote x) (fun _ => P) E := by
  refine triple_step (fun s a s' start made => ?_) (fun s e s' start made => ?_)
  · cases (Prod.ext_iff.mp made).2
    exact apart s _ start
  · cases (Prod.ext_iff.mp made).2
    exact stops e _ (apart s _ start)

lemma triple_localRequest (apart : Apart P) (stable : Stable P) :
    Triple P (localRequest d) (fun _ => P) E := by
  refine triple_step (fun s now s' start made => ?_) (fun s e s' _ made => nomatch made)
  cases made
  exact apart _ _ (stable s _ (kept_others _ _) start)

/-- The state that a call leaves, with the call written down. -/
def recorded (change : Change) (fault : Option (List Char)) (s s' : Local) : Local :=
  { s' with calls := s.calls ++ [⟨change, s.own, s.unfinished, fault, s.tree, s'.tree⟩] }

lemma triple_perform {Q : α → Local → Prop} {context : String} {change : Change}
    {call : Local → Except Failure (α × Local)} {partly : Nat → Local → Local} (apart : Apart P)
    (stable : Stable P)
    (returns : ∀ s a s', P s → call s = .ok (a, s') → Q a (recorded change none s s'))
    (refuses : ∀ s e message, P s → call s = .error e →
      E (.failed message) (recorded change none s s))
    (faults : ∀ s now error message, P s →
      E (.failed message) (recorded change (some error) s (partly now s))) :
    Triple P (perform d context change call partly) Q E := by
  refine triple_bind (triple_localRequest apart stable) fun now => ?_
  refine triple_step (fun s a s' start made => ?_) (fun s e s' start made => ?_)
  · cases fault : d.fault now with
    | some error =>
      simp only [fault] at made
      cases made
    | none =>
      simp only [fault] at made
      cases called : call s with
      | error e =>
        rw [called] at made
        cases made
      | ok result =>
        rw [called] at made
        cases made
        exact returns s result.1 result.2 start called
  · cases fault : d.fault now with
    | some error =>
      simp only [fault] at made
      cases made
      exact faults s now error _ start
    | none =>
      simp only [fault] at made
      cases called : call s with
      | error e =>
        rw [called] at made
        cases made
        exact refuses s e _ start called
      | ok result =>
        rw [called] at made
        cases made

end Steps

section Calls
variable {d : Surroundings} {links : Nat} {path place : Path} {s s' : Local} {change : Change}
  {fault : Option (List Char)}

lemma mem_calls_recorded {call : LocalCall} :
    call ∈ (recorded change fault s s').calls ↔ call ∈ s.calls ∨
      call = ⟨change, s.own, s.unfinished, fault, s.tree, s'.tree⟩ := by
  rw [recorded, List.mem_append, List.mem_singleton]

lemma Good.recorded (good : Good links s) (other : ∀ path, change ≠ .removeFile path)
    (harmless : ∀ p e, p ∉ s.own → entry s.tree p = some e → entry s'.tree p = some e) :
    Good links (recorded change fault s s') := by
  intro call member
  rcases mem_calls_recorded.mp member with earlier | rfl
  · exact good call earlier
  · exact ⟨harmless, fun path _ same => absurd same (other path)⟩

lemma Good.unchanged (good : Good links s) (other : ∀ path, change ≠ .removeFile path) :
    Good links (OnTree.recorded change fault s s) :=
  good.recorded other fun _ _ _ present => present

variable {t : Tree} {new : Entry}

lemma vacantPlace_eq_ok (vacant : vacantPlace t links path = .ok place) :
    locate t links path = .ok (.vacant place) := by
  obtain ⟨end_, located, rest⟩ := bind_eq_ok.mp vacant
  cases end_ with
  | found reached => cases rest
  | vacant reached =>
    cases rest
    exact located

lemma entry_insert_of_present {p : Path} {e : Entry} (absent : entry t place = none)
    (present : entry t p = some e) : entry (t.insert place new) p = some e := by
  rw [entry_insert (ne_nil_of_absent absent), if_neg]
  · exact present
  · rintro rfl
    cases absent.symm.trans present

/-- A file that was put where there was nothing is what the path names. -/
lemma locate_insert (located : locate t links path = .ok (.vacant place)) :
    locate (t.insert place new) links path = .ok (.found place) := by
  have absent := (locate_vacant located).1
  have kept := kept_insert absent new
  rcases locate_eq_ok located with
    ⟨parent, leads⟩ | ⟨front, name, base, rfl, ordinary, leads, dir, same⟩
  · obtain ⟨front, name, rfl, ordinary⟩ := leads.last_ordinary
    exact absurd (parent front name rfl) ordinary
  · split_ifs at same
    cases same
    refine locate_child (leads.kept kept) (kept.dir dir) ordinary ?_
    rw [entry_insert (ne_nil_of_absent absent), if_pos rfl]
    nofun

lemma Writing.writeAt (writing : Writing links path place s) (bytes : List UInt8)
    (other : ∀ path, change ≠ .removeFile path) :
    Writing links path place (OnTree.recorded change fault s (OnTree.writeAt place bytes s)) := by
  obtain ⟨old, file⟩ := writing.file
  have spot : FilePlace s.tree place := .inr ⟨old, file⟩
  have kept : Kept s.tree (OnTree.writeAt place bytes s).tree := (Grown.insert_file spot _).kept
  refine ⟨writing.good.recorded other fun p e foreign present => ?_, writing.only, writing.own,
    kept.file file, locate_kept kept writing.located⟩
  rw [OnTree.writeAt, entry_insert spot.ne_nil, if_neg]
  · exact present
  · rintro rfl
    exact foreign writing.own

end Calls

section Files
variable {d : Surroundings} {localPath place : Path} {E : Stop → Local → Prop}

lemma triple_localExists {P : Local → Prop} (apart : Apart P) (stable : Stable P) (path : Path) :
    Triple P (localExists d path) (fun _ => P) E := by
  refine triple_bind (triple_localRequest apart stable) fun now => ?_
  refine triple_step (fun s a s' start made => ?_) (fun s e s' _ made => nomatch made)
  cases made
  exact start

lemma triple_ensureLocalMissing (stops : ∀ e s, Idle d.links s → E e s) :
    Triple (Idle d.links) (ensureLocalMissing d localPath) (fun _ => Idle d.links) E := by
  refine triple_bind (triple_localExists Idle.apart Idle.stable localPath) fun there => ?_
  cases there with
  | false => exact triple_pure fun _ idle => idle
  | true => exact triple_throw fun s idle => stops _ s idle

lemma triple_createLocalDir (stops : ∀ e s, Idle d.links s → E e s) :
    Triple (Idle d.links) (createLocalDir d localPath) (fun _ => Idle d.links) E := by
  have other : ∀ path, createDir localPath ≠ .removeFile path := nofun
  refine triple_perform Idle.apart Idle.stable ?_ ?_ ?_
  · intro s _ s' idle made
    obtain ⟨place, vacant, rest⟩ := bind_eq_ok.mp made
    cases rest
    have absent := (locate_vacant (vacantPlace_eq_ok vacant)).1
    exact ⟨idle.1.recorded other fun _ _ _ present => entry_insert_of_present absent present,
      idle.2⟩
  · exact fun s e message idle _ => stops _ _ ⟨idle.1.unchanged other, idle.2⟩
  · exact fun s now error message idle => stops _ _ ⟨idle.1.unchanged other, idle.2⟩

lemma triple_openLocalFile :
    Triple (Idle d.links) (openLocalFile d localPath .fail)
      (fun place => Writing d.links localPath place) (fun _ => Begun d.links localPath) := by
  have other : ∀ path, openFile localPath .fail ≠ .removeFile path := nofun
  refine triple_perform Idle.apart Idle.stable ?_ ?_ ?_
  · intro s place s' idle made
    obtain ⟨_, vacant, rest⟩ := bind_eq_ok.mp made
    cases rest
    have located := vacantPlace_eq_ok vacant
    have absent := (locate_vacant located).1
    refine ⟨idle.1.recorded other fun _ _ _ present => entry_insert_of_present absent present,
      ?_, List.mem_cons_self, ⟨[], ?_⟩, locate_insert located⟩
    · exact congrArg (place :: ·) idle.2
    · exact (entry_insert (ne_nil_of_absent absent) place).trans (if_pos rfl)
  · exact fun s e message idle _ => .inl ⟨idle.1.unchanged other, idle.2⟩
  · exact fun s now error message idle => .inl ⟨idle.1.unchanged other, idle.2⟩

lemma triple_writeChunk (bytes : List UInt8) :
    Triple (Writing d.links localPath place) (writeChunk d localPath place bytes)
      (fun _ => Writing d.links localPath place) (fun _ => Begun d.links localPath) := by
  have other : ∀ path, writeAll localPath bytes.length ≠ .removeFile path := nofun
  refine triple_perform Writing.apart Writing.stable ?_ nofun ?_
  · intro s _ s' writing made
    cases made
    exact writing.writeAt bytes other
  · intro s now error message writing
    exact .inr ⟨place, writing.writeAt _ other⟩

lemma Writing.begun {s : Local} (writing : Writing d.links localPath place s) :
    Begun d.links localPath s :=
  .inr ⟨place, writing⟩

lemma triple_copyChunk :
    Triple (Writing d.links localPath place) (copyChunk d localPath place)
      (fun _ => Writing d.links localPath place) (fun _ => Begun d.links localPath) := by
  refine triple_bind (triple_remote Writing.apart fun _ _ => Writing.begun) fun _ => ?_
  refine triple_bind (triple_remote Writing.apart fun _ _ => Writing.begun) fun size => ?_
  split_ifs
  · exact triple_pure fun _ writing => writing
  · have read : Triple (Writing d.links localPath place) (chunk d size)
        (fun _ => Writing d.links localPath place) (fun _ => Begun d.links localPath) := by
      refine triple_step (fun s a s' writing made => ?_) (fun s e s' _ made => nomatch made)
      cases made
      exact writing
    refine triple_bind read fun bytes => triple_bind (triple_writeChunk bytes) fun _ => ?_
    refine triple_bind (triple_remote Writing.apart fun _ _ => Writing.begun) fun _ => ?_
    exact triple_pure fun _ writing => writing

lemma triple_copyChunks (fuel : Nat) :
    Triple (Writing d.links localPath place) (copyChunks d localPath place fuel)
      (fun _ => Writing d.links localPath place) (fun _ => Begun d.links localPath) := by
  induction fuel with
  | zero => exact triple_throw fun _ => Writing.begun
  | succ fuel ih =>
    refine triple_bind triple_copyChunk fun goesOn => ?_
    cases goesOn with
    | false => exact triple_pure fun _ writing => writing
    | true => exact ih

lemma triple_flushFile :
    Triple (Writing d.links localPath place) (flushFile d localPath)
      (fun _ => Writing d.links localPath place) (fun _ => Begun d.links localPath) := by
  have other : ∀ path, flush localPath ≠ .removeFile path := nofun
  have same : ∀ s fault, Writing d.links localPath place s →
      Writing d.links localPath place (recorded (.flush localPath) fault s s) :=
    fun s fault writing => ⟨writing.good.unchanged other, writing.only, writing.own, writing.file,
      writing.located⟩
  refine triple_perform Writing.apart Writing.stable ?_ nofun ?_
  · intro s _ s' writing made
    cases made
    exact same s none writing
  · exact fun s now error message writing => (same s _ writing).begun

/-- A download that succeeds leaves nothing unfinished; after a failure its file may be there. -/
lemma triple_downloadFileChunks (fuel : Nat) :
    Triple (Idle d.links) (downloadFileChunks d fuel localPath .fail) (fun _ => Idle d.links)
      (fun _ => Begun d.links localPath) := by
  refine triple_bind triple_openLocalFile fun place => ?_
  refine triple_bind (triple_copyChunks fuel) fun _ => triple_bind triple_flushFile fun _ => ?_
  refine triple_bind (triple_remote Writing.apart fun _ _ => Writing.begun) fun _ => ?_
  refine triple_step (fun s a s' writing made => ?_) (fun s e s' _ made => nomatch made)
  cases made
  refine ⟨writing.good, ?_⟩
  change s.unfinished.filter (fun p => decide (p ≠ place)) = []
  rw [writing.only]
  simp

end Files

section CleanUp
variable {d : Surroundings} {links : Nat} {path place : Path} {s s' : Local}
  {fault : Option (List Char)}

/-- Where all earlier calls were good, the last one decides. -/
lemma judged_recorded {change : Change} (good : Good links s)
    (last : (LocalCall.Harmless ⟨change, s.own, s.unfinished, fault, s.tree, s'.tree⟩ ∧
        s'.unfinished = []) ↔
      LocalCall.Spares links ⟨change, s.own, s.unfinished, fault, s.tree, s'.tree⟩)
    (message : List Char) : Judged links (.failed message) (recorded change fault s s') := by
  rw [Judged]
  simp only [mem_calls_recorded, or_imp, forall_and, forall_eq]
  have earlier : ∀ call ∈ s.calls, call.Harmless := fun call member => (good call member).1
  have spared : ∀ call ∈ s.calls, call.Spares links := fun call member => (good call member).2
  have failed : ∃ other, Stop.failed message = .failed other := ⟨message, rfl⟩
  constructor
  · rintro ⟨⟨-, harmless⟩, finished⟩
    exact ⟨spared, last.mp ⟨harmless, finished failed⟩⟩
  · rintro ⟨-, spares⟩
    obtain ⟨harmless, finished⟩ := last.mpr spares
    exact ⟨⟨earlier, harmless⟩, fun _ => finished⟩

/-- A removal that is made to fail leaves the own file, if there is one. -/
lemma judged_fault (begun : Begun links path s) (error message : List Char) :
    Judged links (.failed message) (recorded (.removeFile path) (some error) s s) := by
  refine judged_recorded begun.good ?_ message
  have harmless : LocalCall.Harmless
      ⟨.removeFile path, s.own, s.unfinished, some error, s.tree, s.tree⟩ :=
    fun _ _ _ present => present
  rcases begun with ⟨-, finished⟩ | ⟨place, writing⟩
  · refine iff_of_true ⟨harmless, finished⟩ fun _ p _ _ => ⟨fun _ _ _ => .inr rfl, fun member => ?_⟩
    rw [finished] at member
    cases member
  · refine iff_of_false (fun both => ?_) fun spares => ?_
    · cases writing.only.symm.trans both.2
    · have none_ := (spares path place rfl writing.located).2
        (writing.only ▸ List.mem_singleton_self place)
      cases none_

/-- A removal that finds no file does no harm, and then there is no own one. -/
lemma judged_refused {e : Failure} (begun : Begun links path s)
    (refused : removeAt links path s = .error e) (message : List Char) :
    Judged links (.failed message) (recorded (.removeFile path) none s s) := by
  refine judged_recorded begun.good ?_ message
  have dir : ∀ place, locate s.tree links path = .ok (.found place) →
      entry s.tree place = some .dir := by
    intro place located
    by_contra other
    rw [removeAt, located] at refused
    simp only [bind, Except.bind, if_neg other] at refused
    cases refused
  rcases begun with ⟨-, finished⟩ | ⟨place, writing⟩
  · refine iff_of_true ⟨fun _ _ _ present => present, finished⟩ fun _ place same located => ?_
    cases same
    refine ⟨fun e _ present => .inl ?_, fun member => ?_⟩
    · exact Option.some.inj (present.symm.trans (dir place located))
    · rw [finished] at member
  · obtain ⟨content, file⟩ := writing.file
    cases file.symm.trans (dir place writing.located)

/-- A removal takes away what is at the path: an own file, or an entry of others. -/
lemma judged_removed {u : Unit} (begun : Begun links path s)
    (removed : removeAt links path s = .ok (u, s')) (message : List Char) :
    Judged links (.failed message) (recorded (.removeFile path) none s s') := by
  refine judged_recorded begun.good ?_ message
  obtain ⟨end_, located, rest⟩ := bind_eq_ok.mp removed
  cases end_ with
  | vacant reached => cases rest
  | found place =>
    simp only at rest
    split_ifs at rest with dir
    cases rest
    have finished : s.unfinished.filter (fun p => decide (p ≠ place)) = [] := by
      rcases begun with ⟨-, finished⟩ | ⟨own, writing⟩
      · rw [finished]
        rfl
      · cases located.symm.trans writing.located
        rw [writing.only]
        simp
    constructor
    · rintro ⟨harmless, -⟩ _ p same located'
      cases same
      cases located.symm.trans located'
      refine ⟨fun e foreign present => ?_, fun _ => rfl⟩
      have stays := harmless place e foreign present
      rw [entry, if_neg, AList.lookup_erase] at stays
      · cases stays
      · rintro rfl
        exact dir rfl
    · intro spares
      refine ⟨fun p e foreign present => ?_, finished⟩
      rcases eq_or_ne p place with rfl | differ
      · rcases (spares path p rfl located).1 e foreign present with rfl | fault
        · exact absurd present dir
        · cases fault
      · exact (entry_erase differ).trans present

lemma triple_removeNew (message : List Char) :
    Triple (Begun d.links path) (removeNew d path false)
      (fun _ => Judged d.links (.failed message)) (fun _ _ => False) := by
  refine triple_tryCatch (M := fun _ => Judged d.links (.failed message)) ?_
    fun _ => triple_pure fun _ judged => judged
  refine triple_perform Begun.apart Begun.stable ?_ ?_ ?_
  · exact fun s _ s' begun removed => judged_removed begun removed message
  · exact fun s e _ begun refused => judged_refused begun refused message
  · exact fun s now error _ begun => judged_fault begun error message

lemma triple_closeRemote {E : Stop → Local → Prop} (error : List Char) :
    Triple (Begun d.links path) (remote (closeRemote error)) (fun _ => Begun d.links path) E := by
  have returns : ∀ base, ∃ base', after (closeRemote error) base = (.ok (), base') := by
    intro base
    rw [closeRemote]
    split_ifs
    · exact ⟨base, rfl⟩
    · exact ⟨{ base with tick := base.tick + 1 }, rfl⟩
  refine triple_step (fun s a s' begun made => ?_) (fun s e s' begun made => ?_)
  · cases (Prod.ext_iff.mp made).2
    exact begun.apart s _
  · obtain ⟨base', same⟩ := returns s.base
    rw [same] at made
    cases made

lemma triple_cleanUp (stop : Stop) :
    Triple (Begun d.links path) (cleanUp d path false stop) (fun _ => Idle d.links)
      (Judged d.links) := by
  cases stop with
  | outOfFuel =>
    refine triple_throw fun s begun => begun.good.judged ?_
    rintro ⟨_, same⟩
    cases same
  | failed error =>
    refine triple_bind (triple_closeRemote error) fun _ => ?_
    refine triple_bind (triple_weaken (triple_removeNew error) (fun _ start => start)
      (fun _ _ judged => judged) (fun _ _ never => never.elim)) fun _ => ?_
    exact triple_throw fun _ judged => judged

end CleanUp

section Trees
variable {d : Surroundings}

variable (fuel : Nat) (remotePath : List Char) (localPath : Path)

lemma triple_downloadFile :
    Triple (Idle d.links) (downloadFile d fuel remotePath localPath .fail) (fun _ => Idle d.links)
      (Judged d.links) := by
  have prepare : Triple (Idle d.links) (prepareLocalDownloadFile d localPath .fail)
      (fun existed s => Idle d.links s ∧ existed = false) (Judged d.links) :=
    triple_bind (triple_ensureLocalMissing fun _ _ => Idle.judged) fun _ =>
      triple_pure fun _ idle => ⟨idle, rfl⟩
  refine triple_bind prepare fun existed => triple_of_and ?_
  rintro rfl
  refine triple_bind (triple_remote Idle.apart fun _ _ => Idle.judged) fun _ => ?_
  refine triple_bind (triple_tryCatch (triple_downloadFileChunks fuel) triple_cleanUp) fun _ => ?_
  exact triple_remote Idle.apart fun _ _ => Idle.judged

lemma triple_downloadFolder {visit : List Char → Path → LocalTransfer Unit}
    (each : ∀ remotePath localPath, Triple (Idle d.links) (visit remotePath localPath)
      (fun _ => Idle d.links) (Judged d.links))
    (remotePath : List Char) (localPath : Path) :
    Triple (Idle d.links) (downloadFolder d visit remotePath localPath .fail)
      (fun _ => Idle d.links) (Judged d.links) := by
  have prepare : Triple (Idle d.links) (prepareLocalDownloadDirectory d localPath .fail)
      (fun _ => Idle d.links) (Judged d.links) :=
    triple_bind (triple_ensureLocalMissing fun _ _ => Idle.judged) fun _ =>
      triple_createLocalDir fun _ _ => Idle.judged
  refine triple_bind prepare fun _ => ?_
  refine triple_bind (triple_remote Idle.apart fun _ _ => Idle.judged) fun _ => ?_
  refine triple_bind (triple_remote Idle.apart fun _ _ => Idle.judged) fun entries => ?_
  exact triple_forM fun childName _ => each _ _

lemma triple_downloadRemoteEntry :
    Triple (Idle d.links) (downloadRemoteEntry d .fail fuel remotePath localPath)
      (fun _ => Idle d.links) (Judged d.links) := by
  induction fuel generalizing remotePath localPath with
  | zero => exact triple_throw fun _ => Idle.judged
  | succ fuel ih =>
    refine triple_bind (triple_remote Idle.apart fun _ _ => Idle.judged) fun _ => ?_
    refine triple_bind (triple_remote Idle.apart fun _ _ => Idle.judged) fun metadata => ?_
    cases metadata.fileType with
    | dir => exact triple_downloadFolder ih remotePath localPath
    | file => exact triple_downloadFile fuel remotePath localPath
    | symlink => exact triple_throw fun _ => Idle.judged
    | other => exact triple_throw fun _ => Idle.judged

end Trees

/-- A download that must not overwrite leaves what is not its own as it was, and nothing of its own
unfinished when it fails, exactly when its removals spare the entries of others and succeed. -/
theorem nothing_destroyed_iff (d : Surroundings) (fuel : Nat) (remotePath : List Char)
    (localPath : Path) (tree : Tree) :
    ((∀ call ∈ (after (downloadRemoteEntry d .fail fuel remotePath localPath)
          (.initial tree)).2.calls, call.Harmless) ∧
        ((∃ message, (after (downloadRemoteEntry d .fail fuel remotePath localPath)
            (.initial tree)).1 = .error (.failed message)) →
          (after (downloadRemoteEntry d .fail fuel remotePath localPath)
            (.initial tree)).2.unfinished = [])) ↔
      ∀ call ∈ (after (downloadRemoteEntry d .fail fuel remotePath localPath)
        (.initial tree)).2.calls, call.Spares d.links := by
  have start : Idle d.links (.initial tree) := ⟨nofun, rfl⟩
  obtain ⟨returns, stops⟩ := triple_downloadRemoteEntry fuel remotePath localPath _ start
  rcases run : after (downloadRemoteEntry d .fail fuel remotePath localPath) (.initial tree) with
    ⟨stop | ⟨⟩, s⟩
  · have judged := stops stop s run
    rw [Judged] at judged
    simpa only [Except.error.injEq] using judged
  · have idle := returns () s run
    exact iff_of_true ⟨fun call member => (idle.1 call member).1, fun _ => idle.2⟩
      (fun call member => (idle.1 call member).2)

/-- A server with one empty file. -/
def sampleServer : World where
  platform := .linux
  current _ := []
  lowercase := Text.asciiLower
  canonicalize _ := .ok []
  displayLocalPath path := List.intercalate ['/'] path
  cancelled _ := false
  timedOut _ := false
  metadata _ _ := .ok ⟨.file, some 0⟩
  readDir _ _ := .ok []
  openRemote _ _ := .ok ()
  readRemote _ := .ok 0
  shutdown _ := .ok ()
  pathExists _ _ := false
  isDir _ _ := false
  change _ _ := .ok ()

def sampleSurroundings (others : Nat → List (Path × Entry)) : Surroundings where
  server := sampleServer
  links := 40
  describe _ := []
  others
  fault _ := none
  buffer _ := []
  written _ := 0

def samplePath : Path :=
  ["notes".toList]

/-- The call takes an entry of others away. -/
def LocalCall.takes (call : LocalCall) (place : Path) : Bool :=
  !call.own.contains place && (entry call.before place).isSome && (entry call.after place).isNone

lemma not_harmless_of_takes {calls : List LocalCall} (place : Path)
    (taken : calls.any (LocalCall.takes · place) = true) : ∃ call ∈ calls, ¬ call.Harmless := by
  obtain ⟨call, member, takes⟩ := List.any_eq_true.mp taken
  rw [LocalCall.takes, Bool.and_eq_true, Bool.and_eq_true, Bool.not_eq_true',
    Option.isSome_iff_exists, Option.isNone_iff_eq_none] at takes
  obtain ⟨⟨foreign, e, present⟩, gone⟩ := takes
  refine ⟨call, member, fun harmless => ?_⟩
  have stays := harmless place e (fun own => by simp [own] at foreign) present
  cases gone.symm.trans stays

/-- A link that leads nowhere, and a file that another program creates after the test, are removed
when the file cannot be created. -/
theorem others_removed :
    let dangling : Tree := (∅ : Tree).insert samplePath (.link false ["gone".toList])
    let alone := sampleSurroundings fun _ => []
    let raced := sampleSurroundings fun now => if now = 6 then [(samplePath, .file [1])] else []
    (∃ call ∈ (after (downloadRemoteEntry alone .fail 2 "notes".toList samplePath)
        (.initial dangling)).2.calls, ¬ call.Harmless) ∧
      ∃ call ∈ (after (downloadRemoteEntry raced .fail 2 "notes".toList samplePath)
        (.initial ∅)).2.calls, ¬ call.Harmless :=
  ⟨not_harmless_of_takes samplePath (by decide +kernel),
    not_harmless_of_takes samplePath (by decide +kernel)⟩

end Sftp.OnTree
