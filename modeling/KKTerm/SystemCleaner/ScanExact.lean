import KKTerm.SystemCleaner.DiskScan

/-!
# The totals of a scan are exact

A directory that is entered is left again, with the totals of everything below it: by
induction over what is in it, in the order in which the stack gives it back.
-/

namespace DiskScan

open Contents hiding directory file nil
open Option hiding map_map
open List
open SystemCleaner (u64Max)
open Worklist

/-- What the host answers for a directory. -/
def ReadsAs (H : Host) (unit : Nat) (p : Path) : Directory → Prop
  | some c => H.scanDirectoryEntries p = .ok (c.entries unit p)
  | none => ∃ e, H.scanDirectoryEntries p = .error e

def Reads (H : Host) (unit : Nat) (p : Path) (d : Directory) : Prop :=
  ∀ rest d', d.at rest = some d' → ReadsAs H unit (p ++ rest) d'

/-- The directories that are in one are read as they are. -/
def ReadsInside (H : Host) (unit : Nat) (p : Path) (c : Contents) : Prop :=
  ∀ name rest d', Directory.at (some c) (name :: rest) = some d' →
    ReadsAs H unit (p ++ name :: rest) d'

def Vacant (p : Path) (s : Scan) : Prop :=
  ∀ rest, s.directoryBytes (p ++ rest) = none ∧ s.directoryAllocatedBytes (p ++ rest) = none

/-- The files of a directory have been counted. -/
structure Own (unit : Nat) (p : Path) (c : Contents) (s t : Scan) : Prop where
  bytes : Gains File.bytes p c.own s.directoryBytes t.directoryBytes
  allocated : Gains (allocatedFileSize unit) p c.own s.directoryAllocatedBytes
    t.directoryAllocatedBytes
  folders : t.folders = s.folders
  logged : ∀ log, Logged unit log s → Logged unit (log ++ c.own) t

/-- The directories in a directory have been visited. -/
structure Added (unit : Nat) (p : Path) (c : Contents) (s t : Scan) : Prop where
  bytes : Around File.bytes p c s.directoryBytes t.directoryBytes
  allocated : Around (allocatedFileSize unit) p c s.directoryAllocatedBytes
    t.directoryAllocatedBytes
  folders : ∀ n, s.folders = n % 2 ^ 64 → t.folders = (n + c.folders) % 2 ^ 64
  logged : ∀ log, Logged unit log s → Logged unit (log ++ c.inner) t

/-- A directory and everything below it has been visited. -/
structure Visited (unit : Nat) (p : Path) (d : Directory) (s t : Scan) : Prop where
  bytes : Below File.bytes p d s.directoryBytes t.directoryBytes
  allocated : Below (allocatedFileSize unit) p d s.directoryAllocatedBytes
    t.directoryAllocatedBytes
  folders : ∀ n, s.folders = n % 2 ^ 64 → t.folders = (n + 1 + d.folders) % 2 ^ 64
  logged : ∀ log, Logged unit log s → Logged unit (log ++ d.files) t

variable {H : Host} {unit : Nat} {p : Path} {name : List Char} {c rest : Contents} {d : Directory}
  {s t u : Scan}

lemma Own.cons {f : File} {e : ScannedEntry} (named : e.name = name) (bytes : e.bytes = f.bytes)
    (allocated : e.allocatedBytes = allocatedFileSize unit f)
    (own : Own unit p rest (scanFile H p e s) t) : Own unit p (.file name f rest) s t where
  bytes := (bytes ▸ own.bytes : Gains File.bytes p rest.own (addTo _ p f.bytes) _).cons
  allocated := (allocated ▸ own.allocated : Gains (allocatedFileSize unit) p rest.own
    (addTo _ p (allocatedFileSize unit f)) _).cons
  folders := own.folders
  logged log before := by
    have first := logged_scanFile H p bytes allocated before
    rw [named] at first
    have later := own.logged _ first
    rwa [append_assoc] at later

/-- Files are counted at once, directories are pushed. -/
lemma scan_entries (H : Host) (unit : Nat) (p : Path) (c : Contents) (pending : List ScanWork)
    (s : Scan) : ∃ t, (c.entries unit p).foldl (scanEntry H p) (pending, s) =
      ((c.pushed p).reverse ++ pending, t) ∧ Own unit p c s t := by
  induction c generalizing pending s with
  | nil =>
    refine ⟨s, rfl, .refl, .refl, rfl, fun log before => ?_⟩
    simpa [Contents.own] using before
  | file name f rest ih =>
    obtain ⟨t, folded, own⟩ := ih pending (scanFile H p
      ⟨name, p ++ [name], f.bytes, allocatedFileSize unit f, false, f.modifiedUnixMs⟩ s)
    exact ⟨t, folded, own.cons rfl rfl rfl⟩
  | directory name contents rest _ ih =>
    obtain ⟨t, folded, own⟩ := ih (.enter (p ++ [name]) (some p) :: pending) s
    refine ⟨t, ?_, own.bytes, own.allocated, own.folders, own.logged⟩
    rw [Contents.pushed, reverse_cons, append_assoc]
    exact folded
  | unreadable name rest ih =>
    obtain ⟨t, folded, own⟩ := ih (.enter (p ++ [name]) (some p) :: pending) s
    refine ⟨t, ?_, own.bytes, own.allocated, own.folders, own.logged⟩
    rw [Contents.pushed, reverse_cons, append_assoc]
    exact folded

/-- The directories that are pushed can be visited one after the other. -/
def Clearable (H : Host) (unit : Nat) (c : Contents) : Prop :=
  ∀ p s, c.Apart → ReadsInside H unit p c → (∀ name ∈ c.names, Vacant (p ++ [name]) s) →
    ∃ t, Clears (scanWork H) (c.pushed p).reverse s t ∧ Added unit p c s t

lemma Vacant.bytes (vacant : Vacant p s) (rest : Path) : s.directoryBytes (p ++ rest) = none :=
  (vacant rest).1

lemma Vacant.allocated (vacant : Vacant p s) (rest : Path) :
    s.directoryAllocatedBytes (p ++ rest) = none :=
  (vacant rest).2

lemma logged_enter {log : List (List Char × File)} (before : Logged unit log s) :
    Logged unit log (enterDirectory p s) :=
  before.congr rfl rfl rfl

lemma folders_enter {n : Nat} (before : s.folders = n % 2 ^ 64) :
    (enterDirectory p s).folders = (n + 1) % 2 ^ 64 := by
  have unfolded : (enterDirectory p s).folders = increment s.folders := rfl
  rw [unfolded, before, increment_mod]

/-- What is pushed for a directory comes before leaving it. -/
lemma enter_visits (parent : Option Path) (inner : ∀ c ∈ d, Clearable H unit c)
    (apart : ∀ c ∈ d, c.Apart) (reads : Reads H unit p d) (vacant : Vacant p s) :
    ∃ pushed middle t, scanWork H (.enter p parent) s = (pushed ++ [.exit p parent], middle) ∧
      Clears (scanWork H) pushed middle t ∧ Visited unit p d s t := by
  have here := reads [] d rfl
  rw [append_nil] at here
  cases d with
  | none =>
    obtain ⟨e, failed⟩ := here
    refine ⟨[], enterDirectory p s, _, ?_, .done _, ?_⟩
    · simp only [scanWork, failed, nil_append]
    · constructor
      · exact below_touch vacant.bytes
      · exact below_touch vacant.allocated
      · exact fun n before => folders_enter before
      · intro log before
        simpa [Directory.files] using logged_enter before
  | some c =>
    obtain ⟨middle, folded, own⟩ := scan_entries H unit p c [.exit p parent] (enterDirectory p s)
    have inside : ReadsInside H unit p c := fun name rest d' found => reads (name :: rest) d' found
    have empty : ∀ name ∈ c.names, Vacant (p ++ [name]) middle := by
      intro name _ rest
      rw [append_assoc, singleton_append]
      rw [own.bytes.elsewhere _ (cons_ne p name rest),
        own.allocated.elsewhere _ (cons_ne p name rest)]
      simp [enterDirectory, touch, vacant.bytes, vacant.allocated]
    obtain ⟨t, cleared, added⟩ := inner c rfl p middle (apart c rfl) inside empty
    refine ⟨(c.pushed p).reverse, middle, t, ?_, cleared, ?_⟩
    · rw [scanWork, here]
      exact folded
    · constructor
      · exact below_of_around vacant.bytes own.bytes added.bytes
      · exact below_of_around vacant.allocated own.allocated added.allocated
      · intro n before
        exact added.folders (n + 1) (own.folders.trans (folders_enter before))
      · intro log before
        have whole := added.logged _ (own.logged _ (logged_enter (p := p) before))
        rw [append_assoc] at whole
        exact whole.perm (c.own_inner.append_left log)

lemma readsInside_rest (absent : name ∉ rest.names)
    (reads : ReadsInside H unit p (.subdirectory name d rest)) : ReadsInside H unit p rest := by
  intro other more d' found
  refine reads other more d' ?_
  have different : other ≠ name := by
    rintro rfl
    rw [Directory.at_cons, find_of_not_mem absent] at found
    cases found
  rw [Directory.at_cons, find_subdirectory, if_neg different]
  exact found

lemma reads_subdirectory (reads : ReadsInside H unit p (.subdirectory name d rest)) :
    Reads H unit (p ++ [name]) d := by
  intro more d' found
  rw [append_assoc]
  refine reads name more d' ?_
  rw [Directory.at_cons, find_subdirectory, if_pos rfl]
  exact found

/-- The directory in front is visited last, and is then added to the one it is in. -/
lemma clearable_subdirectory (inner : ∀ c ∈ d, Clearable H unit c)
    (later : Clearable H unit rest) : Clearable H unit (.subdirectory name d rest) := by
  intro p s apart reads vacant
  obtain ⟨absent, apartInner, apartRest⟩ := apart_subdirectory.mp apart
  rw [names_subdirectory, forall_mem_cons] at vacant
  obtain ⟨t, cleared, added⟩ := later p s apartRest (readsInside_rest absent reads) vacant.2
  have empty : Vacant (p ++ [name]) t := by
    intro more
    have outside : ∀ other ∈ rest.names, ¬ p ++ [other] <+: p ++ name :: more := by
      intro other member
      refine not_below_cons ?_
      rintro rfl
      exact absent member
    have before := vacant.1 more
    rw [append_assoc, singleton_append] at before ⊢
    rw [added.bytes.elsewhere _ (cons_ne p name more) outside,
      added.allocated.elsewhere _ (cons_ne p name more) outside]
    exact before
  obtain ⟨pushed, middle, u, entered, inside, visited⟩ :=
    enter_visits (some p) inner apartInner (reads_subdirectory reads) empty
  refine ⟨exitDirectory (p ++ [name]) p u, ?_, ?_⟩
  · rw [pushed_subdirectory, reverse_cons]
    refine cleared.append (.single ?_)
    rw [entered]
    exact inside.append (.single (.done _))
  · constructor
    · exact around_subdirectory added.bytes visited.bytes
    · exact around_subdirectory added.allocated visited.allocated
    · intro n before
      have after := visited.folders _ (added.folders n before)
      rw [folders_subdirectory, ← Nat.add_assoc, ← Nat.add_assoc]
      exact after
    · intro log before
      have after := visited.logged _ (added.logged log before)
      rw [inner_subdirectory, ← append_assoc]
      exact after.congr rfl rfl rfl

lemma clearable (H : Host) (unit : Nat) (c : Contents) : Clearable H unit c := by
  induction c with
  | nil =>
    intro p s _ _ _
    refine ⟨s, .done s, around_nil, around_nil, fun n before => before, fun log before => ?_⟩
    simpa [Contents.inner] using before
  | file name f rest ih =>
    intro p s apart reads vacant
    have inside : ReadsInside H unit p rest := fun other more d' found => reads other more d' found
    rw [names, forall_mem_cons] at vacant
    obtain ⟨t, cleared, added⟩ := ih p s apart.2 inside vacant.2
    have bytes := fun more => vacant.1.bytes (more : Path)
    have allocated := fun more => vacant.1.allocated (more : Path)
    simp only [append_assoc, singleton_append] at bytes allocated
    exact ⟨t, cleared, around_file apart.1 bytes added.bytes,
      around_file apart.1 allocated added.allocated, added.folders, added.logged⟩
  | directory name contents rest inner later =>
    have inside : ∀ c ∈ some contents, Clearable H unit c := by
      rintro c ⟨⟩
      exact inner
    exact clearable_subdirectory (d := some contents) inside later
  | unreadable name rest later => exact clearable_subdirectory (d := none) (by simp) later

/-- The stack is emptied, and everything below the root has been visited. -/
lemma scan_visits (apart : ∀ c ∈ d, c.Apart) (reads : Reads H unit p d) :
    ∃ used s, (∀ turns, used ≤ turns → scanDirectories H turns p = some s) ∧
      Visited unit p d .start s := by
  obtain ⟨pushed, middle, s, entered, cleared, visited⟩ := enter_visits (s := .start) none
    (fun c _ => clearable H unit c) apart reads (fun _ => ⟨rfl, rfl⟩)
  have whole : Clears (scanWork H) [.enter p none] .start s := by
    refine .single ?_
    rw [entered]
    exact cleared.append (.single (.done _))
  obtain ⟨used, drains⟩ := whole.drain
  exact ⟨used, s, drains, visited⟩

def Host.reading (H : Host) (t : Tree) : Host :=
  { H with scanDirectoryEntries := t.read H.display }

lemma Tree.directoryAt_append (t : Tree) (rest : Path) :
    t.directoryAt (t.root ++ rest) = t.directory.at rest := by
  simp [Tree.directoryAt]

lemma reads_tree (H : Host) (t : Tree) : Reads (H.reading t) t.unit t.root t.directory := by
  intro rest d found
  have unfolded : (H.reading t).scanDirectoryEntries (t.root ++ rest) =
      t.read H.display (t.root ++ rest) := rfl
  cases d with
  | none =>
    refine ⟨"Could not read ".toList ++ H.display (t.root ++ rest), unfolded.trans ?_⟩
    rw [Tree.read, Tree.directoryAt_append, found]
  | some c => rw [ReadsAs, unfolded, Tree.read, Tree.directoryAt_append, found]

/-- Everything that is summed up stays below `2 ^ 64`. -/
structure Tree.Small (t : Tree) : Prop where
  files : t.directory.files.length < 2 ^ 64
  folders : t.directory.folders + 1 < 2 ^ 64
  bytes : total File.bytes t.directory.files < 2 ^ 64
  allocated : total (allocatedFileSize t.unit) t.directory.files < 2 ^ 64

variable (size : File → Nat) {found : Directory}

lemma mem_names_of_find (h : c.find name = some found) : name ∈ c.names := by
  by_contra absent
  rw [find_of_not_mem absent] at h
  cases h

lemma total_find_le (h : c.find name = some found) :
    total size found.files ≤ total size c.files := by
  induction c with
  | nil => cases h
  | file other f rest ih =>
    have later := ih h
    simp only [Contents.files, total_cons]
    omega
  | directory other contents rest _ ih =>
    simp only [Contents.files, total_append]
    rw [find] at h
    split_ifs at h with same
    · cases h
      exact Nat.le_add_right _ _
    · have later := ih h
      omega
  | unreadable other rest ih =>
    rw [find] at h
    split_ifs at h with same
    · cases h
      exact Nat.zero_le _
    · exact ih h

lemma total_at_le {rest : Path} (h : d.at rest = some found) :
    total size found.files ≤ total size d.files := by
  induction rest generalizing d with
  | nil =>
    cases h
    omega
  | cons name rest ih =>
    obtain ⟨d', h, deeper⟩ := bind_eq_some_iff.mp h
    obtain ⟨c, rfl, h⟩ := bind_eq_some_iff.mp h
    exact (ih deeper).trans (total_find_le size h)

lemma apart_of_find (apart : c.Apart) {inner : Contents} (h : c.find name = some (some inner)) :
    inner.Apart := by
  induction c with
  | nil => cases h
  | file other f rest ih => exact ih apart.2 h
  | directory other contents rest _ ih =>
    rw [find] at h
    split_ifs at h with same
    · cases h
      exact apart.2.1
    · exact ih apart.2.2 h
  | unreadable other rest ih =>
    rw [find] at h
    split_ifs at h with same
    · cases h
    · exact ih apart.2 h

lemma apart_of_at (apart : ∀ c ∈ d, c.Apart) {rest : Path} {inner : Contents}
    (h : d.at rest = some (some inner)) : inner.Apart := by
  induction rest generalizing d with
  | nil =>
    cases h
    exact apart inner rfl
  | cons name rest ih =>
    obtain ⟨d', h, deeper⟩ := bind_eq_some_iff.mp h
    obtain ⟨c, rfl, h⟩ := bind_eq_some_iff.mp h
    refine ih (fun c' same => ?_) deeper
    cases same
    exact apart_of_find (apart c rfl) h

lemma at_snoc {rest : Path} (h : d.at rest = some (some c)) (inside : c.find name = some found) :
    d.at (rest ++ [name]) = some found := by
  induction rest generalizing d with
  | nil =>
    cases h
    rw [nil_append, Directory.at_cons, inside]
    rfl
  | cons first rest ih =>
    obtain ⟨d', h, deeper⟩ := bind_eq_some_iff.mp h
    rw [cons_append, Directory.at, h, bind_some]
    exact ih deeper

/-- What a listing shows for the entries is the total of the directory. -/
lemma sum_entries (unit : Nat) (p : Path) (size : File → Nat) (sizeOf : ScannedEntry → Nat)
    (m : Path → Option Nat)
    (files : ∀ name path f,
      sizeOf ⟨name, path, f.bytes, allocatedFileSize unit f, false, f.modifiedUnixMs⟩ = size f)
    (apart : c.Apart)
    (known : ∀ name d, c.find name = some d → m (p ++ [name]) = some (total size d.files)) :
    ((c.entries unit p).map fun e => if e.isDirectory then (m e.path).getD 0 else sizeOf e).sum =
      total size c.files := by
  induction c with
  | nil => rfl
  | file name f rest ih =>
    have later := ih apart.2 known
    simp only [entries, Contents.files, map_cons, sum_cons, total_cons, later, files]
    rfl
  | directory name contents rest _ ih =>
    have here := known name (some contents) (if_pos rfl)
    have later := ih apart.2.2 fun other d found => known other d <| by
      have different : other ≠ name := by
        rintro rfl
        exact apart.1 (mem_names_of_find found)
      rw [find, if_neg different]
      exact found
    simp only [entries, Contents.files, map_cons, sum_cons, total_append, later,
      here, if_true, getD_some, Directory.files, elim_some]
  | unreadable name rest ih =>
    have here := known name none (if_pos rfl)
    have later := ih apart.2 fun other d found => known other d <| by
      have different : other ≠ name := by
        rintro rfl
        exact apart.1 (mem_names_of_find found)
      rw [find, if_neg different]
      exact found
    simp only [entries, Contents.files, map_cons, sum_cons, later, here, if_true,
      getD_some, Directory.files, elim_none, total_nil, Nat.zero_add]

/-- The entries of a listing add up to its totals. -/
structure AddsUp (listing : DirectoryListing) : Prop where
  bytes : (listing.entries.map DiskEntry.bytes).sum = listing.totalBytes
  allocated : (listing.entries.map DiskEntry.allocatedBytes).sum = listing.totalAllocatedBytes

/-- What is known after a scan of a tree. -/
structure Exact (H : Host) (t : Tree) (s : Scan) : Prop where
  bytes : ∀ path, s.directoryBytes path =
    (t.directoryAt path).map fun d => total File.bytes d.files
  allocated : ∀ path, s.directoryAllocatedBytes path =
    (t.directoryAt path).map fun d => total (allocatedFileSize t.unit) d.files
  files : s.files = t.directory.files.length
  folders : s.folders = t.directory.folders + 1
  totalBytes : s.bytes = total File.bytes t.directory.files
  extensions : ∀ key, key ∈ s.extensionTotals ↔ ofKey key t.directory.files ≠ []
  extensionTotals : ∀ key, extensionTotal s.extensionTotals key =
    ⟨total File.bytes (ofKey key t.directory.files),
      total (allocatedFileSize t.unit) (ofKey key t.directory.files),
      (ofKey key t.directory.files).length⟩
  listings : ∀ path contents, t.directoryAt path = some (some contents) →
    ∃ listing, directoryEntries H t.root path s.directoryBytes s.directoryAllocatedBytes =
      .ok listing ∧ AddsUp listing

/-- The result of a scan shows what it has counted. -/
structure Shows (t : Tree) (s : Scan) (scan : DriveScan) : Prop where
  directoryBytes : scan.directoryBytes = s.directoryBytes
  directoryAllocatedBytes : scan.directoryAllocatedBytes = s.directoryAllocatedBytes
  files : scan.files = s.files
  folders : scan.folders = s.folders
  totalBytes : s.directoryBytes t.root = some scan.totalBytes
  totalAllocatedBytes : s.directoryAllocatedBytes t.root = some scan.totalAllocatedBytes

lemma total_ofKey_le (key : List Char) (log : List (List Char × File)) :
    total size (ofKey key log) ≤ total size log := by
  induction log with
  | nil => exact Nat.le_refl _
  | cons f log ih =>
    obtain ⟨name, f⟩ := f
    by_cases same : extensionKey name = key
    · have kept : ofKey key ((name, f) :: log) = (name, f) :: ofKey key log := by simp [ofKey, same]
      rw [kept, total_cons, total_cons]
      omega
    · have dropped : ofKey key ((name, f) :: log) = ofKey key log := by simp [ofKey, same]
      rw [dropped, total_cons]
      omega

/-- Totals of the whole tree that are small make all totals exact. -/
lemma exact_total {size : File → Nat} {t : Tree} {m m' : Path → Option Nat}
    (start : ∀ path, m path = none) (small : total size t.directory.files < 2 ^ 64)
    (below : Below size t.root t.directory m m') (path : Path) :
    m' path = (t.directoryAt path).map fun d => total size d.files := by
  by_cases inside : t.root <+: path
  · obtain ⟨rest, rfl⟩ := inside
    rw [below.inside, Tree.directoryAt_append]
    cases found : t.directory.at rest with
    | none => rfl
    | some d =>
      have le := total_at_le size found
      rw [map_some, map_some, cap_of_small (by omega)]
  · rw [below.elsewhere path inside, start, Tree.directoryAt, if_neg inside]
    rfl

lemma exact_of_visited {t : Tree} (small : t.Small)
    (visited : Visited t.unit t.root t.directory .start s) : Exact (H.reading t) t s := by
  have bytes := exact_total (fun _ => rfl) small.bytes visited.bytes
  have allocated := exact_total (fun _ => rfl) small.allocated visited.allocated
  have logged := visited.logged [] (logged_start t.unit)
  rw [nil_append] at logged
  constructor
  · exact bytes
  · exact allocated
  · rw [logged.files, Nat.mod_eq_of_lt small.files]
  · have folders := small.folders
    rw [visited.folders 0 rfl, Nat.mod_eq_of_lt (by omega)]
    omega
  · rw [logged.bytes, cap_of_small small.bytes]
  · exact logged.keys
  · intro key
    have fewer : (ofKey key t.directory.files).length ≤ t.directory.files.length :=
      length_filter_le _ _
    have lessBytes := total_ofKey_le File.bytes key t.directory.files
    have lessAllocated := total_ofKey_le (allocatedFileSize t.unit) key t.directory.files
    rw [logged.totals key, cap_of_small (Nat.lt_of_le_of_lt lessBytes small.bytes),
      cap_of_small (Nat.lt_of_le_of_lt lessAllocated small.allocated),
      Nat.mod_eq_of_lt (Nat.lt_of_le_of_lt fewer small.files)]
  · intro path contents found
    have inside : t.root <+: path := by
      by_contra outside
      rw [Tree.directoryAt, if_neg outside] at found
      cases found
    obtain ⟨rest, rfl⟩ := inside
    have below : ∀ name d, contents.find name = some d →
        t.directoryAt (t.root ++ rest ++ [name]) = some d := by
      intro name d known
      rw [append_assoc, Tree.directoryAt_append]
      rw [Tree.directoryAt_append] at found
      exact at_snoc found known
    have apart : contents.Apart := by
      rw [Tree.directoryAt_append] at found
      exact apart_of_at t.apart found
    have read : (H.reading t).scanDirectoryEntries (t.root ++ rest) =
        .ok (contents.entries t.unit (t.root ++ rest)) := by
      have unfolded : (H.reading t).scanDirectoryEntries (t.root ++ rest) =
        t.read H.display (t.root ++ rest) := rfl
      rw [unfolded, Tree.read, found]
    refine ⟨_, by rw [directoryEntries, read]; rfl, ?_, ?_⟩
    · have sum := sum_entries t.unit (t.root ++ rest) File.bytes ScannedEntry.bytes
        s.directoryBytes (fun _ _ _ => rfl) apart
        (fun name d known => by rw [bytes, below name d known]; rfl)
      rw [((perm_insertionSort _ _).map _).sum_eq, map_map, bytes, found]
      exact sum
    · have sum := sum_entries t.unit (t.root ++ rest) (allocatedFileSize t.unit)
        ScannedEntry.allocatedBytes s.directoryAllocatedBytes (fun _ _ _ => rfl) apart
        (fun name d known => by rw [allocated, below name d known]; rfl)
      rw [((perm_insertionSort _ _).map _).sum_eq, map_map, allocated, found]
      exact sum

/-- The scan of a tree comes to an end with exact totals. -/
theorem scan_exact (H : Host) (t : Tree) (small : t.Small) :
    ∃ used s, (∀ turns, used ≤ turns →
        scanDirectories (H.reading t) turns t.root = some s ∧
        scanTree (H.reading t) turns t.root = some (s.finish (H.reading t) t.root)) ∧
      Exact (H.reading t) t s ∧
      (t.directory ≠ none → ∃ scan, s.finish (H.reading t) t.root = .ok scan ∧ Shows t s scan) := by
  obtain ⟨used, s, drains, visited⟩ := scan_visits t.apart (reads_tree H t)
  have exact_ : Exact (H.reading t) t s := exact_of_visited small visited
  refine ⟨used, s, fun turns enough => ⟨drains turns enough, ?_⟩, exact_, fun readable => ?_⟩
  · rw [scanTree, drains turns enough, map_some]
  · obtain ⟨contents, known⟩ := ne_none_iff_exists'.mp readable
    have found : t.directoryAt t.root = some (some contents) := by
      have root := t.directoryAt_append []
      rw [append_nil] at root
      rw [root, ← known]
      rfl
    obtain ⟨listing, listed, -⟩ := exact_.listings t.root contents found
    refine ⟨_, by rw [Scan.finish, listed]; rfl, rfl, rfl, rfl, rfl, ?_, ?_⟩
    · rw [exact_.bytes, found]
      rfl
    · rw [exact_.allocated, found]
      rfl

def firstFolder : Contents :=
  .file "first.bin".toList ⟨3, none, 0⟩
    (.directory "nested".toList (.file "nested.bin".toList ⟨5, none, 0⟩ .nil) .nil)

/-- A folder with a file and a folder in it. -/
def nestedTree : Tree where
  root := [['C', ':']]
  directory := some (.directory "first".toList firstFolder .nil)
  unit := 4
  apart := by
    rintro c ⟨⟩
    simp [Apart, names, firstFolder]

def quietHost : Host where
  scanDirectoryEntries _ := .ok []
  display path := path.flatten
  toLowercase name := name
  downloads := none
  nowUnixMs := 0

theorem nestedTree_scan_exact : ∃ used s,
    (∀ turns, used ≤ turns →
      scanDirectories (quietHost.reading nestedTree) turns [['C', ':']] = some s) ∧
    s.directoryBytes [['C', ':'], "first".toList] = some 8 ∧
    s.directoryBytes [['C', ':'], "first".toList, "nested".toList] = some 5 ∧
    s.bytes = 8 ∧ s.files = 2 ∧ s.folders = 3 := by
  obtain ⟨used, s, ends, exact_, -⟩ := scan_exact quietHost nestedTree
    ⟨by decide, by decide, by decide, by decide⟩
  refine ⟨used, s, fun turns enough => (ends turns enough).1, ?_, ?_, ?_, ?_, ?_⟩
  · rw [exact_.bytes]
    decide
  · rw [exact_.bytes]
    decide
  · rw [exact_.totalBytes]
    decide
  · rw [exact_.files]
    decide
  · rw [exact_.folders]
    decide

end DiskScan
