import KKTerm.Library.DepthFirst
import KKTerm.Library.KeyValue
import KKTerm.SystemCleaner.Execution
import Mathlib.Algebra.BigOperators.Group.List.Basic
import Mathlib.Data.List.Sort

/-!
# Scanning a disk

The directories of a disk are visited with a stack of work that is left. A directory gets
its own files when it is entered, and when it is left its total is added to that of the
directory it is in.
-/

namespace DiskScan

open SystemCleaner (u64Max saturatingAdd pathWithin)
open Worklist

/-- The names from the root of the file system on. -/
abbrev Path := List (List Char)

structure ScannedEntry where
  name : List Char
  path : Path
  bytes : Nat
  allocatedBytes : Nat
  isDirectory : Bool
  modifiedUnixMs : Nat
  deriving DecidableEq

structure DiskEntry where
  name : List Char
  path : List Char
  bytes : Nat
  allocatedBytes : Nat
  isDirectory : Bool
  deriving DecidableEq

structure DirectoryListing where
  path : List Char
  parentPath : Option (List Char)
  totalBytes : Nat
  totalAllocatedBytes : Nat
  entries : List DiskEntry

structure ExtensionEntry where
  extension : List Char
  bytes : Nat
  allocatedBytes : Nat
  files : Nat
  deriving DecidableEq

structure ReviewFile where
  name : List Char
  path : List Char
  bytes : Nat
  allocatedBytes : Nat
  modifiedUnixMs : Nat
  deriving DecidableEq

structure ReviewCategory where
  id : List Char
  bytes : Nat
  files : List ReviewFile

structure Host where
  scanDirectoryEntries : Path → Except (List Char) (List ScannedEntry)
  /-- The text of a path. -/
  display : Path → List Char
  toLowercase : List Char → List Char
  downloads : Option (List Char)
  nowUnixMs : Nat

inductive ScanWork where
  | enter (path : Path) (parent : Option Path)
  | exit (path : Path) (parent : Option Path)

structure ExtensionTotal where
  bytes : Nat
  allocatedBytes : Nat
  files : Nat
  deriving DecidableEq

structure Scan where
  directoryBytes : Path → Option Nat
  directoryAllocatedBytes : Path → Option Nat
  extensionTotals : AList (fun _ : List Char => ExtensionTotal)
  files : Nat
  folders : Nat
  bytes : Nat
  largeOldFiles : List ReviewFile
  oldDownloads : List ReviewFile

structure DriveScan where
  rootEntries : List DiskEntry
  extensions : List ExtensionEntry
  files : Nat
  folders : Nat
  totalBytes : Nat
  totalAllocatedBytes : Nat
  directoryBytes : Path → Option Nat
  directoryAllocatedBytes : Path → Option Nat
  recommendations : List ReviewCategory

def largeOldFileMinBytes : Nat := 100 * 1024 * 1024

def largeOldFileAgeDays : Nat := 180

def oldDownloadAgeDays : Nat := 90

def maxReviewFilesPerCategory : Nat := 200

def isOlderThan (modifiedUnixMs ageDays nowUnixMs : Nat) : Bool :=
  0 < modifiedUnixMs && min (ageDays * (24 * 60 * 60 * 1000)) u64Max ≤ nowUnixMs - modifiedUnixMs

def collectReviewFile (H : Host) (e : ScannedEntry) (s : Scan) : Scan :=
  let candidate : ReviewFile :=
    ⟨e.path.getLastD [], H.display e.path, e.bytes, e.allocatedBytes, e.modifiedUnixMs⟩
  let large := largeOldFileMinBytes ≤ e.bytes &&
    isOlderThan e.modifiedUnixMs largeOldFileAgeDays H.nowUnixMs
  let old := H.downloads.any (pathWithin (H.display e.path)) &&
    isOlderThan e.modifiedUnixMs oldDownloadAgeDays H.nowUnixMs
  { s with
    largeOldFiles := if large then s.largeOldFiles ++ [candidate] else s.largeOldFiles
    oldDownloads := if old then s.oldDownloads ++ [candidate] else s.oldDownloads }

def reviewOrder (left right : ReviewFile) : Ordering :=
  (compare right.allocatedBytes left.allocatedBytes).then
    (compare left.modifiedUnixMs right.modifiedUnixMs)

def keepLargestReviewFiles (files : List ReviewFile) : List ReviewFile :=
  (files.insertionSort fun a b => reviewOrder a b ≠ .gt).take maxReviewFilesPerCategory

def reviewCategory (id : List Char) (files : List ReviewFile) : ReviewCategory :=
  let files := keepLargestReviewFiles files
  ⟨id, (files.map ReviewFile.allocatedBytes).foldl saturatingAdd 0, files⟩

def buildReviewCategories (largeOldFiles oldDownloads : List ReviewFile) : List ReviewCategory :=
  [reviewCategory "large-old-files".toList largeOldFiles,
    reviewCategory "old-downloads".toList oldDownloads]

/-- What follows the last dot of a name that does not begin with it. -/
def extension (name : List Char) : Option (List Char) :=
  (Text.rsplitOnce '.' name).bind fun (stem, extension) =>
    if stem = [] then none else some extension

def extensionKey (name : List Char) : List Char :=
  match (extension name).filter (fun value => !value.isEmpty) with
  | some value => '.' :: Text.asciiLower value
  | none => "(none)".toList

/-- Give a key the value `change` makes of its old value, or of zero. -/
def addTo (totals : Path → Option Nat) (path : Path) (size : Nat) : Path → Option Nat :=
  fun q => if q = path then some (saturatingAdd ((totals path).getD 0) size) else totals q

def touch (totals : Path → Option Nat) (path : Path) : Path → Option Nat :=
  fun q => if q = path then some ((totals path).getD 0) else totals q

/-- `+= 1` on 64 bits. -/
def increment (n : Nat) : Nat :=
  (n + 1) % 2 ^ 64

def ExtensionTotal.add (total : ExtensionTotal) (e : ScannedEntry) : ExtensionTotal where
  bytes := saturatingAdd total.bytes e.bytes
  allocatedBytes := saturatingAdd total.allocatedBytes e.allocatedBytes
  files := increment total.files

def extensionTotal (totals : AList (fun _ : List Char => ExtensionTotal)) (key : List Char) :
    ExtensionTotal :=
  (totals.lookup key).getD ⟨0, 0, 0⟩

section Walk
variable (H : Host)

def scanFile (path : Path) (e : ScannedEntry) (s : Scan) : Scan :=
  let s := collectReviewFile H e s
  let key := extensionKey e.name
  { s with
    files := increment s.files
    bytes := saturatingAdd s.bytes e.bytes
    directoryBytes := addTo s.directoryBytes path e.bytes
    directoryAllocatedBytes := addTo s.directoryAllocatedBytes path e.allocatedBytes
    extensionTotals :=
      s.extensionTotals.insert key ((extensionTotal s.extensionTotals key).add e) }

/-- A directory is pushed, a file is counted. -/
def scanEntry (path : Path) (pending : List ScanWork × Scan) (e : ScannedEntry) :
    List ScanWork × Scan :=
  if e.isDirectory then (.enter e.path (some path) :: pending.1, pending.2)
  else (pending.1, scanFile H path e pending.2)

def enterDirectory (path : Path) (s : Scan) : Scan :=
  { s with
    folders := increment s.folders
    directoryBytes := touch s.directoryBytes path
    directoryAllocatedBytes := touch s.directoryAllocatedBytes path }

def exitDirectory (path parent : Path) (s : Scan) : Scan :=
  { s with
    directoryBytes := addTo s.directoryBytes parent ((s.directoryBytes path).getD 0)
    directoryAllocatedBytes :=
      addTo s.directoryAllocatedBytes parent ((s.directoryAllocatedBytes path).getD 0) }

def scanWork : ScanWork → Scan → List ScanWork × Scan
  | .enter path parent, s =>
    let entered := ([ScanWork.exit path parent], enterDirectory path s)
    match H.scanDirectoryEntries path with
    | .error _ => entered
    | .ok entries => entries.foldl (scanEntry H path) entered
  | .exit _ none, s => ([], s)
  | .exit path (some parent), s => ([], exitDirectory path parent s)

def Scan.start : Scan where
  directoryBytes _ := none
  directoryAllocatedBytes _ := none
  extensionTotals := ∅
  files := 0
  folders := 0
  bytes := 0
  largeOldFiles := []
  oldDownloads := []

/-- The stack is emptied in so many turns at most, or there is no result. -/
def scanDirectories (turns : Nat) (root : Path) : Option Scan :=
  drain (scanWork H) turns [.enter root none] .start

def toDiskEntry (directoryBytes directoryAllocatedBytes : Path → Option Nat) (e : ScannedEntry) :
    DiskEntry where
  name := e.name
  path := H.display e.path
  bytes := if e.isDirectory then (directoryBytes e.path).getD 0 else e.bytes
  allocatedBytes :=
    if e.isDirectory then (directoryAllocatedBytes e.path).getD 0 else e.allocatedBytes
  isDirectory := e.isDirectory

/-- Directories first, then the larger ones, then by name. -/
def entryOrder (left right : DiskEntry) : Ordering :=
  (compare right.isDirectory left.isDirectory).then
    ((compare right.bytes left.bytes).then
      (compare (H.toLowercase left.name) (H.toLowercase right.name)))

def directoryEntries (root path : Path)
    (directoryBytes directoryAllocatedBytes : Path → Option Nat) :
    Except (List Char) DirectoryListing := do
  let entries ← H.scanDirectoryEntries path
  let entries := entries.map (toDiskEntry H directoryBytes directoryAllocatedBytes)
  let parent := path.dropLast
  return {
    path := H.display path
    parentPath := if path ≠ root ∧ root <+: parent then some (H.display parent) else none
    totalBytes := (directoryBytes path).getD 0
    totalAllocatedBytes := (directoryAllocatedBytes path).getD 0
    entries := entries.insertionSort fun a b => entryOrder H a b ≠ .gt }

def extensionEntries (totals : AList (fun _ : List Char => ExtensionTotal)) :
    List ExtensionEntry :=
  totals.entries.map fun e => ⟨e.1, e.2.bytes, e.2.allocatedBytes, e.2.files⟩

def Scan.finish (root : Path) (s : Scan) : Except (List Char) DriveScan := do
  let listing ← directoryEntries H root root s.directoryBytes s.directoryAllocatedBytes
  let extensions := (extensionEntries s.extensionTotals).insertionSort
    fun a b => b.allocatedBytes ≤ a.allocatedBytes
  return {
    rootEntries := listing.entries
    extensions := extensions.take 100
    files := s.files
    folders := s.folders
    totalBytes := (s.directoryBytes root).getD 0
    totalAllocatedBytes := (s.directoryAllocatedBytes root).getD 0
    directoryBytes := s.directoryBytes
    directoryAllocatedBytes := s.directoryAllocatedBytes
    recommendations := buildReviewCategories s.largeOldFiles s.oldDownloads }

def scanTree (turns : Nat) (root : Path) : Option (Except (List Char) DriveScan) :=
  (scanDirectories H turns root).map (Scan.finish H root)

end Walk

structure File where
  bytes : Nat
  /-- What the system reports for a compressed or sparse file. -/
  compressedBytes : Option Nat
  modifiedUnixMs : Nat
  deriving DecidableEq

/-- What is in a directory, in the order in which the system lists it. -/
inductive Contents where
  | nil
  | file (name : List Char) (file : File) (rest : Contents)
  | directory (name : List Char) (contents : Contents) (rest : Contents)
  | unreadable (name : List Char) (rest : Contents)
  deriving DecidableEq

/-- A directory, or nothing where it cannot be read. -/
abbrev Directory := Option Contents

def roundToAllocationUnit (unit bytes : Nat) : Nat :=
  if bytes = 0 ∨ unit ≤ 1 then bytes
  else min (((bytes - 1) / unit + 1) * unit) u64Max

def allocatedFileSize (unit : Nat) (file : File) : Nat :=
  roundToAllocationUnit unit (file.compressedBytes.getD file.bytes)

namespace Contents

def names : Contents → List (List Char)
  | nil => []
  | file name _ rest => name :: rest.names
  | directory name _ rest => name :: rest.names
  | unreadable name rest => name :: rest.names

/-- Every directory names its entries apart. -/
def Apart : Contents → Prop
  | nil => True
  | file name _ rest => name ∉ rest.names ∧ rest.Apart
  | directory name contents rest => name ∉ rest.names ∧ contents.Apart ∧ rest.Apart
  | unreadable name rest => name ∉ rest.names ∧ rest.Apart

/-- The files anywhere below, with their names. -/
def files : Contents → List (List Char × File)
  | nil => []
  | file name f rest => (name, f) :: rest.files
  | directory _ contents rest => contents.files ++ rest.files
  | unreadable _ rest => rest.files

/-- How many directories are anywhere below. -/
def folders : Contents → Nat
  | nil => 0
  | file _ _ rest => rest.folders
  | directory _ contents rest => contents.folders + 1 + rest.folders
  | unreadable _ rest => rest.folders + 1

def find (name : List Char) : Contents → Option Directory
  | nil => none
  | file _ _ rest => rest.find name
  | directory other contents rest => if name = other then some (some contents) else rest.find name
  | unreadable other rest => if name = other then some none else rest.find name

def entries (unit : Nat) (path : Path) : Contents → List ScannedEntry
  | nil => []
  | file name f rest =>
    ⟨name, path ++ [name], f.bytes, allocatedFileSize unit f, false, f.modifiedUnixMs⟩ ::
      rest.entries unit path
  | directory name _ rest => ⟨name, path ++ [name], 0, 0, true, 0⟩ :: rest.entries unit path
  | unreadable name rest => ⟨name, path ++ [name], 0, 0, true, 0⟩ :: rest.entries unit path

end Contents

def Directory.files (d : Directory) : List (List Char × File) :=
  d.elim [] Contents.files

/-- How many directories are anywhere below. -/
def Directory.folders (d : Directory) : Nat :=
  d.elim 0 Contents.folders

def Directory.at (d : Directory) : Path → Option Directory
  | [] => some d
  | name :: rest => (d.bind (Contents.find name)).bind (fun d => Directory.at d rest)

/-- A directory tree below a root, on a disk with this allocation unit. -/
structure Tree where
  root : Path
  directory : Directory
  unit : Nat
  apart : ∀ contents ∈ directory, contents.Apart

namespace Tree

/-- The directories that a walk from the root comes to. -/
def directoryAt (t : Tree) (path : Path) : Option Directory :=
  if t.root <+: path then t.directory.at (path.drop t.root.length) else none

def read (t : Tree) (display : Path → List Char) (path : Path) :
    Except (List Char) (List ScannedEntry) :=
  match t.directoryAt path with
  | some (some contents) => .ok (contents.entries t.unit path)
  | _ => .error ("Could not read ".toList ++ display path)

end Tree

end DiskScan

/-!
# What a scan adds up

Totals are kept on 64 bits and stop at the greatest value, so what a total says is the cap
of the true one. Between the turns a directory's entry holds its own files and those
directories that were left already; what is counted is a rearrangement of the files below.
-/

namespace DiskScan

open List Option
open SystemCleaner (u64Max saturatingAdd)
open Worklist

def cap (n : Nat) : Nat :=
  min n u64Max

lemma saturatingAdd_cap (a b : Nat) : saturatingAdd (cap a) b = cap (a + b) := by
  simp only [saturatingAdd, cap]
  omega

lemma saturatingAdd_caps (a b : Nat) : saturatingAdd (cap a) (cap b) = cap (a + b) := by
  simp only [saturatingAdd, cap]
  omega

lemma cap_zero : cap 0 = 0 :=
  rfl

lemma cap_of_small {n : Nat} (small : n < 2 ^ 64) : cap n = n := by
  simp only [cap, u64Max]
  omega

lemma increment_mod (n : Nat) : increment (n % 2 ^ 64) = (n + 1) % 2 ^ 64 := by
  simp only [increment]
  omega

def total (size : File → Nat) (files : List (List Char × File)) : Nat :=
  (files.map fun f => size f.2).sum

section Totals
variable {size : File → Nat} {first second : List (List Char × File)}

@[simp] lemma total_nil : total size [] = 0 :=
  rfl

@[simp] lemma total_cons (name : List Char) (f : File) :
    total size ((name, f) :: first) = size f + total size first := by
  simp [total]

@[simp] lemma total_append :
    total size (first ++ second) = total size first + total size second := by
  simp [total]

lemma total_perm (same : first.Perm second) : total size first = total size second :=
  (same.map _).sum_eq

end Totals

def ofKey (key : List Char) (log : List (List Char × File)) : List (List Char × File) :=
  log.filter fun f => extensionKey f.1 = key

structure Logged (unit : Nat) (log : List (List Char × File)) (s : Scan) : Prop where
  files : s.files = log.length % 2 ^ 64
  bytes : s.bytes = cap (total File.bytes log)
  keys : ∀ key, key ∈ s.extensionTotals ↔ ofKey key log ≠ []
  totals : ∀ key, extensionTotal s.extensionTotals key =
    ⟨cap (total File.bytes (ofKey key log)), cap (total (allocatedFileSize unit) (ofKey key log)),
      (ofKey key log).length % 2 ^ 64⟩

section Counters
variable {unit : Nat} {log more : List (List Char × File)} {s t : Scan}

lemma Logged.perm (logged : Logged unit log s) (same : log.Perm more) : Logged unit more s where
  files := same.length_eq ▸ logged.files
  bytes := by
    have kept : total File.bytes log = total File.bytes more := total_perm same
    rw [← kept]
    exact logged.bytes
  keys := by
    intro key
    have filtered : (ofKey key log).Perm (ofKey key more) := same.filter _
    rw [logged.keys key]
    constructor
    · intro some_ none_
      rw [none_] at filtered
      exact some_ filtered.eq_nil
    · intro some_ none_
      rw [none_] at filtered
      exact some_ filtered.symm.eq_nil
  totals := by
    intro key
    have filtered : (ofKey key log).Perm (ofKey key more) := same.filter _
    rw [logged.totals key, total_perm filtered, total_perm filtered, filtered.length_eq]

lemma logged_start (unit : Nat) : Logged unit [] .start where
  files := rfl
  bytes := rfl
  keys key := by simp [Scan.start, ofKey]
  totals key := rfl

lemma Logged.congr (logged : Logged unit log s) (files : t.files = s.files)
    (bytes : t.bytes = s.bytes) (totals : t.extensionTotals = s.extensionTotals) :
    Logged unit log t where
  files := files.trans logged.files
  bytes := bytes.trans logged.bytes
  keys := totals ▸ logged.keys
  totals := totals ▸ logged.totals

lemma ofKey_snoc (key name : List Char) (f : File) :
    ofKey key (log ++ [(name, f)]) =
      ofKey key log ++ (if extensionKey name = key then [(name, f)] else []) := by
  rw [ofKey, filter_append, filter_singleton]
  simp [ofKey]

lemma logged_scanFile (H : Host) (path : Path) {e : ScannedEntry} {f : File}
    (bytes : e.bytes = f.bytes) (allocated : e.allocatedBytes = allocatedFileSize unit f)
    (logged : Logged unit log s) : Logged unit (log ++ [(e.name, f)]) (scanFile H path e s) where
  files := by
    have before : (scanFile H path e s).files = increment s.files := rfl
    rw [before, logged.files, increment_mod, length_append, length_singleton]
  bytes := by
    have before : (scanFile H path e s).bytes = saturatingAdd s.bytes e.bytes := rfl
    rw [before, logged.bytes, bytes, saturatingAdd_cap]
    simp
  keys := by
    intro key
    have inserted : key ∈ (scanFile H path e s).extensionTotals ↔
        key = extensionKey e.name ∨ key ∈ s.extensionTotals := AList.mem_insert _
    rw [inserted, logged.keys key, ofKey_snoc]
    by_cases same : extensionKey e.name = key
    · simp [same]
    · simp [same, Ne.symm same]
  totals := by
    intro key
    have inserted : extensionTotal (scanFile H path e s).extensionTotals key =
        ((s.extensionTotals.insert (extensionKey e.name)
          ((extensionTotal s.extensionTotals (extensionKey e.name)).add e)).lookup key).getD
            ⟨0, 0, 0⟩ := rfl
    rw [inserted, ofKey_snoc]
    by_cases same : extensionKey e.name = key
    · rw [same, AList.lookup_insert, getD_some, logged.totals key, ExtensionTotal.add]
      simp only [if_true, bytes, allocated, saturatingAdd_cap, increment_mod]
      simp
    · rw [AList.lookup_insert_ne (Ne.symm same), if_neg same, append_nil]
      exact logged.totals key

end Counters

namespace Contents

def own : Contents → List (List Char × File)
  | nil => []
  | file name f rest => (name, f) :: rest.own
  | directory _ _ rest => rest.own
  | unreadable _ rest => rest.own

/-- The files in the directories that are in a directory. -/
def inner : Contents → List (List Char × File)
  | nil => []
  | file _ _ rest => rest.inner
  | directory _ contents rest => rest.inner ++ contents.files
  | unreadable _ rest => rest.inner

def pushed (path : Path) : Contents → List ScanWork
  | nil => []
  | file _ _ rest => rest.pushed path
  | directory name _ rest => .enter (path ++ [name]) (some path) :: rest.pushed path
  | unreadable name rest => .enter (path ++ [name]) (some path) :: rest.pushed path

lemma own_inner (c : Contents) : (c.own ++ c.inner).Perm c.files := by
  induction c with
  | nil => exact .nil
  | file name f rest ih => exact ih.cons _
  | directory name contents rest _ ih =>
    have front : (rest.own ++ (rest.inner ++ contents.files)).Perm
        (rest.files ++ contents.files) := by
      rw [← append_assoc]
      exact ih.append_right _
    exact front.trans perm_append_comm
  | unreadable name rest ih => exact ih

lemma find_of_not_mem {c : Contents} {name : List Char} (absent : name ∉ c.names) :
    c.find name = none := by
  induction c with
  | nil => rfl
  | file other f rest ih => exact ih (not_mem_of_not_mem_cons absent)
  | directory other contents rest _ ih =>
    rw [find, if_neg (ne_of_not_mem_cons absent)]
    exact ih (not_mem_of_not_mem_cons absent)
  | unreadable other rest ih =>
    rw [find, if_neg (ne_of_not_mem_cons absent)]
    exact ih (not_mem_of_not_mem_cons absent)

/-- A directory in front of other entries. -/
def subdirectory (name : List Char) (d : Directory) (rest : Contents) : Contents :=
  match d with
  | some contents => directory name contents rest
  | none => unreadable name rest

section Subdirectory
variable {name other : List Char} {d : Directory} {rest : Contents}

lemma names_subdirectory : (subdirectory name d rest).names = name :: rest.names := by
  cases d with
  | none => rfl
  | some contents => rfl

lemma inner_subdirectory : (subdirectory name d rest).inner = rest.inner ++ d.files := by
  cases d with
  | none => exact (append_nil _).symm
  | some contents => rfl

lemma folders_subdirectory :
    (subdirectory name d rest).folders = rest.folders + 1 + d.folders := by
  cases d with
  | none => rfl
  | some contents =>
    have unfolded : (subdirectory name (some contents) rest).folders =
        contents.folders + 1 + rest.folders := rfl
    rw [unfolded, Directory.folders, elim_some]
    omega

lemma pushed_subdirectory (path : Path) : (subdirectory name d rest).pushed path =
    .enter (path ++ [name]) (some path) :: rest.pushed path := by
  cases d with
  | none => rfl
  | some contents => rfl

lemma find_subdirectory : (subdirectory name d rest).find other =
    if other = name then some d else rest.find other := by
  cases d with
  | none => rfl
  | some contents => rfl

lemma apart_subdirectory : (subdirectory name d rest).Apart ↔
    name ∉ rest.names ∧ (∀ contents ∈ d, contents.Apart) ∧ rest.Apart := by
  cases d with
  | none => simp [subdirectory, Apart]
  | some contents => simp [subdirectory, Apart]

end Subdirectory

end Contents

lemma Directory.at_cons (c : Contents) (name : List Char) (rest : Path) :
    Directory.at (some c) (name :: rest) = (c.find name).bind (fun d => Directory.at d rest) :=
  rfl

section Maps
variable {size : File → Nat} {p q : Path} {name : List Char} {c rest : Contents} {d : Directory}
  {m m' m'' : Path → Option Nat} {first second : List (List Char × File)}

/-- The total of a directory has grown by these files, no other has changed. -/
structure Gains (size : File → Nat) (p : Path) (files : List (List Char × File))
    (m m' : Path → Option Nat) : Prop where
  here : ∀ a, m p = some (cap a) → m' p = some (cap (a + total size files))
  elsewhere : ∀ q, q ≠ p → m' q = m q

/-- The directories in a directory have got their totals and have been added to its own. -/
structure Around (size : File → Nat) (p : Path) (c : Contents) (m m' : Path → Option Nat) :
    Prop where
  here : ∀ a, m p = some (cap a) → m' p = some (cap (a + total size c.inner))
  inside : ∀ name ∈ c.names, ∀ rest, m' (p ++ name :: rest) =
    (Directory.at (some c) (name :: rest)).map fun d => cap (total size d.files)
  elsewhere : ∀ q, q ≠ p → (∀ name ∈ c.names, ¬ p ++ [name] <+: q) → m' q = m q

/-- A directory and those below it have got their totals. -/
structure Below (size : File → Nat) (p : Path) (d : Directory) (m m' : Path → Option Nat) :
    Prop where
  inside : ∀ rest, m' (p ++ rest) = (d.at rest).map fun d => cap (total size d.files)
  elsewhere : ∀ q, ¬ p <+: q → m' q = m q

lemma Gains.refl : Gains size p [] m m where
  here a at_p := by simpa using at_p
  elsewhere _ _ := rfl

lemma Gains.cons {f : File} (gains : Gains size p first (addTo m p (size f)) m') :
    Gains size p ((name, f) :: first) m m' where
  here a at_p := by
    have added : addTo m p (size f) p = some (cap (a + size f)) := by
      simp [addTo, at_p, saturatingAdd_cap]
    rw [gains.here _ added, total_cons]
    congr 2
    omega
  elsewhere q other := by
    rw [gains.elsewhere q other]
    simp [addTo, other]

lemma cons_ne (p : Path) (name : List Char) (rest : Path) : p ++ name :: rest ≠ p := by
  simp

lemma not_below_cons {other : List Char} {rest : Path} (different : name ≠ other) :
    ¬ p ++ [name] <+: p ++ other :: rest := by
  simp [prefix_append_right_inj, different]

/-- A directory that cannot be read is like an empty one. -/
lemma below_touch (vacant : ∀ rest, m (p ++ rest) = none) : Below size p none m (touch m p) where
  inside rest := by
    have before := vacant rest
    have own := vacant []
    rw [append_nil] at own
    cases rest with
    | nil => simp [touch, own, Directory.at, Directory.files, cap_zero]
    | cons name rest => simp [touch, before, Directory.at]
  elsewhere q outside := by
    have other : q ≠ p := by
      rintro rfl
      exact outside prefix_rfl
    simp [touch, other]

/-- A directory has its own files first, then those of the directories in it. -/
lemma below_of_around (vacant : ∀ rest, m (p ++ rest) = none)
    (gains : Gains size p c.own (touch m p) m') (around : Around size p c m' m'') :
    Below size p (some c) m m'' where
  inside rest := by
    cases rest with
    | nil =>
      have own := vacant []
      rw [append_nil] at own
      have touched : touch m p p = some (cap 0) := by simp [touch, own, cap_zero]
      rw [append_nil, around.here _ (gains.here 0 touched), Directory.at, map_some,
        Directory.files, elim_some, ← total_perm c.own_inner, total_append, Nat.zero_add]
    | cons name rest =>
      by_cases member : name ∈ c.names
      · exact around.inside name member rest
      · have apart : ∀ other ∈ c.names, ¬ p ++ [other] <+: p ++ name :: rest := by
          rintro other inside
          refine not_below_cons ?_
          rintro rfl
          exact member inside
        rw [around.elsewhere _ (cons_ne p name rest) apart, gains.elsewhere _ (cons_ne p name rest),
          Directory.at_cons, Contents.find_of_not_mem member]
        simp [touch, vacant]
  elsewhere q outside := by
    have other : q ≠ p := by
      rintro rfl
      exact outside prefix_rfl
    have apart : ∀ name ∈ c.names, ¬ p ++ [name] <+: q := by
      intro name _ inside
      exact outside ((prefix_append p [name]).trans inside)
    rw [around.elsewhere q other apart, gains.elsewhere q other]
    simp [touch, other]

lemma around_nil : Around size p .nil m m where
  here a at_p := by simpa [Contents.inner] using at_p
  inside _ member := absurd member not_mem_nil
  elsewhere _ _ _ := rfl

lemma around_file {f : File} (absent : name ∉ rest.names)
    (vacant : ∀ more, m (p ++ name :: more) = none) (around : Around size p rest m m') :
    Around size p (.file name f rest) m m' where
  here := around.here
  inside other member more := by
    rcases mem_cons.mp member with rfl | later
    · have apart : ∀ name ∈ rest.names, ¬ p ++ [name] <+: p ++ other :: more := by
        intro name inside
        refine not_below_cons ?_
        rintro rfl
        exact absent inside
      rw [around.elsewhere _ (cons_ne p other more) apart, vacant, Directory.at_cons,
        Contents.find, Contents.find_of_not_mem absent]
      rfl
    · exact around.inside other later more
  elsewhere q other apart := around.elsewhere q other fun name member =>
    apart name (mem_cons_of_mem _ member)

/-- When a directory is left its total is added to that of the directory it is in. -/
lemma around_subdirectory (around : Around size p rest m m')
    (below : Below size (p ++ [name]) d m' m'') :
    Around size p (.subdirectory name d rest) m (addTo m'' p ((m'' (p ++ [name])).getD 0)) where
  here a at_p := by
    have outside : ¬ p ++ [name] <+: p := by
      intro inside
      have shorter := inside.length_le
      simp at shorter
    have left : m'' (p ++ [name]) = some (cap (total size d.files)) := by
      have entered := below.inside []
      rwa [append_nil] at entered
    have parent := (below.elsewhere p outside).trans (around.here a at_p)
    simp only [addTo, if_true, parent, left, getD_some, saturatingAdd_caps,
      Contents.inner_subdirectory, total_append, Nat.add_assoc]
  inside other member more := by
    have kept : addTo m'' p ((m'' (p ++ [name])).getD 0) (p ++ other :: more) =
        m'' (p ++ other :: more) := by
      simp [addTo]
    rw [kept, Directory.at_cons, Contents.find_subdirectory]
    by_cases same : other = name
    · have entered := below.inside more
      rw [append_assoc, singleton_append] at entered
      rw [same, entered, if_pos rfl, bind_some]
    · rw [Contents.names_subdirectory] at member
      have later := (mem_cons.mp member).resolve_left same
      rw [below.elsewhere _ (not_below_cons (Ne.symm same)), around.inside other later, if_neg same,
        Directory.at_cons]
  elsewhere q other apart := by
    rw [Contents.names_subdirectory, forall_mem_cons] at apart
    have kept : addTo m'' p ((m'' (p ++ [name])).getD 0) q = m'' q := by simp [addTo, other]
    rw [kept, below.elsewhere q apart.1, around.elsewhere q other apart.2]

end Maps

end DiskScan
