import KKTerm.Library.Effects
import KKTerm.Library.Paths
import KKTerm.Library.Text
import Mathlib.Data.List.Sort

/-!
# FTP downloads

A path of the server is downloaded into a local directory, folder by folder. What the
server answers, and what the local file system allows, is a function of the number of the
request, so that both may change in any way. Local paths are the names from the root on.
-/

namespace Ftp

open Effects Paths Text

inductive EntryKind where
  | folder
  | symlink
  | file
  deriving DecidableEq

structure FtpDirectoryEntry where
  name : List Char
  kind : EntryKind
  size : Option Nat

/-- A line of a listing, as the parser of the library reads it. -/
structure ListFile where
  name : List Char
  isDirectory : Bool
  isSymlink : Bool
  size : Nat

inductive FtpOverwriteBehavior where
  | fail
  | overwrite
  deriving DecidableEq

inductive Node where
  | directory
  | file
  deriving DecidableEq

inductive Stop where
  | canceled
  | server
  | noName
  | notFound (remotePath : List Char)
  | createDirectory
  | alreadyExists (target : Path)
  | overwriteFile
  | createFile
  | writeFile
  | outOfFuel

/-- The server, the libraries and the local file system. -/
structure World where
  platform : Platform
  /-- The current directory of a drive. -/
  current : Char → Path
  lowercase : List Char → List Char
  parsePosix : List Char → Option ListFile
  list : Nat → List Char → Option (List (List Char))
  retrieve : Nat → List Char → Option Nat
  canceled : Nat → Bool
  /-- How many changes the file system allows at a time. -/
  allows : Nat → Nat

structure State where
  tick : Nat
  tree : Path → Option Node
  /-- What was created, removed or written, in order. -/
  touched : List Path
  transferred : Nat
  files : Nat
  folders : Nat

abbrev Transfer := Action State Stop

def trimSlashes (path : List Char) : List Char :=
  path.rdropWhile (fun c => c = '/')

def normalizeRemotePath (path : List Char) : List Char :=
  let trimmed := trim path
  if trimmed = [] then ['/']
  else if trimmed.head? = some '/' then trimmed
  else '/' :: trimmed

def joinRemotePath (base child : List Char) : List Char :=
  trimSlashes base ++ '/' :: child.dropWhile (fun c => c = '/')

def remoteParentPath (path : List Char) : List Char :=
  match rsplitOnce '/' (trimSlashes path) with
  | none => ['/']
  | some (front, _) => if front = [] then ['/'] else front

def remotePathName (path : List Char) : Except Stop (List Char) :=
  let trimmed := trimSlashes path
  if trimmed = [] then .error .noName
  else .ok ((split '/' trimmed).getLast?.getD trimmed)

def pushName (dir : Path) (name : List Char) : Path :=
  if name = [] ∨ name = ['.'] then dir
  else if name = ['.', '.'] then dir.dropLast
  else dir ++ [name]

def pushNames (dir : Path) (names : List (List Char)) : Path :=
  names.foldl pushName dir

def isSeparator (c : Char) : Bool :=
  c = '/' || c = '\\'

/-- Below the root of a drive or a share, which is the first name of the path. -/
def pushBelow (root : Path) (dir : Path) (names : List (List Char)) : Path :=
  root ++ pushNames dir names

/-- A path on Windows, where a drive, a share or a root replaces what is before it. -/
def joinWindows (current : Char → Path) (dir : Path) (name : List Char) : Path :=
  match name with
  | [] => dir
  | c :: rest =>
    if isSeparator c then
      if rest.head?.any isSeparator then
        let names := rest.tail.splitOnP isSeparator
        pushBelow [c :: rest.head?.toList ++ List.intercalate ['\\'] (names.take 2)] []
          (names.drop 2)
      else pushBelow (dir.take 1) [] (rest.splitOnP isSeparator)
    else if isAsciiAlphabetic c ∧ rest.head? = some ':' then
      if rest.tail.head?.any isSeparator then
        pushBelow [[c, ':']] [] (rest.tail.splitOnP isSeparator)
      else pushBelow [[c, ':']] (current c) (rest.tail.splitOnP isSeparator)
    else pushBelow (dir.take 1) (dir.drop 1) (name.splitOnP isSeparator)

def joinUnix (dir : Path) (name : List Char) : Path :=
  pushNames (if name.head? = some '/' then [] else dir) (split '/' name)

/-- Where `local_dir.join(name)` leads. -/
def World.join (w : World) (dir : Path) (name : List Char) : Path :=
  match w.platform with
  | .windows => joinWindows w.current dir name
  | _ => joinUnix dir name

section Steps
variable (w : World)

def stop {α : Type} (e : Stop) : Transfer α :=
  throw e

def require {α : Type} (x : Option α) (e : Stop) : Transfer α :=
  match x with
  | some a => pure a
  | none => stop e

def request : Transfer Nat :=
  step (fun s => (.ok s.tick, { s with tick := s.tick + 1 }))

def checkCanceled : Transfer Unit := do
  let now ← request
  if w.canceled now then stop .canceled else pure ()

def listLines (path : List Char) : Transfer (List (List Char)) := do
  let now ← request
  require (w.list now path) .server

/-- The size of the file, unless the transfer fails or is canceled. -/
def retrieveFile (remotePath : List Char) : Transfer Nat := do
  let now ← request
  require (w.retrieve now remotePath) .server

def State.node (s : State) (w : World) (p : Path) : Option Node :=
  s.tree (w.platform.resolve p)

def State.set (s : State) (w : World) (p : Path) (node : Option Node) : State :=
  { s with
    tree := fun q => if q = w.platform.resolve p then node else s.tree q
    touched := s.touched ++ [p] }

/-- What has to be created before a directory exists. -/
def State.missing (s : State) (w : World) (target : Path) : List Path :=
  target.inits.filter (fun p => (s.node w p).isNone)

def createAll (s : State) (dirs : List Path) : State :=
  dirs.foldl (fun s p => s.set w p (some .directory)) s

/-- `create_dir_all` creates from the root on until something is in its way. -/
def createDirAll (now : Nat) (target : Path) : Transfer Unit :=
  step (fun s =>
    if target.inits.any (fun p => s.node w p = some .file) then (.error .createDirectory, s)
    else
      let created := (s.missing w target).take (w.allows now)
      let s' := createAll w s created
      if created = s.missing w target then (.ok (), s') else (.error .createDirectory, s'))

def ensureDirectory (target : Path) : Transfer Unit := do
  let now ← request
  let there ← step (fun s => (.ok (s.node w target).isSome, s))
  if there then pure () else createDirAll w now target

/-- A file that is there is removed, or nothing is overwritten. -/
def clearTarget (behavior : FtpOverwriteBehavior) (target : Path) : Transfer Unit := do
  let now ← request
  step (fun s =>
    if behavior = .fail ∧ (s.node w target).isSome then (.error (.alreadyExists target), s)
    else if s.node w target = some .file then
      if w.allows now = 0 then (.error .overwriteFile, s) else (.ok (), s.set w target none)
    else (.ok (), s))

/-- A file is created in a directory that is there, and not in the place of a directory. -/
def writeFile (target : Path) : Transfer Unit := do
  let now ← request
  step (fun s =>
    if s.node w target = some .directory ∨ s.node w target.dropLast ≠ some .directory ∨
        w.allows now = 0 then (.error .createFile, s)
    else if w.allows now = 1 then (.error .writeFile, s.set w target (some .file))
    else (.ok (), s.set w target (some .file)))

def EntryKind.rank : EntryKind → Nat
  | .folder => 0
  | .symlink => 1
  | .file => 2

def isShown (showHidden : Bool) (name : List Char) : Bool :=
  showHidden || name.head? ≠ some '.'

/-- The entry of a line; a line that does not parse is taken for a file of that name. -/
def entryOf (showHidden : Bool) (line : List Char) : Option FtpDirectoryEntry :=
  match w.parsePosix line with
  | some file =>
    if file.name = ['.'] ∨ file.name = ['.', '.'] then none
    else if isShown showHidden file.name then
      some {
        name := file.name
        kind := if file.isDirectory then .folder else if file.isSymlink then .symlink else .file
        size := some file.size }
    else none
  | none =>
    let name := trim line
    if name = [] then none
    else if isShown showHidden name then some { name, kind := .file, size := none }
    else none

def isAfter (a b : FtpDirectoryEntry) : Bool :=
  b.kind.rank < a.kind.rank ||
    (a.kind.rank = b.kind.rank && precedes (w.lowercase b.name) (w.lowercase a.name))

def readDirectory (path : List Char) (showHidden : Bool) : Transfer (List FtpDirectoryEntry) := do
  let lines ← listLines w path
  pure ((lines.filterMap (entryOf w showHidden)).insertionSort (fun a b => isAfter w a b = false))

def nameOf (remotePath : List Char) : Transfer (List Char) :=
  match remotePathName remotePath with
  | .ok name => pure name
  | .error e => stop e

/-- The entry of a path in the listing of its parent. -/
def findEntry (remotePath name : List Char) (showHidden : Bool) : Transfer FtpDirectoryEntry := do
  let listing ← readDirectory w (remoteParentPath remotePath) showHidden
  require (listing.find? (fun e => e.name = name)) (.notFound remotePath)

def sumSizes (size : FtpDirectoryEntry → Transfer Nat) : List FtpDirectoryEntry → Transfer Nat
  | [] => pure 0
  | entry :: rest => do
    let first ← size entry
    let more ← sumSizes size rest
    pure (min (first + more) 18446744073709551615)

def directoryRemoteSize (showHidden : Bool) : Nat → List Char → Transfer Nat
  | 0, _ => stop .outOfFuel
  | fuel + 1, path => do
    let entries ← readDirectory w path showHidden
    sumSizes (fun entry =>
      if entry.kind = .folder then
        directoryRemoteSize showHidden fuel (joinRemotePath path entry.name)
      else pure (entry.size.getD 0)) entries

def downloadFile (behavior : FtpOverwriteBehavior) (remotePath : List Char) (target : Path) :
    Transfer Unit := do
  clearTarget w behavior target
  let size ← retrieveFile w remotePath
  step (fun s => (.ok (), { s with transferred := s.transferred + size }))
  writeFile w target
  step (fun s => (.ok (), { s with files := s.files + 1 }))

def downloadFolder (visit : List Char → Transfer Unit) (remotePath : List Char) (target : Path)
    (showHidden : Bool) : Transfer Unit := do
  ensureDirectory w target
  step (fun s => (.ok (), { s with folders := s.folders + 1 }))
  let children ← readDirectory w remotePath showHidden
  forM children (fun child => visit (joinRemotePath remotePath child.name))

def downloadRecursive (behavior : FtpOverwriteBehavior) (showHidden : Bool) :
    Nat → List Char → Path → Transfer Unit
  | 0, _, _ => stop .outOfFuel
  | fuel + 1, remotePath, localDir => do
    checkCanceled w
    let name ← nameOf remotePath
    let target := w.join localDir name
    let entry ← findEntry w remotePath name showHidden
    if entry.kind = .folder then
      downloadFolder w (fun child => downloadRecursive behavior showHidden fuel child target)
        remotePath target showHidden
    else downloadFile w behavior remotePath target

/-- What the progress of a transfer is compared with. -/
def totalBytes (showHidden : Bool) (fuel : Nat) (remotePath : List Char)
    (properties : FtpDirectoryEntry) : Transfer Nat :=
  if properties.kind = .folder then directoryRemoteSize w showHidden fuel remotePath
  else pure (properties.size.getD 0)

structure FtpTransferResult where
  name : List Char
  files : Nat
  folders : Nat
  bytes : Nat

def downloadEntry (behavior : FtpOverwriteBehavior) (showHidden : Bool) (fuel : Nat)
    (remotePath : List Char) (localDir : Path) : Transfer FtpTransferResult := do
  let name ← nameOf remotePath
  let properties ← findEntry w remotePath name showHidden
  let _ ← totalBytes w showHidden fuel remotePath properties
  downloadRecursive w behavior showHidden fuel remotePath localDir
  step (fun s => (.ok { name, files := s.files, folders := s.folders, bytes := s.transferred }, s))

/-- A download from the files that are there before it. -/
def downloadFtpPath (behavior : FtpOverwriteBehavior) (showHidden : Bool) (fuel : Nat)
    (remotePath : List Char) (localDirectory : Path) (tree : Path → Option Node) :
    Except Stop FtpTransferResult × State :=
  after (downloadEntry w behavior showHidden fuel (normalizeRemotePath remotePath) localDirectory)
    { tick := 0, tree, touched := [], transferred := 0, files := 0, folders := 0 }

end Steps

end Ftp

/-!
# Where downloads are written

Everything that a download creates, removes or writes is strictly below the requested
directory, as long as no name in a listing is more than a name for the platform.
-/

namespace Ftp

open Effects Paths List Text

section Confinement
variable {w : World} {base : Path}

def StrictlyBelow (base p : Path) : Prop :=
  base <+: p ∧ p ≠ base

/-- On Windows a name with a backslash or with a drive in front is a path. -/
def IsWindowsPath (name : List Char) : Prop :=
  '\\' ∈ name ∨ ∃ c rest, name = c :: ':' :: rest ∧ isAsciiAlphabetic c = true

def PlainName (platform : Platform) (name : List Char) : Prop :=
  platform = .windows → ¬ IsWindowsPath name

lemma pushName_cases (dir : Path) (name : List Char) :
    dir <+: pushName dir name ∨ (name = ['.', '.'] ∧ pushName dir name = dir.dropLast) := by
  unfold pushName
  split
  · exact .inl prefix_rfl
  · split
    · rename_i up
      exact .inr ⟨up, rfl⟩
    · exact .inl (prefix_append dir [name])

variable {name : List Char} {s : State} {target : Path}

lemma joinUnix_plain (one : '/' ∉ name) (dir : Path) : joinUnix dir name = pushName dir name := by
  have relative : name.head? ≠ some '/' := by
    intro slash
    exact one (mem_of_mem_head? slash)
  rw [joinUnix, if_neg relative, split_of_not_mem one]
  rfl

lemma joinWindows_plain (one : '/' ∉ name) (plain : ¬ IsWindowsPath name) (current : Char → Path)
    (dir : Path) : joinWindows current dir name = dir.take 1 ++ pushName (dir.drop 1) name := by
  cases name with
  | nil => exact (take_append_drop 1 dir).symm
  | cons c rest =>
    have separators : ∀ d ∈ c :: rest, isSeparator d = false := by
      intro d member
      have slash : d ≠ '/' := fun same => one (same ▸ member)
      have backslash : d ≠ '\\' := fun same => plain (.inl (same ▸ member))
      simp [isSeparator, slash, backslash]
    have whole : (c :: rest).splitOnP isSeparator = [c :: rest] := splitOnP_eq_singleton separators
    have drive : ¬ (isAsciiAlphabetic c = true ∧ rest.head? = some ':') := by
      rintro ⟨letter, colon⟩
      obtain ⟨tail, rfl⟩ := head?_eq_some_iff.mp colon
      exact plain (.inr ⟨c, tail, rfl, letter⟩)
    rw [joinWindows, if_neg (by rw [separators c mem_cons_self]; exact Bool.false_ne_true),
      if_neg drive, whole]
    rfl

/-- A plain name leads into the directory, unless it leads to its parent. -/
lemma join_cases (one : '/' ∉ name) (plain : PlainName w.platform name) (dir : Path) :
    dir <+: w.join dir name ∨ (name = ['.', '.'] ∧ w.join dir name <+: dir) := by
  unfold World.join
  split
  · rename_i windows
    rw [joinWindows_plain one (plain windows)]
    rcases pushName_cases (dir.drop 1) name with inside | ⟨up, parent⟩
    · left
      have whole := (prefix_append_right_inj (dir.take 1)).mpr inside
      rwa [take_append_drop] at whole
    · right
      refine ⟨up, ?_⟩
      rw [parent]
      have whole := (prefix_append_right_inj (dir.take 1)).mpr (List.dropLast_prefix (dir.drop 1))
      rwa [take_append_drop] at whole
  · rw [joinUnix_plain one]
    rcases pushName_cases dir name with inside | ⟨up, parent⟩
    · exact .inl inside
    · exact .inr ⟨up, parent ▸ dropLast_prefix dir⟩

/-- The requested directory is there, and nothing else than what is below it was touched. -/
structure Confined (w : World) (base : Path) (s : State) : Prop where
  below : ∀ p ∈ s.touched, StrictlyBelow base p
  there : ∀ q, q <+: base → s.node w q = some .directory

section
variable (c : Confined w base s)
include c

lemma Confined.set {p : Path} (below : StrictlyBelow base p)
    {node : Option Node} (free : node = some .directory ∨ s.node w p ≠ some .directory) :
    Confined w base (s.set w p node) where
  below q member := by
    rcases mem_append.mp member with member | member
    · exact c.below q member
    · rw [mem_singleton] at member
      exact member ▸ below
  there q inside := by
    have old := c.there q inside
    by_cases same : w.platform.resolve q = w.platform.resolve p
    · rcases free with rfl | other
      · exact if_pos same
      · rw [State.node, same] at old
        exact absurd old other
    · exact (if_neg same).trans old

lemma Confined.createAll {dirs : List Path}
    (below : ∀ p ∈ dirs, StrictlyBelow base p) : Confined w base (createAll w s dirs) := by
  induction dirs generalizing s with
  | nil => exact c
  | cons p dirs ih =>
    obtain ⟨first, rest⟩ := forall_mem_cons.mp below
    exact ih (c.set first (.inl rfl)) rest

/-- What is missing on the way to a target inside of the directory is below it. -/
lemma Confined.missing (inside : base <+: target) :
    ∀ p ∈ s.missing w target, StrictlyBelow base p := by
  intro p member
  obtain ⟨onWay, absent⟩ := mem_filter.mp member
  have outside : ¬ p <+: base := by
    intro above
    rw [c.there p above] at absent
    cases absent
  have below := (List.prefix_or_prefix_of_prefix ((mem_inits p target).mp onWay) inside)
  refine ⟨below.resolve_left outside, ?_⟩
  rintro rfl
  exact outside prefix_rfl

/-- A target that is no directory is not on the way to the requested one. -/
lemma Confined.strictlyBelow (near : base <+: target ∨ target <+: base)
    (free : s.node w target ≠ some .directory) : StrictlyBelow base target := by
  have outside : ¬ target <+: base := fun above => free (c.there target above)
  refine ⟨near.resolve_right outside, ?_⟩
  rintro rfl
  exact outside prefix_rfl

end

variable (remotePath : List Char) {α : Type} {R : α → Prop}

lemma keeps_count {f : State → State}
    (same : ∀ s, (f s).touched = s.touched ∧ (f s).tree = s.tree) (value : State → α) :
    Keeps (Confined w base) (step (fun s => (.ok (value s), f s)) : Transfer α)
      (fun _ => True) := by
  apply keeps_step
  intro s c
  refine ⟨⟨?_, ?_⟩, fun _ _ => trivial⟩
  · rw [(same s).1]
    exact c.below
  · intro q inside
    have old := c.there q inside
    rwa [State.node, ← (same s).2] at old

lemma keeps_stop (e : Stop) : Keeps (Confined w base) (stop e : Transfer α) R :=
  keeps_throw e

lemma keeps_require {x : Option α} (h : ∀ a, x = some a → R a) (e : Stop) :
    Keeps (Confined w base) (require x e) R := by
  cases x with
  | none => exact keeps_stop e
  | some a => exact keeps_pure (h a rfl)

lemma keeps_request : Keeps (Confined w base) request (fun _ => True) :=
  keeps_count (f := fun s => { s with tick := s.tick + 1 }) (fun _ => ⟨rfl, rfl⟩) State.tick

lemma keeps_checkCanceled : Keeps (Confined w base) (checkCanceled w) (fun _ => True) := by
  refine keeps_bind keeps_request (fun now _ => ?_)
  split
  · exact keeps_stop _
  · exact keeps_pure trivial

lemma keeps_ensureDirectory (inside : base <+: target) :
    Keeps (Confined w base) (ensureDirectory w target) (fun _ => True) := by
  refine keeps_bind keeps_request (fun now _ => ?_)
  refine keeps_bind (keeps_count (f := id) (fun _ => ⟨rfl, rfl⟩) _) (fun there _ => ?_)
  split
  · exact keeps_pure trivial
  · apply keeps_step
    intro s c
    split
    · exact ⟨c, fun _ _ => trivial⟩
    · have below : ∀ p ∈ (s.missing w target).take (w.allows now), StrictlyBelow base p :=
        fun p member => c.missing inside p (mem_of_mem_take member)
      have created := c.createAll below
      simp only
      split
      · exact ⟨created, fun _ _ => trivial⟩
      · exact ⟨created, fun _ _ => trivial⟩

lemma keeps_clearTarget (near : base <+: target ∨ target <+: base)
    (behavior : FtpOverwriteBehavior) :
    Keeps (Confined w base) (clearTarget w behavior target) (fun _ => True) := by
  refine keeps_bind keeps_request (fun now _ => ?_)
  apply keeps_step
  intro s c
  split
  · exact ⟨c, fun _ _ => trivial⟩
  · split
    · rename_i file
      have free : s.node w target ≠ some .directory := by
        rw [file]
        decide
      split
      · exact ⟨c, fun _ _ => trivial⟩
      · exact ⟨c.set (c.strictlyBelow near free) (.inr free), fun _ _ => trivial⟩
    · exact ⟨c, fun _ _ => trivial⟩

lemma keeps_writeFile (near : base <+: target ∨ target <+: base) :
    Keeps (Confined w base) (writeFile w target) (fun _ => True) := by
  refine keeps_bind keeps_request (fun now _ => ?_)
  apply keeps_step
  intro s c
  split
  · exact ⟨c, fun _ _ => trivial⟩
  · rename_i possible
    rw [not_or] at possible
    have free : some Node.file = some .directory ∨ s.node w target ≠ some .directory :=
      Or.inr possible.1
    have written := c.set (c.strictlyBelow near possible.1) free
    split
    · exact ⟨written, fun _ _ => trivial⟩
    · exact ⟨written, fun _ _ => trivial⟩

/-- An entry of some listing of the server. -/
def Listed (w : World) (showHidden : Bool) (entry : FtpDirectoryEntry) : Prop :=
  ∃ now path lines, w.list now path = some lines ∧
    ∃ line ∈ lines, entryOf w showHidden line = some entry

/-- A folder is never the parent of the listed directory. -/
lemma Listed.folder {showHidden : Bool} {entry : FtpDirectoryEntry}
    (listed : Listed w showHidden entry) (folder : entry.kind = .folder) :
    entry.name ≠ ['.', '.'] := by
  obtain ⟨now, path, lines, -, line, -, read⟩ := listed
  unfold entryOf at read
  split at read
  · rename_i file parsed
    split at read
    · cases read
    · rename_i other
      split at read
      · cases read
        exact fun up => other (.inr up)
      · cases read
  · simp only at read
    split at read
    · cases read
    · split at read
      · cases read
        cases folder
      · cases read

lemma keeps_readDirectory (path : List Char) (showHidden : Bool) :
    Keeps (Confined w base) (readDirectory w path showHidden)
      (fun entries => ∀ e ∈ entries, Listed w showHidden e) := by
  have lines : Keeps (Confined w base) (listLines w path)
      (fun lines => ∃ now, w.list now path = some lines) := by
    refine keeps_bind keeps_request (fun now _ => ?_)
    exact keeps_require (fun lines answer => ⟨now, answer⟩) _
  refine keeps_bind lines ?_
  rintro lines ⟨now, answer⟩
  apply keeps_pure
  intro e member
  rw [mem_insertionSort] at member
  obtain ⟨line, inside, read⟩ := mem_filterMap.mp member
  exact ⟨now, path, lines, answer, line, inside, read⟩

lemma keeps_nameOf : Keeps (Confined w base) (nameOf remotePath) (fun name => '/' ∉ name) := by
  unfold nameOf remotePathName
  simp only
  split
  · rename_i name found
    split at found
    · cases found
    · cases found
      apply keeps_pure
      cases last : (Text.split '/' (trimSlashes remotePath)).getLast? with
      | none => exact absurd (getLast?_eq_none_iff.mp last) split_ne_nil
      | some name => exact not_mem_of_mem_split (mem_of_getLast? last)
  · exact keeps_stop _

lemma keeps_findEntry (name : List Char) (showHidden : Bool) :
    Keeps (Confined w base) (findEntry w remotePath name showHidden)
      (fun entry => Listed w showHidden entry ∧ entry.name = name) := by
  refine keeps_bind (keeps_readDirectory _ showHidden) (fun listing listed => ?_)
  apply keeps_require
  intro entry found
  exact ⟨listed entry (mem_of_find?_eq_some found), by simpa using find?_some found⟩

lemma keeps_directoryRemoteSize (showHidden : Bool) (fuel : Nat) (path : List Char) :
    Keeps (Confined w base) (directoryRemoteSize w showHidden fuel path) (fun _ => True) := by
  induction fuel generalizing path with
  | zero => exact keeps_stop _
  | succ fuel ih =>
    refine keeps_bind (keeps_readDirectory path showHidden) (fun entries listed => ?_)
    clear listed
    induction entries with
    | nil => exact keeps_pure trivial
    | cons entry rest later =>
      refine keeps_bind (R := fun _ => True) ?_ (fun first _ => ?_)
      · beta_reduce
        split
        · exact ih _
        · exact keeps_pure trivial
      · exact keeps_bind later (fun more _ => keeps_pure trivial)

lemma keeps_downloadFile (near : base <+: target ∨ target <+: base)
    (behavior : FtpOverwriteBehavior) (remotePath : List Char) :
    Keeps (Confined w base) (downloadFile w behavior remotePath target) (fun _ => True) := by
  refine keeps_bind (keeps_clearTarget near behavior) (fun _ _ => ?_)
  have retrieved : Keeps (Confined w base) (retrieveFile w remotePath) (fun _ => True) :=
    keeps_bind keeps_request (fun now _ => keeps_require (fun _ _ => trivial) _)
  refine keeps_bind retrieved (fun size _ => ?_)
  refine keeps_bind (keeps_count (f := fun s => { s with transferred := s.transferred + size })
    (fun _ => ⟨rfl, rfl⟩) (fun _ => ())) (fun _ _ => ?_)
  refine keeps_bind (keeps_writeFile near) (fun _ _ => ?_)
  exact keeps_count (f := fun s => { s with files := s.files + 1 }) (fun _ => ⟨rfl, rfl⟩)
    (fun _ => ())

/-- One call, when the calls for the entries of a folder keep what is kept. -/
lemma keeps_downloadRecursive {showHidden : Bool}
    (plain : ∀ entry, Listed w showHidden entry → PlainName w.platform entry.name)
    (behavior : FtpOverwriteBehavior) (fuel : Nat) (remotePath : List Char) {dir : Path}
    (inside : base <+: dir) :
    Keeps (Confined w base) (downloadRecursive w behavior showHidden fuel remotePath dir)
      (fun _ => True) := by
  induction fuel generalizing remotePath dir with
  | zero => exact keeps_stop _
  | succ fuel ih =>
    refine keeps_bind keeps_checkCanceled (fun _ _ => ?_)
    refine keeps_bind (keeps_nameOf remotePath) (fun name one => ?_)
    refine keeps_bind (keeps_findEntry remotePath name showHidden) ?_
    rintro entry ⟨listed, rfl⟩
    have cases := join_cases one (plain entry listed) dir
    split
    · rename_i folder
      have deeper : base <+: w.join dir entry.name := by
        rcases cases with below | ⟨up, -⟩
        · exact inside.trans below
        · exact absurd up (listed.folder folder)
      refine keeps_bind (keeps_ensureDirectory deeper) (fun _ _ => ?_)
      refine keeps_bind (keeps_count (f := fun s => { s with folders := s.folders + 1 })
        (fun _ => ⟨rfl, rfl⟩) (fun _ => ())) (fun _ _ => ?_)
      refine keeps_bind (keeps_readDirectory remotePath showHidden) (fun children _ => ?_)
      exact keeps_forM (fun child _ => ih _ deeper)
    · have near : base <+: w.join dir entry.name ∨ w.join dir entry.name <+: base := by
        rcases cases with below | ⟨-, above⟩
        · exact .inl (inside.trans below)
        · exact prefix_or_prefix_of_prefix inside above
      exact keeps_downloadFile near behavior remotePath

/-- In every download into a directory that is there, and on Windows from a server whose
listings have no names with a backslash or a drive in them, everything that is created,
removed or written is strictly below the directory, however the download ends. -/
theorem downloads_stay_below (w : World) (behavior : FtpOverwriteBehavior) (showHidden : Bool)
    (fuel : Nat) (remotePath : List Char) {base : Path} {tree : Path → Option Node}
    (there : ∀ q, q <+: base → tree (w.platform.resolve q) = some .directory)
    (plain : ∀ now path lines line entry, w.list now path = some lines → line ∈ lines →
      entryOf w showHidden line = some entry → PlainName w.platform entry.name) :
    ∀ p ∈ (downloadFtpPath w behavior showHidden fuel remotePath base tree).2.touched,
      base <+: p ∧ p ≠ base := by
  have listed : ∀ entry, Listed w showHidden entry → PlainName w.platform entry.name := by
    rintro entry ⟨now, path, lines, answer, line, member, read⟩
    exact plain now path lines line entry answer member read
  have kept : Keeps (Confined w base)
      (downloadEntry w behavior showHidden fuel (normalizeRemotePath remotePath) base)
      (fun _ => True) := by
    refine keeps_bind (keeps_nameOf _) (fun name _ => ?_)
    refine keeps_bind (keeps_findEntry _ name showHidden) (fun properties _ => ?_)
    have total : Keeps (Confined w base) (totalBytes w showHidden fuel
        (normalizeRemotePath remotePath) properties) (fun _ => True) := by
      unfold totalBytes
      split
      · exact keeps_directoryRemoteSize showHidden fuel _
      · exact keeps_pure trivial
    refine keeps_bind total (fun _ _ => ?_)
    refine keeps_bind (keeps_downloadRecursive listed behavior fuel _ prefix_rfl)
      (fun _ _ => ?_)
    exact keeps_count (f := id) (fun _ => ⟨rfl, rfl⟩) _
  have start : Confined w base
      { tick := 0, tree, touched := [], transferred := 0, files := 0, folders := 0 } :=
    ⟨fun _ h => (nomatch h), there⟩
  exact (kept _ start).1.below

end Confinement

def folderLine : List Char :=
  "drwxr-xr-x 2 ftp ftp 4096 Jan 01 2024 pub".toList

def fileLineStart : List Char :=
  "-rw-r--r-- 1 ftp ftp 5 Jan 01 2024 ".toList

def sampleWorld (platform : Platform) (name : List Char) : World where
  platform
  current _ := []
  lowercase := asciiLower
  parsePosix line :=
    if line = folderLine then
      some { name := "pub".toList, isDirectory := true, isSymlink := false, size := 4096 }
    else if fileLineStart <+: line then
      some {
        name := line.drop fileLineStart.length
        isDirectory := false
        isSymlink := false
        size := 5 }
    else none
  list _ path :=
    if path = "/".toList then some [folderLine]
    else if path = "/pub".toList then some [fileLineStart ++ name]
    else none
  retrieve _ _ := some 5
  canceled _ := false
  allows _ := 10

def directoriesTo (base p : Path) : Option Node :=
  if p <+: base then some .directory else none

theorem linux_download_stays_below :
    ¬ ∃ p ∈ (downloadFtpPath (sampleWorld .linux "C:\\evil.txt".toList) .fail false 3 "/pub".toList
      ["dl".toList] (directoriesTo ["dl".toList])).2.touched,
      ¬ (["dl".toList] <+: p ∧ p ≠ ["dl".toList]) := by
  rintro ⟨p, touched, outside⟩
  apply outside
  refine downloads_stay_below _ _ _ _ _ ?_ ?_ p touched
  · intro q inside
    have same : Platform.resolve .linux q = q := map_id q
    exact (congrArg (directoriesTo ["dl".toList]) same).trans (if_pos inside)
  · intro now path lines line entry answer member read windows
    cases windows

/-- On Windows the name of the file is a path out of the directory. -/
theorem windows_name_escapes :
    ["C:".toList, "evil.txt".toList] ∈
        (downloadFtpPath (sampleWorld .windows "C:\\evil.txt".toList) .fail false 3
          "/pub".toList ["C:".toList, "dl".toList]
          (directoriesTo ["c:".toList, "dl".toList])).2.touched ∧
      ¬ ["C:".toList, "dl".toList] <+: ["C:".toList, "evil.txt".toList] := by
  decide +kernel

end Ftp
