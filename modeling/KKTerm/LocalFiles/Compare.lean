import KKTerm.Library.Text
import Mathlib.Data.List.Sort
import Mathlib.Data.List.Destutter

/-!
# Comparing two folders

The entries of two folders are merged name by name, the folders among them first. The rows are
made in this order, up to a fixed number, and the row of a folder gets its status when all rows
below it are made. Files are read in chunks; how much one read returns is up to the system.
-/

namespace FolderCompare

/-- A time is in nanoseconds since 1970. A link has its own size, and leads to a file or to nothing
that can be read. -/
inductive Node where
  | file (content : List UInt8) (modified : Int)
  | dir (modified : Int) (entries : List (List Char × Node))
  | link (size : Nat) (modified : Int) (target : Option (List UInt8))

abbrev Folder := List (List Char × Node)

def Node.isDir : Node → Bool
  | .dir _ _ => true
  | _ => false

def Node.entries : Node → Option Folder
  | .dir _ entries => some entries
  | _ => none

def Node.size : Node → Nat
  | .file content _ => content.length
  | .dir _ _ => 0
  | .link size _ _ => size

def Node.modified : Node → Int
  | .file _ modified => modified
  | .dir modified _ => modified
  | .link _ modified _ => modified

/-- What is read when the path is opened. -/
def Node.content : Node → Option (List UInt8)
  | .file content _ => some content
  | .dir _ _ => none
  | .link _ _ target => target

structure FolderCompareSide where
  size : Option Nat
  modified : Option Nat
  deriving DecidableEq

inductive Status where
  | same
  | different
  | leftOnly
  | rightOnly
  deriving DecidableEq

structure FolderCompareRow where
  relativePath : List Char
  name : List Char
  depth : Nat
  isDir : Bool
  status : Status
  left : Option FolderCompareSide
  right : Option FolderCompareSide
  deriving DecidableEq

structure FolderCompareSummary where
  same : Nat := 0
  different : Nat := 0
  leftOnly : Nat := 0
  rightOnly : Nat := 0
  deriving DecidableEq

structure FolderCompareResult where
  leftRoot : List Char
  rightRoot : List Char
  rows : List FolderCompareRow
  summary : FolderCompareSummary
  truncated : Bool

def folderCompareMaxEntries : Nat := 200000

def folderCompareMaxContentBytes : Nat := 64 * 1024 * 1024

def transferChunkSize : Nat := 64 * 1024

/-- An open file, with the number of reads. -/
structure OpenFile where
  rest : List UInt8
  tick : Nat

/-- A read returns something unless the file is at its end or there is no room. -/
def OpenFile.read (amount : Nat → Nat) (room : Nat) (f : OpenFile) : List UInt8 × OpenFile :=
  let most := min room f.rest.length
  let read := if most = 0 then 0 else amount f.tick % most + 1
  (f.rest.take read, ⟨f.rest.drop read, f.tick + 1⟩)

/-- Reads until there is no room or the file is at its end. -/
def readFull (amount : Nat → Nat) : Nat → Nat → OpenFile → List UInt8 × OpenFile
  | 0, _, f => ([], f)
  | turns + 1, room, f =>
    if room = 0 then ([], f)
    else
      let (read, f) := f.read amount room
      if read = [] then ([], f)
      else
        let (more, f) := readFull amount turns (room - read.length) f
        (read ++ more, f)

def compareChunks (amountLeft amountRight : Nat → Nat) : Nat → OpenFile → OpenFile → Bool
  | 0, _, _ => false
  | turns + 1, left, right =>
    let (leftRead, left) := readFull amountLeft transferChunkSize transferChunkSize left
    let (rightRead, right) := readFull amountRight transferChunkSize transferChunkSize right
    if leftRead.length ≠ rightRead.length then false
    else if leftRead.length = 0 then true
    else if leftRead ≠ rightRead then false
    else compareChunks amountLeft amountRight turns left right

/-- There is no answer when one of the files cannot be read. -/
def filesEqual (amountLeft amountRight : Nat → Nat) (left right : Node) : Option Bool := do
  let leftContent ← left.content
  let rightContent ← right.content
  if leftContent.length ≠ rightContent.length then some false
  else some (compareChunks amountLeft amountRight (leftContent.length + 1) ⟨leftContent, 0⟩
    ⟨rightContent, 0⟩)

/-- Whole seconds since 1970, if the time is not before that. -/
def unixTimestamp (time : Int) : Option Nat :=
  if time < 0 then none else some (time.toNat / 1000000000)

structure LevelEntry where
  isDir : Bool
  node : Node
  size : Option Nat
  modified : Option Nat

def levelEntry (node : Node) : LevelEntry where
  isDir := node.isDir
  node
  size := if node.isDir then none else some node.size
  modified := unixTimestamp node.modified

def readLevelEntries (folder : Option Folder) (name : List Char) : Option LevelEntry :=
  (folder.bind (List.lookup name)).map levelEntry

def sideOf (entry : Option LevelEntry) : Option FolderCompareSide :=
  entry.map fun entry => ⟨entry.size, entry.modified⟩

def fileEntriesSame (amountLeft amountRight : Nat → Nat) (left right : LevelEntry) : Bool :=
  if left.size ≠ right.size then false
  else if left.size.getD 0 > folderCompareMaxContentBytes then left.modified = right.modified
  else (filesEqual amountLeft amountRight left.node right.node).getD false

def FolderCompareSummary.bump (summary : FolderCompareSummary) : Status → FolderCompareSummary
  | .same => { summary with same := summary.same + 1 }
  | .different => { summary with different := summary.different + 1 }
  | .leftOnly => { summary with leftOnly := summary.leftOnly + 1 }
  | .rightOnly => { summary with rightOnly := summary.rightOnly + 1 }

structure State where
  rows : List FolderCompareRow
  summary : FolderCompareSummary
  count : Nat

/-- Which side of a comparison reads how much. -/
abbrev Amounts := List Char → Bool → Nat → Nat

section Levels
variable (lowercase : List Char → List Char) (amounts : Amounts)

def namesOf (folder : Option Folder) : List (List Char) :=
  (folder.getD []).map Prod.fst

def isFolderName (left right : Option Folder) (name : List Char) : Bool :=
  ((readLevelEntries left name).or (readLevelEntries right name)).any LevelEntry.isDir

/-- Folders first, then by lower-case names. -/
def comesAfter (left right : Option Folder) (a b : List Char) : Bool :=
  if isFolderName left right a = isFolderName left right b then
    Text.precedes (lowercase b) (lowercase a)
  else isFolderName left right b

/-- The names of both folders, each once. -/
def mergedNames (left right : Option Folder) : List (List Char) :=
  ((((namesOf left ++ namesOf right).insertionSort
      (fun a b => Text.precedes b a = false)).destutter (· ≠ ·)).insertionSort
    (fun a b => comesAfter lowercase left right a b = false))

def joinRelative (parentRel name : List Char) : List Char :=
  if parentRel = [] then name else parentRel ++ '/' :: name

def folderStatus (left right : Option LevelEntry) (subtreeDiffers : Bool) : Status :=
  if left.isNone then .rightOnly
  else if right.isNone then .leftOnly
  else if subtreeDiffers || left.any LevelEntry.isDir != right.any LevelEntry.isDir then .different
  else .same

def fileStatus (relativePath : List Char) : Option LevelEntry → Option LevelEntry → Status
  | some left, some right =>
    if fileEntriesSame (amounts relativePath true) (amounts relativePath false) left right then
      .same
    else .different
  | some _, none => .leftOnly
  | none, some _ => .rightOnly
  | none, none => .same

def subfolder (entry : Option LevelEntry) : Option Folder :=
  entry.bind fun entry => entry.node.entries

/-- A file row, or a folder row whose status is filled in when the rows below it are made. -/
def compareName
    (visit : Option Folder → Option Folder → List Char → Nat → State → Option (Bool × State))
    (left right : Option Folder) (parentRel : List Char) (depth : Nat) (name : List Char)
    (s : State) : Option (Status × State) := do
  let leftEntry := readLevelEntries left name
  let rightEntry := readLevelEntries right name
  let relativePath := joinRelative parentRel name
  let isDir := leftEntry.any LevelEntry.isDir || rightEntry.any LevelEntry.isDir
  let row (status : Status) : FolderCompareRow :=
    ⟨relativePath, name, depth, isDir, status, sideOf leftEntry, sideOf rightEntry⟩
  if isDir then
    let (subtreeDiffers, made) ← visit (subfolder leftEntry) (subfolder rightEntry) relativePath
      (depth + 1) { s with rows := s.rows ++ [row .same] }
    let status := folderStatus leftEntry rightEntry subtreeDiffers
    some (status, { made with
      rows := made.rows.set s.rows.length (row status), summary := made.summary.bump status })
  else
    let status := fileStatus amounts relativePath leftEntry rightEntry
    some (status, { s with
      rows := s.rows ++ [row status], summary := s.summary.bump status })

def compareNames
    (visit : Option Folder → Option Folder → List Char → Nat → State → Option (Bool × State))
    (left right : Option Folder) (parentRel : List Char) (depth : Nat) :
    List (List Char) → Bool → State → Option (Bool × State)
  | [], differs, s => some (differs, s)
  | name :: rest, differs, s =>
    if folderCompareMaxEntries ≤ s.count then some (differs, s)
    else do
      let (status, s) ← compareName amounts visit left right parentRel depth name
        { s with count := s.count + 1 }
      compareNames visit left right parentRel depth rest (differs || status ≠ .same) s

/-- The number bounds how deep calls may be nested; there is no result when it runs out. -/
def compareDirLevel :
    Nat → Option Folder → Option Folder → List Char → Nat → State → Option (Bool × State)
  | 0, _, _, _, _, _ => none
  | fuel + 1, left, right, parentRel, depth, s =>
    compareNames amounts (compareDirLevel fuel) left right parentRel depth
      (mergedNames lowercase left right) false s

/-- The roots are given with the texts that they are displayed as. -/
def compareFolders (fuel : Nat) (leftRoot rightRoot : List Char) (left right : Folder) :
    Option FolderCompareResult := do
  let (_, s) ← compareDirLevel lowercase amounts fuel (some left) (some right) [] 0
    { rows := [], summary := {}, count := 0 }
  some {
    leftRoot, rightRoot, rows := s.rows, summary := s.summary
    truncated := folderCompareMaxEntries ≤ s.count }

end Levels

end FolderCompare
