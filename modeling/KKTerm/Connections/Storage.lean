import KKTerm.Library.Cascade
import KKTerm.Library.ParentTree
import KKTerm.Library.Text
import Mathlib.Data.List.Sort

/-!
# Workspaces, folders and Connections

The three tables in the order of insertion, and the queries and statements on
them. A Workspace column of a folder or a Connection may be empty. The columns of
a Connection that no query of the tree reads are left out.
-/

namespace Connections

open Fallible Text

abbrev Id := List Char

def defaultWorkspaceId : Id :=
  "default".toList

inductive StorageError where
  | invalid (message : String)
  | constraint
  | recursion
  deriving DecidableEq

structure Workspace where
  id : Id
  name : List Char
  icon : Option (List Char)
  iconColor : Option (List Char)
  iconBackgroundColor : Option (List Char)
  isDefault : Bool
  sortOrder : Int

structure FolderRow where
  id : Id
  name : List Char
  iconDataUrl : Option (List Char)
  parentFolderId : Option Id
  workspaceId : Option Id
  sortOrder : Int
  deriving DecidableEq

structure ConnectionRow where
  id : Id
  folderId : Option Id
  workspaceId : Option Id
  name : List Char
  sortOrder : Int
  deriving DecidableEq

structure Store where
  workspaces : List Workspace
  folders : List FolderRow
  connections : List ConnectionRow

def requiredField (field : String) (value : List Char) : Except StorageError (List Char) := do
  reject (trim value = []) (.invalid (field ++ " is required"))
  pure (trim value)

/-- `trim_optional`; `normalize_optional_id` is the same. -/
def trimOptional (value : Option (List Char)) : Option (List Char) :=
  (value.map trim).filter (· ≠ [])

def normalizeOptionalId (value : Option Id) : Option Id :=
  trimOptional value

/-- A missing Workspace is the Default one. -/
def normalizeWorkspaceId (workspaceId : Id) : Id :=
  if trim workspaceId = [] then defaultWorkspaceId else trim workspaceId

def folderNameFor (folderId : Id) : List Char :=
  if folderId = "local".toList then "Local workspace".toList
  else if folderId = "manual".toList then "Manual".toList
  else folderId

def iconStarts : List String :=
  ["data:image/", "reicon:", "lucide:", "material:", "os:", "brand:"]

def normalizeConnectionIconDataUrl (value : Option (List Char)) :
    Except StorageError (Option (List Char)) :=
  match trimOptional value with
  | none => pure none
  | some value => do
    reject (512 * 1024 < byteLength value) (.invalid "connection icon data URL is too large")
    reject (¬ iconStarts.any (fun start => start.toList.isPrefixOf value))
      (.invalid "connection icon must be an image data URL or icon ref")
    pure (some value)

/-- The time in milliseconds and the number that a new id ends with. -/
structure Stamp where
  unique : Nat
  sequence : Nat

def slugChar (c : Char) : Char :=
  if isAsciiAlphanumeric c then c.toLower else '-'

def makeUniqueId (fallback name : List Char) (stamp : Stamp) : Id :=
  let parts := (split '-' (name.map slugChar)).filter (· ≠ [])
  let slug := List.intercalate ['-'] parts
  (if slug = [] then fallback else slug) ++ '-' :: Nat.toDigits 10 stamp.unique ++
    '-' :: Nat.toDigits 10 stamp.sequence

def makeConnectionId (name : List Char) (stamp : Stamp) : Id :=
  makeUniqueId "connection".toList name stamp

def makeFolderId (name : List Char) (stamp : Stamp) : Id :=
  makeUniqueId "folder".toList name stamp

def makeWorkspaceId (name : List Char) (stamp : Stamp) : Id :=
  makeUniqueId "workspace".toList name stamp

/-- Texts are compared by their code points. -/
def textLe : List Char → List Char → Bool
  | [], _ => true
  | _ :: _, [] => false
  | a :: s, b :: t => a.toNat < b.toNat || (a.toNat == b.toNat && textLe s t)

/-- `ORDER BY sort_order, name`. -/
def bySortOrder {ρ : Type} (sortOrder : ρ → Int) (name : ρ → List Char) (rows : List ρ) : List ρ :=
  rows.insertionSort (fun a b =>
    sortOrder a < sortOrder b ∨ (sortOrder a = sortOrder b ∧ textLe (name a) (name b) = true))

/-- `COALESCE(MAX(sort_order), -1) + 1`. -/
def nextSortOrder (orders : List Int) : Int :=
  orders.max?.getD (-1) + 1

namespace Store

variable (s : Store)

def workspaceIds : List Id :=
  s.workspaces.map Workspace.id

def folderIds : List Id :=
  s.folders.map FolderRow.id

def connectionIds : List Id :=
  s.connections.map ConnectionRow.id

def folder (id : Id) : Option FolderRow :=
  s.folders.find? (·.id = id)

def connection (id : Id) : Option ConnectionRow :=
  s.connections.find? (·.id = id)

def folderWorkspaceId (folderId : Id) : Id :=
  normalizeWorkspaceId (((s.folder folderId).bind FolderRow.workspaceId).getD [])

/-- The Workspace of a folder; at the root, the given one. -/
def workspaceIn (folderId : Option Id) (root : Id) : Id :=
  match folderId with
  | some folder => s.folderWorkspaceId folder
  | none => root

def connectionWorkspaceId (connectionId : Id) : Id :=
  normalizeWorkspaceId (((s.connection connectionId).bind ConnectionRow.workspaceId).getD [])

/-- The stored parent, when there is such a folder. -/
def folderParentId (folderId : Id) : Option (Option Id) :=
  (s.folder folderId).map FolderRow.parentFolderId

def foldersForParent (parentFolderId : Option Id) : List FolderRow :=
  bySortOrder FolderRow.sortOrder FolderRow.name
    (s.folders.filter (·.parentFolderId = parentFolderId))

def rootFoldersForWorkspace (workspaceId : Id) : List FolderRow :=
  bySortOrder FolderRow.sortOrder FolderRow.name
    (s.folders.filter (fun f => f.parentFolderId = none ∧ f.workspaceId = some workspaceId))

def listConnectionsForFolder (folderId : Option Id) : List ConnectionRow :=
  bySortOrder ConnectionRow.sortOrder ConnectionRow.name
    (s.connections.filter (·.folderId = folderId))

def listRootConnectionsForWorkspace (workspaceId : Id) : List ConnectionRow :=
  bySortOrder ConnectionRow.sortOrder ConnectionRow.name
    (s.connections.filter (fun c => c.folderId = none ∧ c.workspaceId = some workspaceId))

def listFolderIdsForParent (parentFolderId : Option Id) : List Id :=
  (s.foldersForParent parentFolderId).map FolderRow.id

def listRootFolderIdsForWorkspace (workspaceId : Id) : List Id :=
  (s.rootFoldersForWorkspace workspaceId).map FolderRow.id

def listConnectionIdsForFolder (folderId : Option Id) : List Id :=
  (s.listConnectionsForFolder folderId).map ConnectionRow.id

def listRootConnectionIdsForWorkspace (workspaceId : Id) : List Id :=
  (s.listRootConnectionsForWorkspace workspaceId).map ConnectionRow.id

def nextFolderSortOrder (parentFolderId : Option Id) : Int :=
  nextSortOrder ((s.foldersForParent parentFolderId).map FolderRow.sortOrder)

def nextRootFolderSortOrderForWorkspace (workspaceId : Id) : Int :=
  nextSortOrder ((s.rootFoldersForWorkspace workspaceId).map FolderRow.sortOrder)

def nextConnectionSortOrder (folderId : Option Id) : Int :=
  nextSortOrder ((s.listConnectionsForFolder folderId).map ConnectionRow.sortOrder)

def nextRootConnectionSortOrderForWorkspace (workspaceId : Id) : Int :=
  nextSortOrder ((s.listRootConnectionsForWorkspace workspaceId).map ConnectionRow.sortOrder)

/-- Nested folders cannot be deeper than there are folders, so a search that does
not find its end within that depth never ends. -/
def folderHasDescendant (folderId descendantId : Id) : Option Bool :=
  ParentTree.isBelow (fun id => s.listFolderIdsForParent (some id)) descendantId
    s.folders.length folderId

/-- `REFERENCES workspaces(id)`. -/
def checkWorkspace (workspaceId : Option Id) : Except StorageError Unit :=
  reject (¬ ∀ w ∈ workspaceId, w ∈ s.workspaceIds) .constraint

/-- `REFERENCES connection_folders(id)`. -/
def checkFolder (folderId : Option Id) : Except StorageError Unit :=
  reject (¬ ∀ f ∈ folderId, f ∈ s.folderIds) .constraint

def insertFolder (row : FolderRow) : Except StorageError Store := do
  reject (row.id ∈ s.folderIds) .constraint
  s.checkFolder row.parentFolderId
  s.checkWorkspace row.workspaceId
  pure { s with folders := s.folders ++ [row] }

def insertConnection (row : ConnectionRow) : Except StorageError Store := do
  reject (row.id ∈ s.connectionIds) .constraint
  s.checkFolder row.folderId
  s.checkWorkspace row.workspaceId
  pure { s with connections := s.connections ++ [row] }

def insertWorkspace (row : Workspace) : Except StorageError Store := do
  reject (row.id ∈ s.workspaceIds) .constraint
  pure { s with workspaces := s.workspaces ++ [row] }

/-- `UPDATE connection_folders … WHERE id = ?`. -/
def setFolder (id : Id) (change : FolderRow → FolderRow) : Store :=
  { s with folders := s.folders.map (fun f => if f.id = id then change f else f) }

def setConnection (id : Id) (change : ConnectionRow → ConnectionRow) : Store :=
  { s with connections := s.connections.map (fun c => if c.id = id then change c else c) }

def setWorkspace (id : Id) (change : Workspace → Workspace) : Store :=
  { s with workspaces := s.workspaces.map (fun w => if w.id = id then change w else w) }

/-- Only the row of the folder itself is changed; without a Workspace it keeps its own. -/
def putFolder (id : Id) (parentFolderId workspaceId : Option Id) : Store :=
  let moved := s.setFolder id (fun f => { f with parentFolderId })
  match workspaceId with
  | some workspaceId => moved.setFolder id (fun f => { f with workspaceId := some workspaceId })
  | none => moved

def putConnection (id : Id) (folderId workspaceId : Option Id) : Store :=
  let moved := s.setConnection id (fun c => { c with folderId })
  match workspaceId with
  | some workspaceId => moved.setConnection id (fun c => { c with workspaceId := some workspaceId })
  | none => moved

/-- The folders with the given ids go, with all that is in them. -/
def deleteFolders (ids : List Id) : Store :=
  let gone := Cascade.cascade FolderRow.id FolderRow.parentFolderId s.folders ids
  { s with
    folders := s.folders.filter (·.id ∉ gone)
    connections := s.connections.filter (fun c => ¬ c.folderId.any (· ∈ gone)) }

/-- A Workspace goes, with the folders and Connections that name it. -/
def deleteWorkspaceRow (id : Id) : Store :=
  let named := (s.folders.filter (·.workspaceId = some id)).map FolderRow.id
  let s' := s.deleteFolders named
  { s' with
    workspaces := s'.workspaces.filter (·.id ≠ id)
    connections := s'.connections.filter (·.workspaceId ≠ some id) }

/-- A missing folder is created at the root, in no Workspace. -/
def ensureFolderExists (id : Id) (fallbackName : List Char) : Except StorageError Store :=
  if id ∈ s.folderIds then pure s
  else s.insertFolder
    { id, name := fallbackName, iconDataUrl := none, parentFolderId := none, workspaceId := none
      sortOrder := s.nextFolderSortOrder none }

def ensureTarget (folderId : Option Id) : Except StorageError Store :=
  match folderId with
  | none => pure s
  | some id => s.ensureFolderExists id (folderNameFor id)

/-- The moved id is put at its place among the others. -/
def placeAt (ids : List Id) : Option (Id × Nat) → List Id
  | none => ids
  | some (moved, index) =>
    let others := ids.filter (· ≠ moved)
    others.insertIdx (min index others.length) moved

def numberFolders (ids : List Id) : Store :=
  ids.zipIdx.foldl (fun s entry => s.setFolder entry.1 ({ · with sortOrder := entry.2 })) s

def numberConnections (ids : List Id) : Store :=
  ids.zipIdx.foldl (fun s entry => s.setConnection entry.1 ({ · with sortOrder := entry.2 })) s

def reorderFolderIds (parentFolderId : Option Id) (moved : Option (Id × Nat)) : Store :=
  s.numberFolders (placeAt (s.listFolderIdsForParent parentFolderId) moved)

def reorderRootFolderIdsForWorkspace (workspaceId : Id) (moved : Option (Id × Nat)) : Store :=
  s.numberFolders (placeAt (s.listRootFolderIdsForWorkspace workspaceId) moved)

/-- The folders of a parent, or the root folders of a Workspace. -/
def reorderFolders (parentFolderId : Option Id) (workspaceId : Id) (moved : Option (Id × Nat)) :
    Store :=
  match parentFolderId with
  | some parent => s.reorderFolderIds (some parent) moved
  | none => s.reorderRootFolderIdsForWorkspace workspaceId moved

def reorderConnectionIds (folderId : Option Id) (moved : Option (Id × Nat)) : Store :=
  s.numberConnections (placeAt (s.listConnectionIdsForFolder folderId) moved)

def reorderRootConnectionIdsForWorkspace (workspaceId : Id) (moved : Option (Id × Nat)) : Store :=
  s.numberConnections (placeAt (s.listRootConnectionIdsForWorkspace workspaceId) moved)

def reorderConnections (folderId : Option Id) (workspaceId : Id) (moved : Option (Id × Nat)) :
    Store :=
  match folderId with
  | some folder => s.reorderConnectionIds (some folder) moved
  | none => s.reorderRootConnectionIdsForWorkspace workspaceId moved

end Store

inductive ConnectionFolder where
  | mk (id : Id) (name : List Char) (iconDataUrl : Option (List Char))
      (connections : List ConnectionRow) (folders : List ConnectionFolder)

structure ConnectionTree where
  connections : List ConnectionRow
  folders : List ConnectionFolder

namespace ConnectionFolder

mutual

def folderIds : ConnectionFolder → List Id
  | mk id _ _ _ folders => id :: nestedFolderIds folders

def nestedFolderIds : List ConnectionFolder → List Id
  | [] => []
  | folder :: rest => folder.folderIds ++ nestedFolderIds rest

end

mutual

def connectionIds : ConnectionFolder → List Id
  | mk _ _ _ connections folders =>
    connections.map ConnectionRow.id ++ nestedConnectionIds folders

def nestedConnectionIds : List ConnectionFolder → List Id
  | [] => []
  | folder :: rest => folder.connectionIds ++ nestedConnectionIds rest

end

end ConnectionFolder

namespace ConnectionTree

def folderIds (tree : ConnectionTree) : List Id :=
  ConnectionFolder.nestedFolderIds tree.folders

def connectionIds (tree : ConnectionTree) : List Id :=
  tree.connections.map ConnectionRow.id ++ ConnectionFolder.nestedConnectionIds tree.folders

end ConnectionTree

namespace Store

variable (s : Store)

/-- A folder with all that is in it, down to a depth of nesting. -/
def getFolderById : Nat → FolderRow → Option ConnectionFolder :=
  ParentTree.build (fun row => s.foldersForParent (some row.id)) (fun row folders =>
    .mk row.id row.name row.iconDataUrl (s.listConnectionsForFolder (some row.id)) folders)

def listConnectionTreeForWorkspace (workspaceId : Id) : Option ConnectionTree :=
  let workspaceId := normalizeWorkspaceId workspaceId
  ((s.rootFoldersForWorkspace workspaceId).mapM (s.getFolderById s.folders.length)).map
    (fun folders => { connections := s.listRootConnectionsForWorkspace workspaceId, folders })

end Store

end Connections
