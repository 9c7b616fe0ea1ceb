import KKTerm.Connections.Storage
import KKTerm.Library.Runs

/-!
# Calls that change folders, Connections and Workspaces

A call that fails leaves the tables as they are; only the creation of a folder,
which is not one transaction, may leave a missing parent behind. The checks of the
columns that are left out come as their outcome.
-/

namespace Connections

open Fallible Store

structure CreateConnectionFolderRequest where
  name : List Char
  parentFolderId : Option Id
  workspaceId : Option Id
  iconDataUrl : Option (List Char)

structure RenameConnectionFolderRequest where
  id : Id
  name : List Char
  iconDataUrl : Option (Option (List Char))

structure MoveConnectionFolderRequest where
  id : Id
  parentFolderId : Option Id
  targetIndex : Nat

structure CreateConnectionRequest where
  name : List Char
  folderId : Option Id
  workspaceId : Option Id
  checked : Except StorageError Unit

structure UpdateConnectionRequest where
  id : Id
  name : List Char
  folderId : Option Id
  checked : Except StorageError Unit

structure RenameConnectionRequest where
  id : Id
  name : List Char

structure DuplicateConnectionRequest where
  id : Id
  name : Option (List Char)

structure MoveConnectionRequest where
  id : Id
  folderId : Option Id
  targetIndex : Nat

structure CreateWorkspaceRequest where
  name : List Char
  icon : Option (List Char)
  iconColor : Option (List Char)
  iconBackgroundColor : Option (List Char)
  importConnectionIds : Option (List Id)

structure ReorderWorkspacesRequest where
  orderedIds : List Id

def createConnectionFolder (s : Store) (stamp : Stamp) (request : CreateConnectionFolderRequest) :
    Except StorageError ConnectionFolder × Store :=
  let parentFolderId := normalizeOptionalId request.parentFolderId
  let prepared : Except StorageError (List Char × Option (List Char) × Store) := do
    let name ← requiredField "folder name" request.name
    let iconDataUrl ← normalizeConnectionIconDataUrl request.iconDataUrl
    pure (name, iconDataUrl, ← s.ensureTarget parentFolderId)
  match prepared with
  | .error e => (.error e, s)
  | .ok (name, iconDataUrl, s) =>
    let id := makeFolderId name stamp
    let workspaceId := s.workspaceIn parentFolderId
      (normalizeWorkspaceId (request.workspaceId.getD []))
    let sortOrder := match parentFolderId with
      | some parent => s.nextFolderSortOrder (some parent)
      | none => s.nextRootFolderSortOrderForWorkspace workspaceId
    match s.insertFolder
      { id, name, iconDataUrl, parentFolderId, workspaceId := some workspaceId, sortOrder } with
    | .error e => (.error e, s)
    | .ok s' => (.ok (.mk id name iconDataUrl [] []), s')

/-- The icon that is to be stored, when the request has one. -/
def requestedIcon : Option (Option (List Char)) →
    Except StorageError (Option (Option (List Char)))
  | none => pure none
  | some iconDataUrl => some <$> normalizeConnectionIconDataUrl iconDataUrl

def renameConnectionFolder (s : Store) (request : RenameConnectionFolderRequest) :
    Except StorageError (Option ConnectionFolder × Store) := do
  let id ← requiredField "folder id" request.id
  let name ← requiredField "folder name" request.name
  let icon ← requestedIcon request.iconDataUrl
  let s' := s.setFolder id (fun f => { f with name, iconDataUrl := icon.getD f.iconDataUrl })
  reject (id ∉ s.folderIds) (.invalid "connection folder was not found")
  pure ((s'.folder id).bind (s'.getFolderById s'.folders.length), s')

def deleteConnectionFolder (s : Store) (folderId : Id) : Except StorageError Store := do
  let folderId ← requiredField "folder id" folderId
  reject (folderId ∉ s.folderIds) (.invalid "connection folder was not found")
  pure (s.deleteFolders [folderId])

/-- A place behind the present one moves up when the moved row leaves its list. -/
def targetIndexIn (ids : List Id) (id : Id) (targetIndex : Nat) : Nat :=
  match ids.idxOf? id with
  | some current => if current < targetIndex then targetIndex - 1 else targetIndex
  | none => targetIndex

def checkNotInside (s : Store) (id : Id) : Option Id → Except StorageError Unit
  | none => pure ()
  | some parent => do
    let below ← require (s.folderHasDescendant id parent) .recursion
    reject (below = true) (.invalid "a folder cannot be moved into one of its subfolders")

def moveConnectionFolder (s : Store) (request : MoveConnectionFolderRequest) :
    Except StorageError (Option ConnectionTree × Store) := do
  let id ← requiredField "folder id" request.id
  let target := normalizeOptionalId request.parentFolderId
  reject (target = some id) (.invalid "a folder cannot be moved into itself")
  let source ← require (s.folderParentId id) (.invalid "connection folder was not found")
  let sourceWorkspaceId := s.folderWorkspaceId id
  let s ← s.ensureTarget target
  checkNotInside s id target
  let targetIndex :=
    if source = target then
      targetIndexIn (match source with
        | some parent => s.listFolderIdsForParent (some parent)
        | none => s.listRootFolderIdsForWorkspace sourceWorkspaceId) id request.targetIndex
    else request.targetIndex
  let parentWorkspaceId := target.map s.folderWorkspaceId
  s.checkWorkspace parentWorkspaceId
  let moved := s.putFolder id target parentWorkspaceId
  let scopedWorkspaceId := moved.folderWorkspaceId id
  let ordered := (moved.reorderFolders source sourceWorkspaceId none).reorderFolders target
    scopedWorkspaceId (some (id, targetIndex))
  pure (ordered.listConnectionTreeForWorkspace scopedWorkspaceId, ordered)

def createConnection (s : Store) (stamp : Stamp) (request : CreateConnectionRequest) :
    Except StorageError (ConnectionRow × Store) := do
  let name ← requiredField "name" request.name
  request.checked
  let folderId := normalizeOptionalId request.folderId
  let s ← s.ensureTarget folderId
  let workspaceId := s.workspaceIn folderId (normalizeWorkspaceId (request.workspaceId.getD []))
  let sortOrder := match folderId with
    | some folder => s.nextConnectionSortOrder (some folder)
    | none => s.nextRootConnectionSortOrderForWorkspace workspaceId
  let row : ConnectionRow :=
    { id := makeConnectionId name stamp, folderId, workspaceId := some workspaceId, name, sortOrder }
  pure (row, ← s.insertConnection row)

def updateConnection (s : Store) (request : UpdateConnectionRequest) :
    Except StorageError (Option ConnectionRow × Store) := do
  let id ← requiredField "connection id" request.id
  let name ← requiredField "name" request.name
  request.checked
  let target := normalizeOptionalId request.folderId
  let existing ← require (s.connection id) (.invalid "connection was not found")
  let s ← s.ensureTarget target
  let ownWorkspaceId := normalizeWorkspaceId (existing.workspaceId.getD [])
  let sourceWorkspaceId := s.workspaceIn existing.folderId ownWorkspaceId
  let targetWorkspaceId := s.workspaceIn target ownWorkspaceId
  let sortOrder :=
    if existing.folderId = target then existing.sortOrder
    else match target with
      | some folder => s.nextConnectionSortOrder (some folder)
      | none => s.nextRootConnectionSortOrderForWorkspace targetWorkspaceId
  s.checkWorkspace (some targetWorkspaceId)
  let updated := s.setConnection id (fun c =>
    { c with folderId := target, name, sortOrder, workspaceId := some targetWorkspaceId })
  let s' :=
    if existing.folderId = target then updated
    else
      (updated.reorderConnections existing.folderId sourceWorkspaceId none).reorderConnections
        target targetWorkspaceId none
  pure (s'.connection id, s')

def renameConnection (s : Store) (request : RenameConnectionRequest) :
    Except StorageError (Option ConnectionRow × Store) := do
  let id ← requiredField "connection id" request.id
  let name ← requiredField "name" request.name
  let s' := s.setConnection id (fun c => { c with name })
  reject (id ∉ s.connectionIds) (.invalid "connection was not found")
  pure (s'.connection id, s')

def deleteConnection (s : Store) (connectionId : Id) : Except StorageError Store := do
  let connectionId ← requiredField "connection id" connectionId
  reject (connectionId ∉ s.connectionIds) (.invalid "connection was not found")
  pure { s with connections := s.connections.filter (·.id ≠ connectionId) }

def duplicateConnection (s : Store) (stamp : Stamp) (request : DuplicateConnectionRequest) :
    Except StorageError (Option ConnectionRow × Store) := do
  let sourceId ← requiredField "connection id" request.id
  let source ← require (s.connection sourceId) (.invalid "connection was not found")
  let workspaceId := normalizeWorkspaceId (source.workspaceId.getD [])
  let name := (trimOptional request.name).getD ("Copy of ".toList ++ source.name)
  let id := makeConnectionId name stamp
  let sortOrder := match source.folderId with
    | some folder => s.nextConnectionSortOrder (some folder)
    | none => s.nextRootConnectionSortOrderForWorkspace workspaceId
  let s' ← s.insertConnection
    { id, folderId := source.folderId, workspaceId := some workspaceId, name, sortOrder }
  pure (s'.connection id, s')

def moveConnection (s : Store) (request : MoveConnectionRequest) :
    Except StorageError (Option ConnectionTree × Store) := do
  let id ← requiredField "connection id" request.id
  let target := normalizeOptionalId request.folderId
  let row ← require (s.connection id) (.invalid "connection was not found")
  let source := row.folderId
  let sourceWorkspaceId := s.connectionWorkspaceId id
  let targetIndex :=
    if source = target then
      targetIndexIn (match source with
        | some folder => s.listConnectionIdsForFolder (some folder)
        | none => s.listRootConnectionIdsForWorkspace sourceWorkspaceId) id request.targetIndex
    else request.targetIndex
  let s ← s.ensureTarget target
  let workspaceId := target.map s.folderWorkspaceId
  s.checkWorkspace workspaceId
  let moved := s.putConnection id target workspaceId
  let scopedWorkspaceId := moved.connectionWorkspaceId id
  let ordered := (moved.reorderConnections source sourceWorkspaceId none).reorderConnections target
    scopedWorkspaceId (some (id, targetIndex))
  pure (ordered.listConnectionTreeForWorkspace scopedWorkspaceId, ordered)

/-- One Connection is copied to the root of a Workspace; an unknown id copies nothing. -/
def copyConnection (workspaceId : Id) (stamps : Nat → Stamp) (state : Store × Int)
    (source : Id × Nat) : Except StorageError (Store × Int) :=
  match state.1.connection source.1 with
  | none => pure state
  | some row => do
    let s' ← state.1.insertConnection
      { id := makeConnectionId source.1 (stamps (source.2 + 1)), folderId := none
        workspaceId := some workspaceId, name := row.name, sortOrder := state.2 }
    pure (s', state.2 + 1)

/-- The Workspace takes the first stamp, its copies take the ones after it. -/
def createWorkspace (s : Store) (stamps : Nat → Stamp) (request : CreateWorkspaceRequest) :
    Except StorageError (Workspace × Store) := do
  let name ← requiredField "workspace name" request.name
  let row : Workspace :=
    { id := makeWorkspaceId name (stamps 0), name, icon := trimOptional request.icon
      iconColor := trimOptional request.iconColor
      iconBackgroundColor := trimOptional request.iconBackgroundColor, isDefault := false
      sortOrder := nextSortOrder (s.workspaces.map Workspace.sortOrder) }
  let s ← s.insertWorkspace row
  let sources := (request.importConnectionIds.getD []).zipIdx
  let state ← sources.foldlM (copyConnection row.id stamps)
    (s, s.nextRootConnectionSortOrderForWorkspace row.id)
  pure (row, state.1)

def deleteWorkspace (s : Store) (id : Id) : Except StorageError Store := do
  let id ← requiredField "workspace id" id
  let row ← require (s.workspaces.find? (·.id = id)) (.invalid "workspace was not found")
  reject (row.isDefault = true) (.invalid "the Default Workspace cannot be deleted")
  pure (s.deleteWorkspaceRow id)

def reorderWorkspaces (s : Store) (request : ReorderWorkspacesRequest) :
    List Workspace × Store :=
  let s' := request.orderedIds.zipIdx.foldl
    (fun s entry => s.setWorkspace entry.1 (fun w => { w with sortOrder := entry.2 })) s
  (bySortOrder Workspace.sortOrder Workspace.name s'.workspaces, s')

inductive Call where
  | createConnectionFolder (stamp : Stamp) (request : CreateConnectionFolderRequest)
  | renameConnectionFolder (request : RenameConnectionFolderRequest)
  | moveConnectionFolder (request : MoveConnectionFolderRequest)
  | deleteConnectionFolder (folderId : Id)
  | createConnection (stamp : Stamp) (request : CreateConnectionRequest)
  | renameConnection (request : RenameConnectionRequest)
  | moveConnection (request : MoveConnectionRequest)
  | deleteConnection (connectionId : Id)
  | updateConnection (request : UpdateConnectionRequest)
  | duplicateConnection (stamp : Stamp) (request : DuplicateConnectionRequest)
  | createWorkspace (stamps : Nat → Stamp) (request : CreateWorkspaceRequest)
  | deleteWorkspace (id : Id)
  | reorderWorkspaces (request : ReorderWorkspacesRequest)

/-- The tables after a call, or those before it when it failed. -/
def orElse {α : Type} (s : Store) : Except StorageError (α × Store) → Store
  | .ok (_, s') => s'
  | .error _ => s

def Store.serve (s : Store) : Call → Option Store
  | .createConnectionFolder stamp request => some (createConnectionFolder s stamp request).2
  | .renameConnectionFolder request => some (orElse s (renameConnectionFolder s request))
  | .moveConnectionFolder request => some (orElse s (moveConnectionFolder s request))
  | .deleteConnectionFolder id => some ((deleteConnectionFolder s id).toOption.getD s)
  | .createConnection stamp request => some (orElse s (createConnection s stamp request))
  | .renameConnection request => some (orElse s (renameConnection s request))
  | .moveConnection request => some (orElse s (moveConnection s request))
  | .deleteConnection id => some ((deleteConnection s id).toOption.getD s)
  | .updateConnection request => some (orElse s (updateConnection s request))
  | .duplicateConnection stamp request => some (orElse s (duplicateConnection s stamp request))
  | .createWorkspace stamps request => some (orElse s (createWorkspace s stamps request))
  | .deleteWorkspace id => some ((deleteWorkspace s id).toOption.getD s)
  | .reorderWorkspaces request => some (reorderWorkspaces s request).2

/-- Only the Default Workspace, and nothing in it. -/
def Store.initial : Store where
  workspaces :=
    [{ id := defaultWorkspaceId, name := "Default".toList, icon := none, iconColor := none
       iconBackgroundColor := none, isDefault := true, sortOrder := 0 }]
  folders := []
  connections := []

end Connections
