import KKTerm.ItOps.BatchRun
import KKTerm.ItOps.SiteStorage

/-!
# The host inventory

Hosts of a site in the order of insertion, and the statements that read and write
them. A JSON column is kept as the value it stores; the columns with the times of
creation and change, which nothing here reads, are left out. A failed call leaves
the table unchanged.
-/

namespace ItOps

open Fallible Text

inductive HostKind where
  | physical
  | vm
  | container
  | other
  deriving DecidableEq

structure HostScan where
  ssh : Bool
  sshPorts : List UInt16
  winrm : Bool
  winrmPorts : List UInt16
  psexec : Bool
  psexecPorts : List UInt16
  https : Bool
  httpsPorts : List UInt16
  scannedAt : Option (List Char)
  deriving DecidableEq

inductive WindowsExecutionContext where
  | user
  | elevated
  | system
  | limited
  deriving DecidableEq

structure HostExecutionConfig where
  transport : Transport
  credentialId : Option Id
  winrmUseTls : Bool
  winrmPort : Option UInt16
  winrmAcceptInvalidCerts : Bool
  psexecContext : WindowsExecutionContext

def HostExecutionConfig.default : HostExecutionConfig where
  transport := .auto
  credentialId := none
  winrmUseTls := false
  winrmPort := none
  winrmAcceptInvalidCerts := false
  psexecContext := .system

structure SiteHost where
  id : Id
  siteId : Id
  parentHostId : Option Id
  hostname : List Char
  label : List Char
  kind : HostKind
  connectionIds : List Id
  scan : Option HostScan
  execution : HostExecutionConfig
  notes : List Char
  sortOrder : Int

structure HostStore where
  sites : List Id
  hosts : List SiteHost

def maxImportHosts : Nat := 500

def validateHostname (hostname : List Char) : Except StorageError (List Char) := do
  let trimmed := trim hostname
  reject (trimmed = []) (.validation "hostname must not be empty")
  reject (trimmed.any isWhitespace)
    (.validation ("hostname must not contain whitespace: " ++ String.ofList trimmed))
  pure trimmed

/-- `trim_end_matches`. -/
def trimEndDots (text : List Char) : List Char :=
  (text.reverse.dropWhile (· = '.')).reverse

def normalizedEndpoint (hostname : List Char) : List Char :=
  (trimEndDots (trim hostname)).map Char.toLower

/-- The first occurrence of every trimmed id that is not blank. -/
def normalizeConnectionIds (connectionIds : List Id) : List Id :=
  ((connectionIds.map trim).filter (· ≠ [])).foldl
    (fun kept id => if id ∈ kept then kept else kept ++ [id]) []

namespace HostStore

def empty (sites : List Id) : HostStore :=
  { sites, hosts := [] }

def fetchHost (s : HostStore) (id : Id) : Option SiteHost :=
  s.hosts.find? (·.id = id)

/-- Walk up from a host; the first argument is the number of hops that are left. -/
def walkUp (s : HostStore) (siteId id : Id) : Nat → Id → Except StorageError Unit
  | hops, cursor =>
    match s.fetchHost cursor with
    | none => .error (.validation "parent host does not exist")
    | some row =>
      if row.siteId ≠ siteId then
        .error (.validation "parent host belongs to a different site")
      else
        match row.parentHostId with
        | none => .ok ()
        | some next =>
          if next = id then .error (.validation "host parent would create a cycle")
          else
            match hops with
            | 0 => .error (.validation "host parent chain is too deep")
            | hops + 1 => walkUp s siteId id hops next

/-- A blank parent is none. -/
def validateParent (s : HostStore) (siteId id : Id) (parentHostId : Option Id) :
    Except StorageError (Option Id) :=
  match (parentHostId.map trim).filter (· ≠ []) with
  | none => pure none
  | some parentId => do
    reject (parentId = id) (.validation "a host cannot be its own parent")
    s.walkUp siteId id 64 parentId
    pure (some parentId)

/-- An absent id to ignore is the empty one. -/
def hostnameTaken (s : HostStore) (siteId : Id) (hostname : List Char) (ignoreId : Option Id) :
    Bool :=
  s.hosts.any (fun h =>
    h.siteId = siteId && sameNoCase h.hostname hostname && h.id ≠ ignoreId.getD [])

def listHosts (s : HostStore) (siteId : Id) : List SiteHost :=
  (s.hosts.filter (·.siteId = siteId)).mergeSort (fun a b => a.sortOrder ≤ b.sortOrder)

def getHost (s : HostStore) (id : Id) : Except StorageError SiteHost :=
  require (s.fetchHost id) .notFound

def nextHostSort (s : HostStore) (siteId : Id) : Int :=
  Store.nextSort ((s.hosts.filter (·.siteId = siteId)).map SiteHost.sortOrder)

/-- The columns that an insertion leaves out have these values. -/
def newRow (id siteId : Id) (hostname : List Char) (sortOrder : Int) : SiteHost where
  id := id
  siteId := siteId
  parentHostId := none
  hostname := hostname
  label := []
  kind := .physical
  connectionIds := []
  scan := none
  execution := .default
  notes := []
  sortOrder := sortOrder

def insertHost (s : HostStore) (row : SiteHost) : Except StorageError HostStore := do
  reject (row.id ∈ s.hosts.map SiteHost.id) .constraint
  reject (row.siteId ∉ s.sites) .constraint
  pure { s with hosts := s.hosts ++ [row] }

/-- `UPDATE … WHERE id = ?`. -/
def setHost (s : HostStore) (id : Id) (change : SiteHost → SiteHost) : HostStore :=
  { s with hosts := s.hosts.map (fun h => if h.id = id then change h else h) }

end HostStore

open HostStore

structure HostFields where
  hostname : List Char
  label : List Char
  kind : HostKind
  parentHostId : Option Id
  notes : List Char

def createHost (s : HostStore) (id siteId : Id) (fields : HostFields) :
    Except StorageError (SiteHost × HostStore) := do
  let hostname ← validateHostname fields.hostname
  reject (s.hostnameTaken siteId hostname none = true)
    (.validation ("a host named " ++ String.ofList hostname ++ " already exists in this site"))
  let parentHostId ← s.validateParent siteId id fields.parentHostId
  let row : SiteHost :=
    { newRow id siteId hostname (s.nextHostSort siteId) with
      parentHostId, label := trim fields.label, kind := fields.kind
      notes := trim fields.notes }
  let s' ← s.insertHost row
  pure (← s'.getHost id, s')

def updateHost (s : HostStore) (id : Id) (fields : HostFields) (connectionIds : List Id) :
    Except StorageError (SiteHost × HostStore) := do
  let existing ← s.getHost id
  let hostname ← validateHostname fields.hostname
  reject (s.hostnameTaken existing.siteId hostname (some id) = true)
    (.validation ("a host named " ++ String.ofList hostname ++ " already exists in this site"))
  let parentHostId ← s.validateParent existing.siteId id fields.parentHostId
  let s' := s.setHost id (fun h =>
    { h with
      hostname, label := trim fields.label, kind := fields.kind, parentHostId
      connectionIds := normalizeConnectionIds connectionIds, notes := trim fields.notes })
  pure (← s'.getHost id, s')

def setHostScan (s : HostStore) (id : Id) (scan : Option HostScan) :
    Except StorageError (SiteHost × HostStore) := do
  let s' := s.setHost id (fun h => { h with scan })
  reject (id ∉ s.hosts.map SiteHost.id) .notFound
  pure (← s'.getHost id, s')

def setHostExecution (s : HostStore) (id : Id) (execution : HostExecutionConfig) :
    Except StorageError (SiteHost × HostStore) := do
  reject (execution.winrmPort = some 0) (.validation "WinRM port must be between 1 and 65535")
  let execution :=
    { execution with credentialId := (execution.credentialId.map trim).filter (· ≠ []) }
  let s' := s.setHost id (fun h => { h with execution })
  reject (id ∉ s.hosts.map SiteHost.id) .notFound
  pure (← s'.getHost id, s')

/-- The children of the deleted host go to its own parent. -/
def SiteHost.leave (gone : SiteHost) (h : SiteHost) : SiteHost :=
  if h.parentHostId = some gone.id then { h with parentHostId := gone.parentHostId } else h

def deleteHost (s : HostStore) (id : Id) : Except StorageError HostStore := do
  let existing ← s.getHost id
  pure { s with hosts := (s.hosts.map existing.leave).filter (·.id ≠ id) }

structure HostImportResult where
  hosts : List SiteHost
  skipped : Nat
  created : Nat
  updated : Nat

/-- An import in progress: the rows so far, the ids of the changed rows and the
number of ids used. -/
structure HostImport where
  store : HostStore
  nextSort : Int
  changed : List Id
  skipped : Nat
  created : Nat
  updated : Nat
  used : Nat

def HostImport.start (s : HostStore) (siteId : Id) : HostImport where
  store := s
  nextSort := s.nextHostSort siteId
  changed := []
  skipped := 0
  created := 0
  updated := 0
  used := 0

def HostImport.skip (i : HostImport) : HostImport :=
  { i with skipped := i.skipped + 1 }

def HostImport.insert (i : HostImport) (newIds : Nat → Id) (siteId : Id) (hostname : List Char)
    (connectionIds : List Id) : Except StorageError HostImport := do
  let id := newIds i.used
  let store ← i.store.insertHost
    { newRow id siteId hostname i.nextSort with connectionIds }
  pure { i with store, nextSort := i.nextSort + 1, changed := i.changed ++ [id]
                created := i.created + 1, used := i.used + 1 }

def HostImport.result (i : HostImport) : Except StorageError HostImportResult := do
  pure { hosts := ← i.changed.mapM i.store.getHost, skipped := i.skipped, created := i.created
         updated := i.updated }

/-- One entry of a pasted list; the set of hostnames seen is folded to lower case. -/
def importHostname (newIds : Nat → Id) (siteId : Id) (state : HostImport × List (List Char))
    (raw : List Char) : Except StorageError (HostImport × List (List Char)) :=
  match validateHostname raw with
  | .error _ => pure (state.1.skip, state.2)
  | .ok hostname =>
    if hostname.map Char.toLower ∈ state.2 then pure (state.1.skip, state.2)
    else do
      let i ← state.1.insert newIds siteId hostname []
      pure (i, hostname.map Char.toLower :: state.2)

def importHosts (s : HostStore) (siteId : Id) (hostnames : List (List Char)) (newIds : Nat → Id) :
    Except StorageError (HostImportResult × HostStore) := do
  reject (maxImportHosts < hostnames.length)
    (.validation s!"too many hosts in one import (max {maxImportHosts})")
  let seen := (s.listHosts siteId).map (fun h => h.hostname.map Char.toLower)
  let state ← hostnames.foldlM (importHostname newIds siteId) (.start s siteId, seen)
  pure (← state.1.result, state.1.store)

structure ImportConnectionHost where
  id : Id
  hostname : List Char

/-- The hosts by endpoint; of several hosts with one endpoint the last one counts. -/
def byEndpoint (hosts : List SiteHost) : List (List Char × SiteHost) :=
  hosts.foldl (fun known h =>
    (normalizedEndpoint h.hostname, h) ::
      known.filter (fun entry => entry.1 ≠ normalizedEndpoint h.hostname)) []

structure EndpointGroup where
  key : List Char
  hostname : List Char
  connectionIds : List Id

def EndpointGroup.bind (group : EndpointGroup) (id : Id) : EndpointGroup :=
  if id ∈ group.connectionIds then group
  else { group with connectionIds := group.connectionIds ++ [id] }

/-- One connection is put into the group of its endpoint, or skipped. -/
def groupConnection (state : List EndpointGroup × Nat) (connection : ImportConnectionHost) :
    List EndpointGroup × Nat :=
  match validateHostname connection.hostname with
  | .error _ => (state.1, state.2 + 1)
  | .ok hostname =>
    let key := normalizedEndpoint hostname
    if key = [] ∨ trim connection.id = [] then (state.1, state.2 + 1)
    else if state.1.any (·.key = key) then
      (state.1.map (fun g => if g.key = key then g.bind (trim connection.id) else g), state.2)
    else (state.1 ++ [{ key, hostname, connectionIds := [trim connection.id] }], state.2)

def addMissing (connectionIds new : List Id) : List Id :=
  new.foldl (fun ids id => if id ∈ ids then ids else ids ++ [id]) connectionIds

/-- One group is bound to the host of its endpoint or to a new host. -/
def importGroup (newIds : Nat → Id) (siteId : Id)
    (state : HostImport × List (List Char × SiteHost)) (group : EndpointGroup) :
    Except StorageError (HostImport × List (List Char × SiteHost)) :=
  match state.2.lookup group.key with
  | some host =>
    let rest := state.2.filter (fun entry => entry.1 ≠ group.key)
    let connectionIds := addMissing host.connectionIds group.connectionIds
    if connectionIds.length = host.connectionIds.length then pure (state.1.skip, rest)
    else
      let store := state.1.store.setHost host.id (fun h => { h with connectionIds })
      pure ({ state.1 with
                store, changed := state.1.changed ++ [host.id], updated := state.1.updated + 1 },
        rest)
  | none => do
    let i ← state.1.insert newIds siteId group.hostname group.connectionIds
    pure (i, state.2)

def importConnectionHosts (s : HostStore) (siteId : Id) (connections : List ImportConnectionHost)
    (newIds : Nat → Id) : Except StorageError (HostImportResult × HostStore) := do
  reject (maxImportHosts < connections.length)
    (.validation s!"too many connections in one import (max {maxImportHosts})")
  let grouped := connections.foldl groupConnection ([], 0)
  let start := { HostImport.start s siteId with skipped := grouped.2 }
  let state ← grouped.1.foldlM (importGroup newIds siteId) (start, byEndpoint (s.listHosts siteId))
  pure (← state.1.result, state.1.store)

inductive HostCall where
  | createHost (id siteId : Id) (fields : HostFields)
  | updateHost (id : Id) (fields : HostFields) (connectionIds : List Id)
  | deleteHost (id : Id)
  | importHosts (siteId : Id) (hostnames : List (List Char)) (newIds : Nat → Id)
  | importConnectionHosts (siteId : Id) (connections : List ImportConnectionHost)
      (newIds : Nat → Id)
  | setHostScan (id : Id) (scan : Option HostScan)
  | setHostExecution (id : Id) (execution : HostExecutionConfig)

def HostCall.apply (s : HostStore) : HostCall → Except StorageError HostStore
  | createHost id siteId fields => Prod.snd <$> ItOps.createHost s id siteId fields
  | updateHost id fields connectionIds => Prod.snd <$> ItOps.updateHost s id fields connectionIds
  | deleteHost id => ItOps.deleteHost s id
  | importHosts siteId hostnames newIds =>
    Prod.snd <$> ItOps.importHosts s siteId hostnames newIds
  | importConnectionHosts siteId connections newIds =>
    Prod.snd <$> ItOps.importConnectionHosts s siteId connections newIds
  | setHostScan id scan => Prod.snd <$> ItOps.setHostScan s id scan
  | setHostExecution id execution => Prod.snd <$> ItOps.setHostExecution s id execution

/-- A call that fails leaves the table as it is. -/
def HostStore.serve (s : HostStore) (call : HostCall) : Option HostStore :=
  match call.apply s with
  | .ok s' => some s'
  | .error _ => some s

end ItOps
