import KKTerm.Connections.Calls

/-!
# Copies of a Connection

The table of the Connections with all its columns. A duplicate is written with the columns
that were read of its source, some of them decoded and encoded again, and a copy into a new
Workspace with the columns that one statement lists; a column that is not listed has its
default. The texts of the JSON columns are read and written by codecs that are parameters.
-/

namespace Connections

open Fallible List

inductive ConnectionType where
  | «local»
  | ssh
  | telnet
  | serial
  | url
  | rdp
  | vnc
  | ftp
  | localFiles
  | fileView
  deriving DecidableEq

inductive ConnectionStatus where
  | connected
  | idle
  | offline
  deriving DecidableEq

/-- The columns that say how a Connection is made and shown. -/
structure Settings where
  tabTitle : Option (List Char)
  host : List Char
  username : List Char
  port : Option Int
  keyPath : Option (List Char)
  proxyJump : Option (List Char)
  sshSocksProxy : Option (List Char)
  sshSocksProxyUsername : Option (List Char)
  sshSocksProxyInheritDefaults : Bool
  sshCompression : Option (List Char)
  sshOldProtocols : Option (List Char)
  authMethod : List Char
  localShell : Option (List Char)
  localStartupDirectory : Option (List Char)
  localStartupScript : Option (List Char)
  url : Option (List Char)
  dataPartition : Option (List Char)
  urlUserAgent : Option (List Char)
  urlProxy : Option (List Char)
  urlProxyInheritDefaults : Bool
  useTmuxSessions : Bool
  usePsmuxSessions : Bool
  serialLine : Option (List Char)
  serialSpeed : Option Int
  rdpOptions : Option (List Char)
  vncOptions : Option (List Char)
  ftpOptions : Option (List Char)
  cloudStorageOptions : Option (List Char)
  iconColor : Option (List Char)
  iconDataUrl : Option (List Char)
  iconBackgroundColor : Option (List Char)
  terminalOpacity : Option Int
  terminalBackgroundJson : Option (List Char)
  terminalColorScheme : Option (List Char)
  terminalSyntaxHighlightProfileId : Option (List Char)
  fileBrowserViewOptionsJson : Option (List Char)
  sshPortForwardingsJson : Option (List Char)
  fileViewOpenExternal : Bool
  connectionType : ConnectionType
  deriving DecidableEq

structure SavedRow where
  row : ConnectionRow
  tmuxConnectionId : Option (List Char)
  passwordCredentialId : Option (List Char)
  status : ConnectionStatus
  settings : Settings
  deriving DecidableEq

structure FullStore where
  workspaces : List Workspace
  folders : List FolderRow
  rows : List SavedRow

namespace FullStore
variable (s : FullStore)

def store : Store :=
  ⟨s.workspaces, s.folders, s.rows.map SavedRow.row⟩

def saved (id : Id) : Option SavedRow :=
  s.rows.find? (fun r => r.row.id = id)

def insertRow (r : SavedRow) : Except StorageError FullStore := do
  reject (r.row.id ∈ s.store.connectionIds) .constraint
  s.store.checkFolder r.row.folderId
  s.store.checkWorkspace r.row.workspaceId
  pure { s with rows := s.rows ++ [r] }

end FullStore

/-- How the values of a JSON column are read, checked and written. -/
structure Codec (β : Type) where
  fromStr : List Char → Option β
  validate : β → Except StorageError Unit
  toString : β → List Char

section Columns
variable {β : Type} (codec : Codec β)

def fromJson (value : Option (List Char)) : Option β :=
  value.bind codec.fromStr

def toJson : Option β → Except StorageError (Option (List Char))
  | none => pure none
  | some value => do
    codec.validate value
    pure (some (codec.toString value))

/-- An integer column that must fit into an unsigned type. -/
def optionalUnsigned (max : Nat) : Option Int → Except StorageError (Option Nat)
  | none => pure none
  | some value =>
    if 0 ≤ value ∧ value ≤ max then pure (some value.toNat)
    else .error (.invalid
      "SQLite storage error: out of range integral type conversion attempted")

def optionalPort (value : Option Int) : Except StorageError (Option Nat) :=
  optionalUnsigned (2 ^ 16 - 1) value

def optionalSerialSpeed (value : Option Int) : Except StorageError (Option Nat) :=
  optionalUnsigned (2 ^ 32 - 1) value

def defaultTerminalOpacity : Nat :=
  50

def normalizeLoadedTerminalOpacity (value : Option Int) : Option Nat :=
  let opacity := value.getD defaultTerminalOpacity
  if 0 ≤ opacity ∧ opacity ≤ 100 then some opacity.toNat else some defaultTerminalOpacity

end Columns

def makeTmuxConnectionId (connectionId : Id) (stamp : Stamp) : Id :=
  makeUniqueId "kkterm".toList connectionId stamp

/-- The codecs of the three JSON columns that a duplicate decodes. -/
structure Codecs (β γ δ : Type) where
  background : Codec β
  viewOptions : Codec γ
  portForwardings : Codec δ

section Duplicate
variable {β γ δ : Type} (codecs : Codecs β γ δ)

/-- The columns that the duplicate is written with. -/
def duplicateSettings (source : Settings) (port serialSpeed : Option Nat)
    (background viewOptions portForwardings : Option (List Char)) : Settings where
  tabTitle := source.tabTitle
  host := source.host
  username := source.username
  port := port.map Int.ofNat
  keyPath := source.keyPath
  proxyJump := source.proxyJump
  sshSocksProxy := source.sshSocksProxy
  sshSocksProxyUsername := source.sshSocksProxyUsername
  sshSocksProxyInheritDefaults := source.sshSocksProxyInheritDefaults
  sshCompression := source.sshCompression
  sshOldProtocols := none
  authMethod := source.authMethod
  localShell := source.localShell
  localStartupDirectory := source.localStartupDirectory
  localStartupScript := source.localStartupScript
  url := source.url
  dataPartition := source.dataPartition
  urlUserAgent := source.urlUserAgent
  urlProxy := source.urlProxy
  urlProxyInheritDefaults := source.urlProxyInheritDefaults
  useTmuxSessions := source.useTmuxSessions
  usePsmuxSessions := source.usePsmuxSessions
  serialLine := source.serialLine
  serialSpeed := serialSpeed.map Int.ofNat
  rdpOptions := none
  vncOptions := none
  ftpOptions := none
  cloudStorageOptions := none
  iconColor := source.iconColor
  iconDataUrl := source.iconDataUrl
  iconBackgroundColor := source.iconBackgroundColor
  terminalOpacity := (normalizeLoadedTerminalOpacity source.terminalOpacity).map Int.ofNat
  terminalBackgroundJson := background
  terminalColorScheme := source.terminalColorScheme
  terminalSyntaxHighlightProfileId := source.terminalSyntaxHighlightProfileId
  fileBrowserViewOptionsJson := viewOptions
  sshPortForwardingsJson := portForwardings
  fileViewOpenExternal := source.fileViewOpenExternal
  connectionType := source.connectionType

/-- The row that is read back afterwards is left out. -/
def FullStore.duplicateConnection (s : FullStore) (stamp tmuxStamp : Stamp)
    (request : DuplicateConnectionRequest) : Except StorageError FullStore := do
  let sourceId ← requiredField "connection id" request.id
  let source ← require (s.saved sourceId) (.invalid "connection was not found")
  let port ← optionalPort source.settings.port
  let serialSpeed ← optionalSerialSpeed source.settings.serialSpeed
  let workspaceId := normalizeWorkspaceId (source.row.workspaceId.getD [])
  let name := (trimOptional request.name).getD ("Copy of ".toList ++ source.row.name)
  let id := makeConnectionId name stamp
  let tmuxConnectionId :=
    if source.settings.useTmuxSessions = true ∧ source.settings.connectionType = .ssh then
      some (makeTmuxConnectionId id tmuxStamp)
    else none
  let sortOrder := match source.row.folderId with
    | some folder => s.store.nextConnectionSortOrder (some folder)
    | none => s.store.nextRootConnectionSortOrderForWorkspace workspaceId
  let background ← toJson codecs.background
    (fromJson codecs.background source.settings.terminalBackgroundJson)
  let viewOptions ← toJson codecs.viewOptions
    (fromJson codecs.viewOptions source.settings.fileBrowserViewOptionsJson)
  let portForwardings ← toJson codecs.portForwardings
    (fromJson codecs.portForwardings source.settings.sshPortForwardingsJson)
  s.insertRow
    { row := ⟨id, source.row.folderId, some workspaceId, name, sortOrder⟩
      tmuxConnectionId
      passwordCredentialId := none
      status := .idle
      settings := duplicateSettings source.settings port serialSpeed background viewOptions
        portForwardings }

end Duplicate

/-- The columns that the statement selects. -/
def importedSettings (source : Settings) : Settings where
  tabTitle := source.tabTitle
  host := source.host
  username := source.username
  port := source.port
  keyPath := source.keyPath
  proxyJump := source.proxyJump
  sshSocksProxy := source.sshSocksProxy
  sshSocksProxyUsername := source.sshSocksProxyUsername
  sshSocksProxyInheritDefaults := source.sshSocksProxyInheritDefaults
  sshCompression := source.sshCompression
  sshOldProtocols := none
  authMethod := source.authMethod
  localShell := source.localShell
  localStartupDirectory := source.localStartupDirectory
  localStartupScript := source.localStartupScript
  url := source.url
  dataPartition := source.dataPartition
  urlUserAgent := none
  urlProxy := none
  urlProxyInheritDefaults := true
  useTmuxSessions := source.useTmuxSessions
  usePsmuxSessions := source.usePsmuxSessions
  serialLine := source.serialLine
  serialSpeed := source.serialSpeed
  rdpOptions := source.rdpOptions
  vncOptions := source.vncOptions
  ftpOptions := source.ftpOptions
  cloudStorageOptions := source.cloudStorageOptions
  iconColor := source.iconColor
  iconDataUrl := source.iconDataUrl
  iconBackgroundColor := source.iconBackgroundColor
  terminalOpacity := source.terminalOpacity
  terminalBackgroundJson := source.terminalBackgroundJson
  terminalColorScheme := source.terminalColorScheme
  terminalSyntaxHighlightProfileId := source.terminalSyntaxHighlightProfileId
  fileBrowserViewOptionsJson := none
  sshPortForwardingsJson := none
  fileViewOpenExternal := source.fileViewOpenExternal
  connectionType := source.connectionType

/-- Each id takes two stamps; an unknown one copies nothing. -/
def importConnection (workspaceId : Id) (stamps : Nat → Stamp) (state : FullStore × Int)
    (source : Id × Nat) : Except StorageError (FullStore × Int) :=
  match state.1.saved source.1 with
  | none => pure state
  | some r => do
    let id := makeConnectionId source.1 (stamps (2 * source.2 + 1))
    let s' ← state.1.insertRow
      { row := ⟨id, none, some workspaceId, r.row.name, state.2⟩
        tmuxConnectionId := some (makeTmuxConnectionId id (stamps (2 * source.2 + 2)))
        passwordCredentialId := r.passwordCredentialId
        status := .idle
        settings := importedSettings r.settings }
    pure (s', state.2 + 1)

def FullStore.createWorkspace (s : FullStore) (stamps : Nat → Stamp)
    (request : CreateWorkspaceRequest) : Except StorageError (Workspace × FullStore) := do
  let name ← requiredField "workspace name" request.name
  let row : Workspace :=
    { id := makeWorkspaceId name (stamps 0), name, icon := trimOptional request.icon
      iconColor := trimOptional request.iconColor
      iconBackgroundColor := trimOptional request.iconBackgroundColor, isDefault := false
      sortOrder := nextSortOrder (s.workspaces.map Workspace.sortOrder) }
  reject (row.id ∈ s.store.workspaceIds) .constraint
  let s := { s with workspaces := s.workspaces ++ [row] }
  let sources := (request.importConnectionIds.getD []).zipIdx
  let state ← sources.foldlM (importConnection row.id stamps)
    (s, s.store.nextRootConnectionSortOrderForWorkspace row.id)
  pure (row, state.1)

/-- A text that writing the value it is read as gives again. -/
def Stable {β : Type} (codec : Codec β) (column : Option (List Char)) : Prop :=
  ∀ t, column = some t → ∃ v, codec.fromStr t = some v ∧ codec.toString v = t

/-- What a duplicate does not write is not set, and what it writes anew stays the same. -/
structure KeptByDuplicate {β γ δ : Type} (codecs : Codecs β γ δ) (c : Settings) : Prop where
  sshOldProtocols : c.sshOldProtocols = none
  rdpOptions : c.rdpOptions = none
  vncOptions : c.vncOptions = none
  ftpOptions : c.ftpOptions = none
  cloudStorageOptions : c.cloudStorageOptions = none
  terminalOpacity : ∃ n : Nat, n ≤ 100 ∧ c.terminalOpacity = some (n : Int)
  background : Stable codecs.background c.terminalBackgroundJson
  viewOptions : Stable codecs.viewOptions c.fileBrowserViewOptionsJson
  portForwardings : Stable codecs.portForwardings c.sshPortForwardingsJson

/-- What the import does not list has its default. -/
structure KeptByImport (c : Settings) : Prop where
  sshOldProtocols : c.sshOldProtocols = none
  urlUserAgent : c.urlUserAgent = none
  urlProxy : c.urlProxy = none
  urlProxyInheritDefaults : c.urlProxyInheritDefaults = true
  fileBrowserViewOptionsJson : c.fileBrowserViewOptionsJson = none
  sshPortForwardingsJson : c.sshPortForwardingsJson = none

section Kept
variable {β γ δ : Type} {codecs : Codecs β γ δ} {s s' : FullStore} {c : Settings}

variable {r : SavedRow} {value : Option Int} {stamps : Nat → Stamp}

lemma insertRow_rows (done : s.insertRow r = .ok s') : s'.rows = s.rows ++ [r] := by
  obtain ⟨-, done⟩ := reject_bind_ok.mp done
  obtain ⟨⟨⟩, -, done⟩ := bind_eq_ok.mp done
  obtain ⟨⟨⟩, -, done⟩ := bind_eq_ok.mp done
  cases done
  rfl

lemma toJson_fromJson {codec : Codec β} {column out : Option (List Char)}
    (written : toJson codec (fromJson codec column) = .ok out) :
    out = column ↔ Stable codec column := by
  cases column with
  | none =>
    cases written
    refine ⟨fun _ t missing => ?_, fun _ => rfl⟩
    cases missing
  | some t =>
    have read : fromJson codec (some t) = codec.fromStr t := rfl
    rw [read] at written
    cases value : codec.fromStr t with
    | none =>
      rw [value] at written
      cases written
      constructor
      · intro same
        cases same
      · intro stable
        obtain ⟨v, found, -⟩ := stable t rfl
        rw [value] at found
        cases found
    | some v =>
      rw [value] at written
      obtain ⟨⟨⟩, -, done⟩ := bind_eq_ok.mp written
      cases done
      constructor
      · intro same t' equal
        cases equal
        exact ⟨v, value, Option.some.inj same⟩
      · intro stable
        obtain ⟨v', found, same⟩ := stable t rfl
        rw [value] at found
        cases found
        rw [same]

lemma optionalUnsigned_ofNat {max : Nat} {out : Option Nat}
    (read : optionalUnsigned max value = .ok out) : out.map Int.ofNat = value := by
  cases value with
  | none =>
    cases read
    rfl
  | some value =>
    rw [optionalUnsigned] at read
    split_ifs at read with inside
    cases read
    rw [Option.map_some]
    exact congrArg some (Int.toNat_of_nonneg inside.1)

lemma normalizeLoadedTerminalOpacity_eq :
    (normalizeLoadedTerminalOpacity value).map Int.ofNat = value ↔
      ∃ n : Nat, n ≤ 100 ∧ value = some (n : Int) := by
  rw [normalizeLoadedTerminalOpacity]
  constructor
  · intro same
    split_ifs at same with inside
    · refine ⟨(value.getD defaultTerminalOpacity).toNat, by omega, same.symm⟩
    · exact ⟨defaultTerminalOpacity, by decide, same.symm⟩
  · rintro ⟨n, bound, rfl⟩
    have inside : (0 : Int) ≤ n ∧ (n : Int) ≤ 100 := ⟨Int.natCast_nonneg n, Int.ofNat_le.mpr bound⟩
    rw [Option.getD_some, if_pos inside, Option.map_some, Int.toNat_natCast]
    rfl

lemma importedSettings_eq : importedSettings c = c ↔ KeptByImport c := by
  constructor
  · intro same
    rw [← same]
    exact ⟨rfl, rfl, rfl, rfl, rfl, rfl⟩
  · intro kept
    cases c
    obtain ⟨rfl, rfl, rfl, rfl, rfl, rfl⟩ := kept
    rfl

lemma duplicateSettings_eq {port serialSpeed : Option Nat}
    {background viewOptions portForwardings : Option (List Char)}
    (port_read : optionalPort c.port = .ok port)
    (speed_read : optionalSerialSpeed c.serialSpeed = .ok serialSpeed)
    (first : toJson codecs.background (fromJson codecs.background c.terminalBackgroundJson) =
      .ok background)
    (second : toJson codecs.viewOptions (fromJson codecs.viewOptions c.fileBrowserViewOptionsJson) =
      .ok viewOptions)
    (third : toJson codecs.portForwardings
      (fromJson codecs.portForwardings c.sshPortForwardingsJson) = .ok portForwardings) :
    duplicateSettings c port serialSpeed background viewOptions portForwardings = c ↔
      KeptByDuplicate codecs c := by
  constructor
  · intro same
    refine ⟨?_, ?_, ?_, ?_, ?_, ?_, ?_, ?_, ?_⟩
    · rw [← same]
      rfl
    · rw [← same]
      rfl
    · rw [← same]
      rfl
    · rw [← same]
      rfl
    · rw [← same]
      rfl
    · exact normalizeLoadedTerminalOpacity_eq.mp (congrArg Settings.terminalOpacity same)
    · exact (toJson_fromJson first).mp (congrArg Settings.terminalBackgroundJson same)
    · exact (toJson_fromJson second).mp (congrArg Settings.fileBrowserViewOptionsJson same)
    · exact (toJson_fromJson third).mp (congrArg Settings.sshPortForwardingsJson same)
  · intro kept
    have opacity := normalizeLoadedTerminalOpacity_eq.mpr kept.terminalOpacity
    rw [duplicateSettings, optionalUnsigned_ofNat port_read, optionalUnsigned_ofNat speed_read,
      (toJson_fromJson first).mpr kept.background, (toJson_fromJson second).mpr kept.viewOptions,
      (toJson_fromJson third).mpr kept.portForwardings, opacity]
    cases c
    obtain ⟨rfl, rfl, rfl, rfl, rfl, -, -, -, -⟩ := kept
    rfl

lemma duplicateConnection_settings {stamp tmuxStamp : Stamp} {request : DuplicateConnectionRequest}
    (done : s.duplicateConnection codecs stamp tmuxStamp request = .ok s') :
    ∃ source new, s.saved (Text.trim request.id) = some source ∧ s'.rows = s.rows ++ [new] ∧
      (new.settings = source.settings ↔ KeptByDuplicate codecs source.settings) := by
  obtain ⟨id, field, done⟩ := bind_eq_ok.mp done
  obtain ⟨-, same⟩ := reject_bind_ok.mp field
  cases same
  obtain ⟨source, found, done⟩ := bind_eq_ok.mp done
  obtain ⟨port, port_read, done⟩ := bind_eq_ok.mp done
  obtain ⟨speed, speed_read, done⟩ := bind_eq_ok.mp done
  obtain ⟨background, first, done⟩ := bind_eq_ok.mp done
  obtain ⟨viewOptions, second, done⟩ := bind_eq_ok.mp done
  obtain ⟨portForwardings, third, done⟩ := bind_eq_ok.mp done
  exact ⟨source, _, require_eq_ok.mp found, insertRow_rows done,
    duplicateSettings_eq port_read speed_read first second third⟩

lemma saved_append {rows : List SavedRow} {id : Id} (grown : s'.rows = s.rows ++ rows)
    (found : s.saved id = some r) : s'.saved id = some r := by
  rw [FullStore.saved, grown, find?_append]
  rw [FullStore.saved] at found
  rw [found]
  rfl

/-- The loop over the ids: each copy has a source, and each stored source has a copy. -/
lemma importAll {workspaceId : Id} {sources : List (Id × Nat)} {state state' : FullStore × Int}
    (done : sources.foldlM (importConnection workspaceId stamps) state = .ok state') :
    ∃ copies, state'.1.rows = state.1.rows ++ copies ∧
      (∀ new ∈ copies, ∃ source ∈ state'.1.rows, source.row.id ∈ sources.map Prod.fst ∧
        new.settings = importedSettings source.settings) ∧
      ∀ entry ∈ sources, ∀ r, state.1.saved entry.1 = some r →
        ∃ new ∈ copies, new.settings = importedSettings r.settings := by
  induction sources generalizing state with
  | nil =>
    cases done
    exact ⟨[], (append_nil _).symm, fun new member => absurd member not_mem_nil,
      fun entry member => absurd member not_mem_nil⟩
  | cons entry sources ih =>
    rw [foldlM_cons] at done
    obtain ⟨next, first, rest⟩ := bind_eq_ok.mp done
    obtain ⟨copies, grown, copied, all⟩ := ih rest
    have later : ∀ new ∈ copies, ∃ source ∈ state'.1.rows,
        source.row.id ∈ (entry :: sources).map Prod.fst ∧
          new.settings = importedSettings source.settings := by
      intro new member
      obtain ⟨source, stored, named, same⟩ := copied new member
      exact ⟨source, stored, mem_cons_of_mem _ named, same⟩
    rw [importConnection] at first
    cases found : state.1.saved entry.1 with
    | none =>
      rw [found] at first
      cases first
      refine ⟨copies, grown, later, forall_mem_cons.mpr ⟨fun r known => ?_, all⟩⟩
      rw [found] at known
      cases known
    | some source =>
      rw [found] at first
      obtain ⟨stored, inserted, same⟩ := bind_eq_ok.mp first
      cases same
      obtain ⟨copy, settings, one⟩ : ∃ copy : SavedRow,
          copy.settings = importedSettings source.settings ∧
            stored.rows = state.1.rows ++ [copy] := by
        refine ⟨_, ?_, insertRow_rows inserted⟩
        rfl
      have named : source.row.id = entry.1 := by
        have same := find?_some found
        exact of_decide_eq_true same
      have member : source ∈ state.1.rows := mem_of_find?_eq_some found
      refine ⟨copy :: copies, ?_, forall_mem_cons.mpr ⟨⟨source, ?_, ?_, settings⟩, later⟩,
        forall_mem_cons.mpr ⟨fun r known => ?_, fun entry' member' r known => ?_⟩⟩
      · rw [grown, one, append_assoc]
        rfl
      · rw [grown, one]
        exact mem_append_left _ (mem_append_left _ member)
      · rw [named]
        exact mem_cons_self
      · rw [found] at known
        cases known
        exact ⟨copy, mem_cons_self, settings⟩
      · obtain ⟨new, inside, same⟩ := all entry' member' r (saved_append one known)
        exact ⟨new, mem_cons_of_mem _ inside, same⟩

lemma createWorkspace_settings {request : CreateWorkspaceRequest} {workspace : Workspace}
    (done : s.createWorkspace stamps request = .ok (workspace, s')) :
    ∃ copies, s'.rows = s.rows ++ copies ∧
      (∀ new ∈ copies, ∃ source ∈ s'.rows, source.row.id ∈ request.importConnectionIds.getD [] ∧
        (new.settings = source.settings ↔ KeptByImport source.settings)) ∧
      ∀ id ∈ request.importConnectionIds.getD [], ∀ source, s.saved id = some source →
        ∃ new ∈ copies, (new.settings = source.settings ↔ KeptByImport source.settings) := by
  obtain ⟨name, -, done⟩ := bind_eq_ok.mp done
  obtain ⟨-, done⟩ := reject_bind_ok.mp done
  obtain ⟨state, loop, same⟩ := bind_eq_ok.mp done
  cases same
  obtain ⟨copies, grown, copied, all⟩ := importAll loop
  have named : (request.importConnectionIds.getD []).zipIdx.map Prod.fst =
      request.importConnectionIds.getD [] := zipIdx_map_fst 0 _
  refine ⟨copies, grown, fun new member => ?_, fun id member source known => ?_⟩
  · obtain ⟨source, stored, inside, settings⟩ := copied new member
    rw [named] at inside
    exact ⟨source, stored, inside, settings ▸ importedSettings_eq⟩
  · rw [← named] at member
    obtain ⟨entry, inside, rfl⟩ := mem_map.mp member
    obtain ⟨new, copy, settings⟩ := all entry inside source known
    exact ⟨new, copy, settings ▸ importedSettings_eq⟩

end Kept

/-- A remote desktop with options of its own, saved in the Default Workspace. -/
def withRdpOptions : FullStore where
  workspaces := [⟨defaultWorkspaceId, "Default".toList, none, none, none, true, 0⟩]
  folders := []
  rows := [
    { row := ⟨"desk".toList, none, some defaultWorkspaceId, "Desk".toList, 0⟩
      tmuxConnectionId := none
      passwordCredentialId := none
      status := .idle
      settings := {
        tabTitle := none, host := "10.0.0.5".toList, username := "ann".toList, port := some 3389
        keyPath := none, proxyJump := none, sshSocksProxy := none, sshSocksProxyUsername := none
        sshSocksProxyInheritDefaults := true, sshCompression := none, sshOldProtocols := none
        authMethod := "password".toList, localShell := none, localStartupDirectory := none
        localStartupScript := none, url := none, dataPartition := none, urlUserAgent := none
        urlProxy := none, urlProxyInheritDefaults := true, useTmuxSessions := false
        usePsmuxSessions := false, serialLine := none, serialSpeed := none
        rdpOptions := some "\x7b\"width\":1024\x7d".toList, vncOptions := none, ftpOptions := none
        cloudStorageOptions := none, iconColor := none, iconDataUrl := none
        iconBackgroundColor := none, terminalOpacity := some 50, terminalBackgroundJson := none
        terminalColorScheme := none, terminalSyntaxHighlightProfileId := none
        fileBrowserViewOptionsJson := none, sshPortForwardingsJson := none
        fileViewOpenExternal := false, connectionType := .rdp } }]

/-- Codecs under which every text is a value. -/
def textCodecs : Codecs (List Char) (List Char) (List Char) :=
  ⟨⟨some, fun _ => .ok (), id⟩, ⟨some, fun _ => .ok (), id⟩, ⟨some, fun _ => .ok (), id⟩⟩

end Connections
