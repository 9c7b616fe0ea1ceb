import KKTerm.Library.Effects
import KKTerm.Library.Fallible
import KKTerm.Library.Text
import Mathlib.Data.List.AList

/-!
# The encrypted secret store

Secrets are rows of one table, each encrypted under the master password and the storage
key of the row. A sentinel row tells whether a password is the right one. What is random,
and which statement fails, is a function of the number of the statement.
-/

namespace Secrets

open Effects

abbrev Message := List Char

inductive SecretKind where
  | connectionPassword
  | connectionPassphrase
  | sshSocksProxyPassword
  | urlPassword
  | aiApiKey
  | exaSearchApiKey
  | braveSearchApiKey
  | tavilySearchApiKey
  | emailApiKey
  | emailSmtpPassword
  | widgetSecret
  | itopsTaskSecret
  | mcpServerSecret
  | customModuleSecret
  deriving DecidableEq

def SecretKind.asKey : SecretKind → List Char
  | .connectionPassword => "connection-password".toList
  | .connectionPassphrase => "connection-passphrase".toList
  | .sshSocksProxyPassword => "ssh-socks-proxy-password".toList
  | .urlPassword => "url-password".toList
  | .aiApiKey => "ai-api-key".toList
  | .exaSearchApiKey => "exa-search-api-key".toList
  | .braveSearchApiKey => "brave-search-api-key".toList
  | .tavilySearchApiKey => "tavily-search-api-key".toList
  | .emailApiKey => "email-api-key".toList
  | .emailSmtpPassword => "email-smtp-password".toList
  | .widgetSecret => "widget-secret".toList
  | .itopsTaskSecret => "itops-task-secret".toList
  | .mcpServerSecret => "mcp-server-secret".toList
  | .customModuleSecret => "custom-module-secret".toList

structure SecretReference where
  kind : SecretKind
  ownerId : List Char
  deriving DecidableEq

def isControl (c : Char) : Bool :=
  c.toNat < 32 || (127 ≤ c.toNat && c.toNat < 160)

def SecretReference.new (kind : SecretKind) (ownerId : List Char) :
    Except Message SecretReference := do
  let ownerId := Text.trim ownerId
  Fallible.reject (ownerId = []) "secret owner id is required".toList
  Fallible.reject (128 < Text.byteLength ownerId)
    "secret owner id must be 128 characters or fewer".toList
  Fallible.reject (ownerId.any isControl = true)
    "secret owner id cannot contain control characters".toList
  pure { kind, ownerId }

def SecretReference.key (r : SecretReference) : List Char :=
  r.kind.asKey ++ ':' :: r.ownerId

/-- The digest of the keys, the cipher, the keychain and the database. -/
structure World (Key Row : Type) where
  dbPath : List Char
  storageKey : List Char → Key
  encrypt : Nat → List Char → Key → List Char → Row
  decrypt : List Char → Key → Row → Except Message (List Char)
  keychain : Nat → Except Message (Option (List Char))
  /-- What goes wrong with a statement. -/
  failure : Nat → Option Message

structure SqliteSecretStore where
  password : List Char
  verified : Bool
  deriving DecidableEq

inductive LiveStore where
  | keyring
  | sqlite (store : SqliteSecretStore)
  deriving DecidableEq

structure SecretStoreState where
  store : Option LiveStore
  backend : Option Message
  initError : Option Message
  selectedStore : List Char
  deriving DecidableEq

abbrev Rows (Key Row : Type) := AList (fun _ : Key => Row)

structure State (Key Row : Type) where
  tick : Nat
  rows : Rows Key Row
  session : SecretStoreState

def sentinelKey : List Char :=
  "__kkterm_sqlite_secret_store_check__".toList

def sentinelPlaintext : List Char :=
  "kkterm-sqlite-secret-store-v1".toList

section Store
variable {Key Row : Type} [DecidableEq Key] (w : World Key Row)

abbrev Vault (Key Row : Type) := Action (State Key Row) Message

/-- A statement that fails does nothing. -/
def statement {α : Type} (context : Message) (value : Rows Key Row → α)
    (change : Rows Key Row → Rows Key Row) : Vault Key Row α :=
  step (fun s =>
    match w.failure s.tick with
    | some e => (.error (context ++ ": ".toList ++ e), { s with tick := s.tick + 1 })
    | none => (.ok (value s.rows), { s with tick := s.tick + 1, rows := change s.rows }))

def openConnection : Vault Key Row Unit :=
  statement w ("Could not open encrypted SQLite secret store ".toList ++ w.dbPath) (fun _ => ()) id

def query {α : Type} (context : Message) (value : Rows Key Row → α) : Vault Key Row α :=
  statement w context value id

def execute (context : Message) (change : Rows Key Row → Rows Key Row) : Vault Key Row Unit :=
  statement w context (fun _ => ()) change

def encryptSecret (password : List Char) (key : Key) (secret : List Char) : Vault Key Row Row :=
  step (fun s => (.ok (w.encrypt s.tick password key secret), s))

def decryptSecret (password : List Char) (key : Key) (row : Row) : Vault Key Row (List Char) :=
  step (fun s => (w.decrypt password key row, s))

def writeByKey (store : SqliteSecretStore) (key : Key) (secret : List Char) :
    Vault Key Row Unit := do
  openConnection w
  let encrypted ← encryptSecret w store.password key secret
  execute w "Could not write encrypted SQLite secret".toList (AList.insert key encrypted)

def readByKey (store : SqliteSecretStore) (key : Key) : Vault Key Row (Option (List Char)) := do
  openConnection w
  match ← query w "Could not read encrypted SQLite secret".toList (AList.lookup key) with
  | none => pure none
  | some row => some <$> decryptSecret w store.password key row

def deleteByKey (key : Key) : Vault Key Row Unit := do
  openConnection w
  execute w "Could not delete encrypted SQLite secret".toList (AList.erase key)

def existsByKey (key : Key) : Vault Key Row Bool := do
  openConnection w
  query w "Could not query encrypted SQLite secret".toList (fun rows => (rows.lookup key).isSome)

def SqliteSecretStore.new (password : List Char) : Vault Key Row SqliteSecretStore :=
  if Text.trim password = [] then
    throw ("KKTERM_SECRET_STORE_PASSWORD is required for encrypted SQLite secret ".toList ++
      "storage".toList)
  else pure { password, verified := false }

/-- The store, with what is now known of its password. -/
def initializeOrVerify (store : SqliteSecretStore) (createIfMissing : Bool) :
    Vault Key Row SqliteSecretStore := do
  if store.verified then pure store
  else if ← existsByKey w (w.storageKey sentinelKey) then
    match ← readByKey w store (w.storageKey sentinelKey) with
    | none => throw "Encrypted SQLite secret store verification record is missing".toList
    | some plaintext =>
      if plaintext = sentinelPlaintext then pure { store with verified := true }
      else throw "Encrypted SQLite secret store verification failed".toList
  else if createIfMissing then do
    writeByKey w store (w.storageKey sentinelKey) sentinelPlaintext
    pure { store with verified := true }
  else throw "Encrypted SQLite secret store has not been set up".toList

def reset (store : SqliteSecretStore) : Vault Key Row SqliteSecretStore := do
  openConnection w
  execute w "Could not clear encrypted SQLite secrets".toList (fun _ => ∅)
  writeByKey w store (w.storageKey sentinelKey) sentinelPlaintext
  pure { store with verified := true }

/-- One row of the transaction. -/
def rotateRow (old new : List Char) (table : Rows Key Row) (entry : Sigma fun _ : Key => Row) :
    Vault Key Row (Rows Key Row) := do
  let plaintext ← decryptSecret w old entry.1 entry.2
  let encrypted ← encryptSecret w new entry.1 plaintext
  query w "Could not rotate encrypted SQLite secret".toList (fun _ => ())
  pure (if entry.1 ∈ table then table.insert entry.1 encrypted else table)

def rotatePassword (store : SqliteSecretStore) (newPassword : List Char) :
    Vault Key Row SqliteSecretStore := do
  let store ← initializeOrVerify w store false
  let replacement ← SqliteSecretStore.new newPassword
  openConnection w
  query w "Could not start encrypted SQLite secret rotation".toList (fun _ => ())
  let rows ← query w "Could not read encrypted SQLite secrets for rotation".toList id
  let table ← rows.entries.foldlM (rotateRow w store.password replacement.password) rows
  execute w "Could not commit encrypted SQLite secret rotation".toList (fun _ => table)
  pure { replacement with verified := true }

end Store

end Secrets

/-!
# Calls on the secret store

One call runs at a time. The store that is selected is the keychain of the system or the
encrypted table; the latter is unlocked while a store with its password is held.
-/

namespace Secrets

open Effects

structure KeychainStatus where
  available : Bool
  backend : Message
  selectedStore : List Char
  encryptedStoreExists : Bool
  deriving DecidableEq

structure CredentialSecretStoreStatus where
  selectedStore : List Char
  backend : Message
  available : Bool
  encryptedStoreExists : Bool
  unlocked : Bool
  deriving DecidableEq

inductive Operation where
  | configureEncryptedFileStore (password : List Char) (createIfMissing resetExisting : Bool)
  | changeEncryptedFileStorePassword (currentPassword newPassword : List Char)
  | lockEncryptedFileStore
  | storeSecret (kind : SecretKind) (ownerId secret : List Char)
  | deleteSecret (kind : SecretKind) (ownerId : List Char)
  | readSecret (kind : SecretKind) (ownerId : List Char)
  deriving DecidableEq

inductive Answer where
  | keychain (status : KeychainStatus)
  | credentials (status : CredentialSecretStoreStatus)
  | done
  | secret (value : Option (List Char))
  deriving DecidableEq

def fileStore : List Char :=
  "file".toList

def unlockedState (store : SqliteSecretStore) : SecretStoreState where
  store := some (.sqlite store)
  backend := some "Encrypted SQLite secret store".toList
  initError := none
  selectedStore := fileStore

def lockedState : SecretStoreState where
  store := none
  backend := none
  initError := some ("Encrypted SQLite secret store is locked until the master password ".toList ++
    "is entered".toList)
  selectedStore := fileStore

section Calls
variable {Key Row : Type} [DecidableEq Key] (w : World Key Row)

def getSession : Vault Key Row SecretStoreState :=
  step (fun s => (.ok s.session, s))

def setSession (f : SecretStoreState → SecretStoreState) : Vault Key Row Unit :=
  step (fun s => (.ok (), { s with session := f s.session }))

def checked {α : Type} (x : Except Message α) : Vault Key Row α :=
  step (fun s => (x, s))

def storeExists : Vault Key Row Bool :=
  tryCatch (existsByKey w (w.storageKey sentinelKey)) (fun _ => pure false)

def SecretStoreState.backendText (s : SecretStoreState) : Message :=
  (s.backend.or s.initError).getD "Secret store unavailable".toList

def status : Vault Key Row KeychainStatus := do
  let session ← getSession
  let encryptedStoreExists ← storeExists w
  pure { available := session.backend.isSome
         backend := session.backendText
         selectedStore := session.selectedStore
         encryptedStoreExists }

def credentialSecretStoreStatus : Vault Key Row CredentialSecretStoreStatus := do
  let session ← getSession
  let encryptedStoreExists ← storeExists w
  pure { selectedStore := session.selectedStore
         backend := session.backendText
         available := session.backend.isSome
         encryptedStoreExists
         unlocked := session.selectedStore = fileStore && session.store.isSome }

def configureEncryptedFileStore (password : List Char) (createIfMissing resetExisting : Bool) :
    Vault Key Row KeychainStatus := do
  let store ← SqliteSecretStore.new password
  let store ← if resetExisting then reset w store else initializeOrVerify w store createIfMissing
  setSession (fun _ => unlockedState store)
  status w

def changeEncryptedFileStorePassword (currentPassword newPassword : List Char) :
    Vault Key Row KeychainStatus := do
  let store ← SqliteSecretStore.new currentPassword
  let store ← rotatePassword w store newPassword
  setSession (fun _ => unlockedState store)
  status w

def lockEncryptedFileStore : Vault Key Row CredentialSecretStoreStatus := do
  setSession (fun s => if s.selectedStore = fileStore then lockedState else s)
  credentialSecretStoreStatus w

def withStore {α : Type} (operation : LiveStore → Vault Key Row α) : Vault Key Row α := do
  let session ← getSession
  match session.store with
  | none => throw (session.initError.getD "Secret store is unavailable".toList)
  | some store => operation store

def keychainCall : Vault Key Row (Option (List Char)) :=
  step (fun s => (w.keychain s.tick, { s with tick := s.tick + 1 }))

/-- The check before each access; what it finds out is kept with the store. -/
def verifyLive (store : SqliteSecretStore) : Vault Key Row Unit := do
  let store ← initializeOrVerify w store false
  setSession (fun s => { s with store := some (.sqlite store) })

def LiveStore.write (reference : SecretReference) (secret : List Char) :
    LiveStore → Vault Key Row Unit
  | .keyring => do
    let _ ← keychainCall w
    pure ()
  | .sqlite store => do
    verifyLive w store
    writeByKey w store (w.storageKey reference.key) secret

def LiveStore.read (reference : SecretReference) : LiveStore → Vault Key Row (Option (List Char))
  | .keyring => keychainCall w
  | .sqlite store => do
    verifyLive w store
    readByKey w store (w.storageKey reference.key)

def LiveStore.delete (reference : SecretReference) : LiveStore → Vault Key Row Unit
  | .keyring => do
    let _ ← keychainCall w
    pure ()
  | .sqlite store => do
    verifyLive w store
    deleteByKey w (w.storageKey reference.key)

def storeSecret (kind : SecretKind) (ownerId secret : List Char) : Vault Key Row Unit := do
  let reference ← checked (SecretReference.new kind ownerId)
  if secret = [] then throw "secret value is required".toList
  else withStore (LiveStore.write w reference secret)

def deleteSecret (kind : SecretKind) (ownerId : List Char) : Vault Key Row Unit := do
  let reference ← checked (SecretReference.new kind ownerId)
  withStore (LiveStore.delete w reference)

def readSecret (kind : SecretKind) (ownerId : List Char) :
    Vault Key Row (Option (List Char)) := do
  let reference ← checked (SecretReference.new kind ownerId)
  withStore (LiveStore.read w reference)

def perform : Operation → Vault Key Row Answer
  | .configureEncryptedFileStore password createIfMissing resetExisting =>
    .keychain <$> configureEncryptedFileStore w password createIfMissing resetExisting
  | .changeEncryptedFileStorePassword currentPassword newPassword =>
    .keychain <$> changeEncryptedFileStorePassword w currentPassword newPassword
  | .lockEncryptedFileStore => .credentials <$> lockEncryptedFileStore w
  | .storeSecret kind ownerId secret => (fun _ => .done) <$> storeSecret w kind ownerId secret
  | .deleteSecret kind ownerId => (fun _ => .done) <$> deleteSecret w kind ownerId
  | .readSecret kind ownerId => .secret <$> readSecret w kind ownerId

end Calls

end Secrets
