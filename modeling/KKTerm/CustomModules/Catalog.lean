import KKTerm.CustomModules.Directories

/-!
# What a Custom Module may do

The parser of URLs is a parameter; of a URL the checks use the parts named here.
-/

namespace CustomModules

open Fallible

structure Url where
  scheme : List Char
  host : Option (List Char)
  username : List Char
  password : Option (List Char)
  path : List Char
  query : Option (List Char)
  fragment : Option (List Char)
  /-- The ASCII serialization. -/
  origin : List Char
  deriving DecidableEq

structure FilePermission where
  openFile : Bool
  save : Bool
  directoryRead : Bool
  directoryWrite : Bool
  extensions : List (List Char)
  deriving DecidableEq

structure HostIntegrationPermission where
  openPath : Bool
  revealPath : Bool
  share : Bool
  print : Bool
  deriving DecidableEq

structure NetworkPermission where
  origins : List (List Char)
  methods : List (List Char)
  allowPrivateNetwork : Bool
  maxResponseBytes : Nat
  deriving DecidableEq

structure Permissions where
  storage : Bool
  documentStorage : Bool
  blobStorage : Bool
  browserStorage : Bool
  openExternal : Bool
  clipboard : Bool
  files : Option FilePermission
  networkFetch : Option NetworkPermission
  secretReferences : Bool
  hostUi : Bool
  hostAi : Bool
  hostIntegration : Option HostIntegrationPermission
  deriving DecidableEq

/-- The names of the permissions that a module has, in the order of the fields. -/
def Permissions.enabledNames (p : Permissions) : List (List Char) :=
  [(p.storage, "storage"), (p.documentStorage, "documentStorage"), (p.blobStorage, "blobStorage"),
    (p.browserStorage, "browserStorage"), (p.openExternal, "openExternal"),
    (p.clipboard, "clipboard"), (p.files.isSome, "files"), (p.networkFetch.isSome, "networkFetch"),
    (p.secretReferences, "secretReferences"), (p.hostUi, "hostUi"), (p.hostAi, "hostAi"),
    (p.hostIntegration.isSome, "hostIntegration")].filterMap (fun entry =>
      if entry.1 then some entry.2.toList else none)

inductive PermissionError where
  | noFileOperation
  | tooManyExtensions
  | invalidExtension (extension : List Char)
  | duplicateExtension (extension : List Char)
  | hostIntegrationWithoutFiles
  | noHostOperation
  | originCount
  | methodCount
  | invalidOrigin (origin : List Char)
  | inexactOrigin (origin : List Char)
  | originNotCanonical (origin : List Char)
  | unsupportedMethod (method : List Char)
  | duplicateMethod (method : List Char)
  | responseSize
  deriving DecidableEq

/-- A loop that checks each item and then that it is new. -/
def checkDistinct {α : Type} [DecidableEq α] (check : α → Except PermissionError Unit)
    (duplicate : α → PermissionError) (items : List α) : Except PermissionError Unit := do
  let _ ← items.foldlM (fun seen item => do
    check item
    reject (item ∈ seen) (duplicate item)
    pure (item :: seen)) []
  pure ()

def validateExtension (extension : List Char) : Except PermissionError Unit :=
  reject (extension = [] ∨ 32 < Text.byteLength extension ∨
    extension.all (fun c => Text.isAsciiLowercase c || Text.isAsciiDigit c) = false)
    (.invalidExtension extension)

def validateFiles (files : FilePermission) : Except PermissionError Unit := do
  reject (files.openFile = false ∧ files.save = false ∧ files.directoryRead = false ∧
    files.directoryWrite = false) .noFileOperation
  reject (128 < files.extensions.length) .tooManyExtensions
  checkDistinct validateExtension .duplicateExtension files.extensions

def validateHostIntegration (files : Option FilePermission)
    (integration : HostIntegrationPermission) : Except PermissionError Unit := do
  reject (files = none) .hostIntegrationWithoutFiles
  reject (integration.openPath = false ∧ integration.revealPath = false ∧
    integration.share = false ∧ integration.print = false) .noHostOperation

def validateOrigin (parseUrl : List Char → Option Url) (allowPrivateNetwork : Bool)
    (origin : List Char) : Except PermissionError Unit := do
  let url ← require (parseUrl origin) (.invalidOrigin origin)
  reject (¬ (url.scheme = "https".toList ∨
      (url.scheme = "http".toList ∧ allowPrivateNetwork = true)) ∨
    url.host = none ∨ url.username ≠ [] ∨ url.password ≠ none ∨ url.path ≠ "/".toList ∨
    url.query ≠ none ∨ url.fragment ≠ none) (.inexactOrigin origin)
  reject (url.origin ≠ origin) (.originNotCanonical origin)

def networkMethods : List (List Char) :=
  ["GET".toList, "HEAD".toList, "POST".toList, "PUT".toList, "PATCH".toList, "DELETE".toList]

def validateNetwork (parseUrl : List Char → Option Url) (network : NetworkPermission) :
    Except PermissionError Unit := do
  reject (network.origins = [] ∨ 64 < network.origins.length) .originCount
  reject (network.methods = [] ∨ 8 < network.methods.length) .methodCount
  checkDistinct (validateOrigin parseUrl network.allowPrivateNetwork) .originNotCanonical
    network.origins
  checkDistinct (fun method => reject (method ∉ networkMethods) (.unsupportedMethod method))
    .duplicateMethod network.methods
  reject (¬ (1 ≤ network.maxResponseBytes ∧ network.maxResponseBytes ≤ 64 * 1024 * 1024))
    .responseSize

def checkPresent {α : Type} (check : α → Except PermissionError Unit) :
    Option α → Except PermissionError Unit
  | none => .ok ()
  | some value => check value

def validatePermissions (parseUrl : List Char → Option Url) (permissions : Permissions) :
    Except PermissionError Unit := do
  checkPresent validateFiles permissions.files
  checkPresent (validateHostIntegration permissions.files) permissions.hostIntegration
  checkPresent (validateNetwork parseUrl) permissions.networkFetch

end CustomModules

/-!
# The catalog of Custom Modules

A bundled catalog is extended by an online one, which is signed, numbered and dated,
and kept as the bytes that were received. The crates that parse, decode and verify are
parameters, and so is the key and the address that are compiled in.
-/

namespace CustomModules

open Fallible Text

abbrev Bytes := List UInt8

structure SignedCatalogEnvelope where
  schemaVersion : Nat
  keyId : List Char
  payload : List Char
  signature : List Char

structure CatalogEntry where
  id : List Char
  name : List Char
  version : List Char
  publisher : List Char
  summary : List Char
  apiVersion : Nat
  downloadUrl : List Char
  sha256 : List Char
  signature : List Char
  license : List Char
  permissions : Permissions
  downloadSize : Nat
  deriving DecidableEq

structure Catalog where
  schemaVersion : Nat
  modules : List CatalogEntry

structure OnlineCatalogPayload where
  schemaVersion : Nat
  sequence : Nat
  generatedAt : List Char
  expiresAt : List Char
  modules : List CatalogEntry

structure VerifiedOnlineCatalog where
  payload : OnlineCatalogPayload
  payloadSha256 : List Char
  expired : Bool

/-- The crates, and what is compiled in. Times are in nanoseconds. -/
structure Crates (V : Type) where
  parseEnvelope : Bytes → Option SignedCatalogEnvelope
  parsePayload : Bytes → Option OnlineCatalogPayload
  parseBundled : Option Catalog
  decodeBase64 : List Char → Option Bytes
  keyFromBytes : Bytes → Option Bytes
  signatureFromSlice : Bytes → Option Bytes
  verify : Bytes → Bytes → Bytes → Bool
  digest : Bytes → Bytes
  parseUrl : List Char → Option Url
  parseTime : List Char → Option Int
  parseVersion : List Char → Option V
  publicKeyHex : List Char
  onlineCatalogUrl : List Char

inductive CatalogError where
  | size
  | envelope
  | envelopeSchema
  | key
  | unexpectedKey
  | payloadEncoding
  | payloadSize
  | signatureEncoding
  | untrusted
  | payload
  | payloadSchema
  | time (field : List Char)
  | future
  | validity
  | catalogSchema
  | identifier (field : List Char)
  | version
  | duplicateId (id : List Char)
  | entryTexts
  | apiVersion
  | packageSha256
  | packageSignature
  | permissions (error : PermissionError)
  | downloadSize (id : List Char)
  | downloadUrl
  | catalogUrl
  | origin (id : List Char)
  | bundled
  | identityChanged (id : List Char)
  | unreachable
  | expired
  | rolledBack
  | changedWithoutSequence
  | cacheWrite
  deriving DecidableEq

def maxCatalogBytes : Nat := 4 * 1024 * 1024
def maxArchiveBytes : Nat := 1024 * 1024 * 1024
def maxCatalogSkew : Int := 600000000000
def maxCatalogValidity : Int := 3888000000000000

def hexPairs : List Char → Option Bytes
  | [] => some []
  | [_] => none
  | high :: low :: rest => do
    let byte ← hexByte high low
    let bytes ← hexPairs rest
    pure (byte :: bytes)

def decodeHex (size : Nat) (value : List Char) : Option Bytes :=
  if byteLength value = 2 * size then hexPairs value else none

def encodeHex (bytes : Bytes) : List Char :=
  bytes.flatMap (fun byte => [Nat.digitChar (byte.toNat / 16), Nat.digitChar (byte.toNat % 16)])

section Checks
variable {V : Type} (x : Crates V)

def verifyCatalogSignature (sha256 encodedSignature : List Char) : Except CatalogError Unit := do
  let key ← require ((decodeHex 32 x.publicKeyHex).bind x.keyFromBytes) .key
  let signature ← require ((x.decodeBase64 encodedSignature).bind x.signatureFromSlice)
    .packageSignature
  reject (x.verify key (sha256.map (fun c => UInt8.ofNat c.toNat)) signature = false) .untrusted

def liftError {ε α : Type} (wrap : ε → CatalogError) : Except ε α → Except CatalogError α
  | .ok value => .ok value
  | .error e => .error (wrap e)

/-- One round of the loop over the entries, with the ids so far. -/
def validateEntry (ids : List (List Char)) (entry : CatalogEntry) :
    Except CatalogError (List (List Char)) := do
  liftError (fun e => .identifier e.field)
    (validateIdentifier entry.id "catalog module id".toList)
  reject (64 < byteLength entry.version) .version
  reject ((x.parseVersion entry.version).isNone = true) .version
  reject (entry.id ∈ ids) (.duplicateId entry.id)
  reject (trim entry.name = [] ∨ 128 < byteLength entry.name ∨
    trim entry.publisher = [] ∨ 256 < byteLength entry.publisher ∨
    2048 < byteLength entry.summary ∨
    trim entry.license = [] ∨ 128 < byteLength entry.license) .entryTexts
  reject (entry.apiVersion = 0) .apiVersion
  reject ((decodeHex 32 entry.sha256).isNone = true) .packageSha256
  reject (entry.sha256 ≠ asciiLower entry.sha256) .packageSha256
  reject (((x.decodeBase64 entry.signature).bind x.signatureFromSlice).isNone = true)
    .packageSignature
  verifyCatalogSignature x entry.sha256 entry.signature
  liftError .permissions (validatePermissions x.parseUrl entry.permissions)
  reject (entry.downloadSize = 0 ∨ maxArchiveBytes < entry.downloadSize) (.downloadSize entry.id)
  let url ← require (x.parseUrl entry.downloadUrl) .downloadUrl
  reject (url.scheme ≠ "https".toList) .downloadUrl
  pure (ids ++ [entry.id])

def validateCatalog (catalog : Catalog) : Except CatalogError Unit := do
  reject (catalog.schemaVersion ≠ 2) .catalogSchema
  let _ ← catalog.modules.foldlM (validateEntry x) []
  pure ()

def baselineCatalog : Except CatalogError Catalog := do
  let catalog ← require x.parseBundled .bundled
  validateCatalog x catalog
  pure catalog

/-- Packages come from where the catalog comes from. -/
def checkOrigins (modules : List CatalogEntry) : Except CatalogError Unit :=
  if x.onlineCatalogUrl = [] then pure ()
  else do
    let catalogUrl ← require (x.parseUrl x.onlineCatalogUrl) .catalogUrl
    forM modules (fun entry => do
      let downloadUrl ← require (x.parseUrl entry.downloadUrl) .downloadUrl
      reject (downloadUrl.origin ≠ catalogUrl.origin) (.origin entry.id))

/-- The payload that the key has signed. -/
def verifySignature (bytes : Bytes) : Except CatalogError Bytes := do
  reject (bytes = [] ∨ maxCatalogBytes < bytes.length) .size
  let envelope ← require (x.parseEnvelope bytes) .envelope
  reject (envelope.schemaVersion ≠ 2) .envelopeSchema
  let key ← require ((decodeHex 32 x.publicKeyHex).bind x.keyFromBytes) .key
  reject (envelope.keyId ≠ encodeHex (x.digest key)) .unexpectedKey
  let payloadBytes ← require (x.decodeBase64 envelope.payload) .payloadEncoding
  reject (payloadBytes = [] ∨ maxCatalogBytes < payloadBytes.length) .payloadSize
  let signatureBytes ← require (x.decodeBase64 envelope.signature) .signatureEncoding
  let signature ← require (x.signatureFromSlice signatureBytes) .signatureEncoding
  reject (x.verify key payloadBytes signature = false) .untrusted
  pure payloadBytes

def verifyOnlineCatalog (bytes : Bytes) (now : Int) : Except CatalogError VerifiedOnlineCatalog := do
  let payloadBytes ← verifySignature x bytes
  let payload ← require (x.parsePayload payloadBytes) .payload
  reject (payload.schemaVersion ≠ 2 ∨ payload.sequence = 0) .payloadSchema
  let generatedAt ← require (x.parseTime payload.generatedAt) (.time "generatedAt".toList)
  let expiresAt ← require (x.parseTime payload.expiresAt) (.time "expiresAt".toList)
  reject (now + maxCatalogSkew < generatedAt) .future
  reject (expiresAt ≤ generatedAt ∨ maxCatalogValidity < expiresAt - generatedAt) .validity
  validateCatalog x { schemaVersion := payload.schemaVersion, modules := payload.modules }
  checkOrigins x payload.modules
  pure {
    payload
    payloadSha256 := encodeHex (x.digest payloadBytes)
    expired := expiresAt ≤ now }

def cachedOnlineCatalog (cache : Option Bytes) (now : Int) :
    Except CatalogError (Option VerifiedOnlineCatalog) :=
  match cache with
  | none => .ok none
  | some bytes => (verifyOnlineCatalog x bytes now).map some

end Checks

/-- The map by id: an entry takes the place of the one with its id. -/
def insertEntry (entry : CatalogEntry) : List CatalogEntry → List CatalogEntry
  | [] => [entry]
  | other :: rest =>
    if other.id = entry.id then entry :: rest
    else if precedes entry.id other.id then entry :: other :: rest
    else other :: insertEntry entry rest

section Merge
variable {V : Type} [LE V] [DecidableLE V] (x : Crates V)

/-- One round of the loop over the online entries. -/
def mergeEntry (merged : List CatalogEntry) (entry : CatalogEntry) :
    Except CatalogError (List CatalogEntry) :=
  match merged.find? (·.id = entry.id) with
  | none => pure (insertEntry entry merged)
  | some existing => do
    reject (existing.name ≠ entry.name ∨ existing.publisher ≠ entry.publisher)
      (.identityChanged entry.id)
    let version ← require (x.parseVersion entry.version) .version
    let current ← require (x.parseVersion existing.version) .version
    pure (if version ≤ current then merged else insertEntry entry merged)

def mergeCatalogs (baseline : Catalog) (online : Option VerifiedOnlineCatalog) :
    Except CatalogError (List CatalogEntry) :=
  let merged := baseline.modules.foldl (fun merged entry => insertEntry entry merged) []
  match online.filter (fun catalog => !catalog.expired) with
  | none => pure merged
  | some catalog => catalog.payload.modules.foldlM (mergeEntry x) merged

/-- A cached catalog that does not verify is left aside. -/
def availableCatalog (cache : Option Bytes) (now : Int) : Except CatalogError (List CatalogEntry) := do
  let baseline ← baselineCatalog x
  mergeCatalogs x baseline ((cachedOnlineCatalog x cache now).toOption.bind id)

structure Response where
  contentLength : Option Nat
  body : Bytes

/-- The bytes that the server answered with. -/
def fetch (response : Option Response) : Except CatalogError Bytes := do
  let url ← require (x.parseUrl x.onlineCatalogUrl) .catalogUrl
  reject (url.scheme ≠ "https".toList) .catalogUrl
  let response ← require response .unreachable
  reject (∃ length ∈ response.contentLength, maxCatalogBytes < length) .size
  reject (maxCatalogBytes < response.body.length) .size
  pure response.body

/-- What is compared with the cached catalog, when there is one that verifies. -/
def checkSequence (refreshed : VerifiedOnlineCatalog) :
    Except CatalogError (Option VerifiedOnlineCatalog) → Except CatalogError Unit
  | .ok (some current) => do
    reject (refreshed.payload.sequence < current.payload.sequence) .rolledBack
    reject (refreshed.payload.sequence = current.payload.sequence ∧
      refreshed.payloadSha256 ≠ current.payloadSha256) .changedWithoutSequence
  | _ => .ok ()

/-- All checks before the cache is written. -/
def acceptRefresh (cache : Option Bytes) (now : Int) (response : Option Response) :
    Except CatalogError (Bytes × VerifiedOnlineCatalog) := do
  let bytes ← fetch x response
  let refreshed ← verifyOnlineCatalog x bytes now
  reject (refreshed.expired = true) .expired
  checkSequence refreshed (cachedOnlineCatalog x cache now)
  pure (bytes, refreshed)

/-- The answer, and the cache that is left. A write that fails leaves the cache as it was. -/
def refreshCatalog (cache : Option Bytes) (now : Int) (response : Option Response)
    (written : Bool) : Except CatalogError (List CatalogEntry) × Option Bytes :=
  if x.onlineCatalogUrl = [] then (availableCatalog x cache now, cache)
  else
    match acceptRefresh x cache now response with
    | .error e => (.error e, cache)
    | .ok (bytes, refreshed) =>
      if written then
        ((baselineCatalog x).bind (fun baseline => mergeCatalogs x baseline (some refreshed)),
          some bytes)
      else (.error .cacheWrite, cache)

end Merge

end CustomModules
