import KKTerm.CustomModules.Catalog
import KKTerm.Library.Mortal
import Mathlib.Data.List.AList

/-!
# The installation of a Custom Module

A package is unpacked in a staging directory, which becomes the package directory of the version
by a rename; then the database records the version. The inspection of a package and the check of
a version are parameters. Icons are left out of what is returned.
-/

namespace CustomModules

open Fallible Mortal

abbrev Name := List Char

/-- The fields of a manifest that an installation uses. -/
structure Manifest where
  id : Name
  name : Name
  version : Name
  publisher : Name
  apiVersion : Nat
  license : Name
  permissions : Permissions
  railVisible : List Bool
  deriving DecidableEq

structure PackageReview where
  manifest : Manifest
  sha256 : Name

/-- An entry of an archive has a path of names. It is read in pieces, and a reader that finds the
content damaged fails after the last of them. -/
structure ArchiveEntry where
  path : List Name
  isDir : Bool
  reads : List Bytes
  intact : Bool

inductive Source where
  | fromLocal
  | fromCatalog
  deriving DecidableEq

inductive Trust where
  | byLocal
  | firstParty
  deriving DecidableEq

inductive InstallError where
  | inspection
  | checksumChanged
  | metadataDiffers
  | alreadyInstalled (name version : Name)
  | fileSystem
  | damagedEntry
  | invalidStoredVersion
  | invalidManifest
  | identityDiffers
  | notReloaded
  deriving DecidableEq

/-- What reads packages and checks what is in them. -/
structure World (Package : Type) where
  entries : Package → List ArchiveEntry
  validVersion : Name → Bool
  validateManifest : Manifest → Bool
  inspectArchive : Package → Except InstallError PackageReview
  inspected : ∀ package review, inspectArchive package = .ok review →
    validateManifest review.manifest = true

inductive FileEntry where
  | dir
  | file (content : Bytes)
  deriving DecidableEq

/-- What is in a directory, by paths of names. -/
abbrev Folder := AList (fun _ : List Name => FileEntry)

structure ModuleRow where
  manifest : Manifest
  activeVersion : Name
  previousVersion : Option Name
  source : Source
  trust : Trust
  installed : Bool
  enabled : Bool
  railVisible : Bool
  sortOrder : Int
  sha256 : Name
  installedAt : Nat
  updatedAt : Nat
  deriving DecidableEq

structure VersionRow where
  relativePath : List Name
  sha256 : Name
  installedAt : Nat
  deriving DecidableEq

/-- The package directories and the tables; a package and a version have a module and a version
for their key. -/
structure Records where
  packages : AList (fun _ : Name × Name => Folder)
  modules : AList (fun _ : Name => ModuleRow)
  versions : AList (fun _ : Name × Name => VersionRow)
  permissions : AList (fun _ : Name => List (Name × Nat))

structure Store where
  staging : AList (fun _ : Name => Folder)
  records : Records

abbrev Change := Folder → Except InstallError Folder

abbrev Installation (α : Type) := Task Store InstallError α

def Store.setStaging (s : Store) (name : Name) (folder : Option Folder) : Store :=
  { s with staging :=
      folder.elim (s.staging.erase name) fun folder => s.staging.insert name folder }

def Records.setPackage (r : Records) (key : Name × Name) (folder : Option Folder) : Records :=
  { r with packages :=
      folder.elim (r.packages.erase key) fun folder => r.packages.insert key folder }

def Store.setPackage (s : Store) (key : Name × Name) (folder : Option Folder) : Store :=
  { s with records := s.records.setPackage key folder }

def packageRelativePath (moduleId version : Name) : List Name :=
  ["packages".toList, moduleId, version]

def makeDir (path : List Name) : Change := fun folder =>
  match folder.lookup path with
  | none => .ok (folder.insert path .dir)
  | some .dir => .ok folder
  | some (.file _) => .error .fileSystem

def createFile (path : List Name) : Change := fun folder =>
  match folder.lookup path with
  | some .dir => .error .fileSystem
  | _ => .ok (folder.insert path (.file []))

def appendFile (path : List Name) (bytes : Bytes) : Change := fun folder =>
  match folder.lookup path with
  | some (.file content) => .ok (folder.insert path (.file (content ++ bytes)))
  | _ => .error .fileSystem

/-- The directories on a path, one call each. -/
def createDirAll (path : List Name) : List Change :=
  path.inits.tail.map makeDir

/-- The calls that unpack an entry; the last one of a file flushes it. -/
def extractEntry (entry : ArchiveEntry) : List Change :=
  if entry.isDir then createDirAll entry.path
  else
    createDirAll entry.path.dropLast ++ [createFile entry.path] ++
      entry.reads.map (appendFile entry.path) ++
      [fun folder => if entry.intact then .ok folder else .error .damagedEntry]

def inStaging (name : Name) (change : Change) (s : Store) : Except InstallError Store := do
  let folder ← require (s.staging.lookup name) .fileSystem
  let folder ← change folder
  .ok (s.setStaging name (some folder))

def createStaging (name : Name) (s : Store) : Except InstallError Store := do
  reject ((s.staging.lookup name).isSome = true) .fileSystem
  .ok (s.setStaging name (some ∅))

def extractArchive (name : Name) (entries : List ArchiveEntry) : Installation Unit := do
  call .ok
  call (createStaging name)
  forM (entries.flatMap extractEntry) fun change => call (inStaging name change)

/-- The entries of a directory are removed, then the directory. -/
def removeDirAll (get : Store → Option Folder) (set : Store → Option Folder → Store) :
    Installation Unit := do
  let folder ← look fun s => require (get s) .fileSystem
  forM folder.keys fun path => call fun s => .ok (set s ((get s).map (·.erase path)))
  call fun s => .ok (set s none)

def removeStaging (name : Name) : Installation Unit :=
  onFailure (removeDirAll (·.staging.lookup name) (·.setStaging name)) fun _ => pure ()

def removePackage (key : Name × Name) : Installation Unit :=
  onFailure (removeDirAll (·.records.packages.lookup key) (·.setPackage key)) fun _ => pure ()

structure InstallCall (Package : Type) where
  package : Package
  source : Source
  trust : Trust
  expectedSha256 : Option Name
  catalogMetadata : Option CatalogEntry
  now : Nat
  random : Nat

structure InstalledCustomModule where
  manifest : Manifest
  source : Source
  trust : Trust
  enabled : Bool
  sha256 : Name
  previousVersion : Option Name
  ready : Bool
  deriving DecidableEq

section Install
variable {Package : Type} (w : World Package) (c : InstallCall Package) (review : PackageReview)

def matchesCatalog (manifest : Manifest) (entry : CatalogEntry) : Bool :=
  manifest.id = entry.id && manifest.version = entry.version && manifest.name = entry.name &&
    manifest.publisher = entry.publisher && manifest.apiVersion = entry.apiVersion &&
    manifest.permissions = entry.permissions && manifest.license = entry.license

def checkReview : Except InstallError Unit := do
  reject ((c.expectedSha256.any fun expected =>
    Text.asciiLower expected ≠ Text.asciiLower review.sha256) = true) .checksumChanged
  reject ((c.catalogMetadata.any fun entry => !matchesCatalog review.manifest entry) = true)
    .metadataDiffers

/-- The random number has sixteen digits. -/
def stagingName : Name :=
  let digits := Nat.toDigits 16 c.random
  review.manifest.id ++ '-' :: review.manifest.version ++
    '-' :: (List.replicate (16 - digits.length) '0' ++ digits)

def packageKey : Name × Name :=
  (review.manifest.id, review.manifest.version)

def nextSortOrder (modules : AList (fun _ : Name => ModuleRow)) : Int :=
  (modules.entries.map (·.2.sortOrder)).foldl max (-1) + 1

/-- A module that is not there gets a row; one that was uninstalled starts anew. -/
def upsertModule (modules : AList (fun _ : Name => ModuleRow)) : ModuleRow :=
  let railVisible := review.manifest.railVisible.any id
  match modules.lookup review.manifest.id with
  | none => {
      manifest := review.manifest, activeVersion := review.manifest.version
      previousVersion := none, source := c.source, trust := c.trust, installed := true
      enabled := true, railVisible, sortOrder := nextSortOrder modules, sha256 := review.sha256
      installedAt := c.now, updatedAt := c.now }
  | some row => { row with
      manifest := review.manifest
      previousVersion :=
        if row.installed = false then none
        else if row.activeVersion = review.manifest.version then row.previousVersion
        else some row.activeVersion
      activeVersion := review.manifest.version
      source := c.source
      trust := c.trust
      enabled := if row.installed = false then true else row.enabled
      railVisible := if row.installed = false then railVisible else row.railVisible
      installed := true
      sha256 := review.sha256
      installedAt := if row.installed = false then c.now else row.installedAt
      updatedAt := c.now }

/-- One transaction. -/
def record (r : Records) : Records :=
  { r with
    modules := r.modules.insert review.manifest.id (upsertModule c review r.modules)
    versions := r.versions.insert (packageKey review) {
      relativePath := packageRelativePath review.manifest.id review.manifest.version
      sha256 := review.sha256, installedAt := c.now }
    permissions := r.permissions.insert review.manifest.id
      (review.manifest.permissions.enabledNames.map (·, c.now)) }

def onRecords (change : Records → Records) (s : Store) : Except InstallError Store :=
  .ok { s with records := change s.records }

/-- The versions of the module but for the new one and the one that is kept for a rollback. -/
def obsoleteVersions (s : Store) : Except InstallError (List Name) := do
  let row ← require (s.records.modules.lookup review.manifest.id) .fileSystem
  let versions := (s.records.versions.keys.filter (·.1 = review.manifest.id)).map Prod.snd
  .ok (versions.filter fun version =>
    version ≠ review.manifest.version ∧ row.previousVersion ≠ some version)

def deleteVersion (version : Name) : Installation Unit := do
  look fun _ => reject (w.validVersion version = false) .invalidStoredVersion
  call (onRecords fun r => { r with versions := r.versions.erase (review.manifest.id, version) })

/-- The staging directory takes the place of the package directory. -/
def publish (name : Name) (s : Store) : Except InstallError Store := do
  let folder ← require (s.staging.lookup name) .fileSystem
  reject ((s.records.packages.lookup (packageKey review)).isSome = true) .fileSystem
  .ok ((s.setStaging name none).setPackage (packageKey review) (some folder))

def installedModule (moduleId : Name) (s : Store) :
    Except InstallError InstalledCustomModule := do
  let row ← require ((s.records.modules.lookup moduleId).filter (·.installed)) .notReloaded
  reject (w.validateManifest row.manifest = false) .invalidManifest
  reject (row.manifest.id ≠ moduleId ∨ row.manifest.version ≠ row.activeVersion) .identityDiffers
  let key := (row.manifest.id, row.manifest.version)
  .ok {
    manifest := row.manifest, source := row.source, trust := row.trust, enabled := row.enabled
    sha256 := row.sha256, previousVersion := row.previousVersion
    ready := (s.records.packages.lookup key).isSome }

def prepare : Installation Unit := do
  look fun _ => checkReview c review
  look fun s => reject ((s.records.packages.lookup (packageKey review)).isSome = true)
    (.alreadyInstalled review.manifest.name review.manifest.version)
  let name := stagingName c review
  onFailure (extractArchive name (w.entries c.package)) fun error => do
    removeStaging name
    fail error
  -- the directory that the package directory is in
  call .ok

def activate : Installation Unit :=
  onFailure (call (publish review (stagingName c review))) fun error => do
    removeStaging (stagingName c review)
    fail error

def complete : Installation InstalledCustomModule := do
  onFailure (call (onRecords (record c review))) fun error => do
    removePackage (packageKey review)
    fail error
  let obsolete ← look (obsoleteVersions review)
  forM obsolete (deleteVersion w review)
  forM obsolete fun version => removePackage (review.manifest.id, version)
  look (installedModule w review.manifest.id)

def installPackage : Installation InstalledCustomModule := do
  let review ← look fun _ => w.inspectArchive c.package
  prepare w c review
  activate c review
  complete w c review

end Install

end CustomModules
