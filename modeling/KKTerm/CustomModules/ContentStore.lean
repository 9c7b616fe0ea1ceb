import KKTerm.Library.Fallible
import KKTerm.Library.Text
import Mathlib.Data.List.AList

/-!
# Documents and blobs of Custom Modules

The content of a document or a blob is a file named by its hash; a row says which content
a key has. Calls run on parallel workers: a call is the statement or the file operation
that it makes next, and each of them is a step of its own.
-/

namespace CustomModules.Content

open Fallible

abbrev Message := List Char
abbrev Bytes := List UInt8

inductive Kind where
  | document
  | blob
  deriving DecidableEq

structure Limits where
  noun : List Char
  maxKeys : Nat
  quotaBytes : Nat

def documentLimits : Limits where
  noun := "document".toList
  maxKeys := 4096
  quotaBytes := 536870912

def blobLimits : Limits where
  noun := "blob".toList
  maxKeys := 16384
  quotaBytes := 1073741824

def maxDocumentBytes : Nat :=
  67108864

structure Owner where
  kind : Kind
  moduleId : List Char
  deriving DecidableEq

@[ext]
structure Place where
  owner : Owner
  key : List Char
  deriving DecidableEq

structure ContentPath (Hash : Type) where
  owner : Owner
  sha256 : Hash
  deriving DecidableEq

structure Row (Hash : Type) where
  place : Place
  contentSha256 : Hash
  /-- Only blobs have one. -/
  mimeType : Option (List Char)
  byteSize : Nat
  deriving DecidableEq

def Row.path {Hash : Type} (r : Row Hash) : ContentPath Hash where
  owner := r.place.owner
  sha256 := r.contentSha256

structure Write where
  place : Place
  bytes : Bytes
  mimeType : Option (List Char)
  deriving DecidableEq

inductive Answer (Hash : Type) where
  | done
  | committed (row : Row Hash)
  deriving DecidableEq

inductive Call where
  | setDocument (moduleId key : List Char) (bytes : Bytes)
  | deleteDocument (moduleId key : List Char)
  | commitBlobWrite (moduleId key mimeType : List Char) (bytes : Bytes)
  | deleteBlob (moduleId key : List Char)
  deriving DecidableEq

/-- The database and the content files. -/
structure Disk (Hash : Type) where
  rows : List (Row Hash)
  files : ContentPath Hash → Option Bytes

inductive Stage (Hash : Type) where
  | checkQuota (w : Write)
  | readPrevious (w : Write)
  | lookForContent (w : Write) (previous : Option Hash)
  | compareContent (w : Write) (previous : Option Hash)
  | renameIntoPlace (w : Write) (previous : Option Hash)
  | upsert (w : Write) (previous : Option Hash)
  | selectDeleted (place : Place)
  | deleteSelected (place : Place) (previous : Option Hash)
  | deleteInTransaction (place : Place)
  | countReferences (path : ContentPath Hash) (result : Except Message (Answer Hash))
  | removeFile (path : ContentPath Hash) (result : Except Message (Answer Hash))

inductive Next (Hash : Type) where
  | goesOn (stage : Stage Hash)
  | finished (result : Except Message (Answer Hash))

section Steps
variable {Hash : Type} [DecidableEq Hash] (sha256 : Bytes → Hash)

def Write.path (w : Write) : ContentPath Hash where
  owner := w.place.owner
  sha256 := sha256 w.bytes

def Write.row (w : Write) : Row Hash where
  place := w.place
  contentSha256 := sha256 w.bytes
  mimeType := w.mimeType
  byteSize := w.bytes.length

def Write.answer (w : Write) : Answer Hash :=
  match w.place.owner.kind with
  | .document => .done
  | .blob => .committed (w.row sha256)

def isControl (c : Char) : Bool :=
  c.toNat < 32 || (127 ≤ c.toNat && c.toNat < 160)

def bridgeKey (key : List Char) : Except Message Unit :=
  reject (key = [] ∨ 256 < Text.byteLength key ∨ key.any isControl = true)
    "Custom Module storage key is invalid".toList

/-- The limits on the rows of a module, that of the key itself aside. -/
def ensureQuota (limits : Limits) (rows : List (Row Hash)) (place : Place) (byteSize : Nat) :
    Except Message Unit := do
  let others := rows.filter (fun r => r.place.owner = place.owner ∧ r.place.key ≠ place.key)
  reject (limits.maxKeys ≤ others.length)
    ("Custom Module ".toList ++ limits.noun ++ " key limit exceeded".toList)
  reject (limits.quotaBytes < (others.map (·.byteSize)).sum + byteSize)
    ("Custom Module ".toList ++ limits.noun ++ " storage quota exceeded".toList)

def ensureDocumentQuota (rows : List (Row Hash)) (place : Place) (byteSize : Nat) :
    Except Message Unit :=
  ensureQuota documentLimits rows place byteSize

def ensureBlobQuota (rows : List (Row Hash)) (place : Place) (byteSize : Nat) :
    Except Message Unit :=
  ensureQuota blobLimits rows place byteSize

/-- Whether the rows leave room for a write. -/
def Write.fits (rows : List (Row Hash)) (w : Write) : Except Message Unit :=
  match w.place.owner.kind with
  | .document => ensureDocumentQuota rows w.place w.bytes.length
  | .blob => ensureBlobQuota rows w.place w.bytes.length

def previousAt (rows : List (Row Hash)) (place : Place) : Option Hash :=
  (rows.find? (fun r => r.place = place)).map (·.contentSha256)

def without (rows : List (Row Hash)) (place : Place) : List (Row Hash) :=
  rows.filter (fun r => r.place ≠ place)

/-- The content of a row that is no longer there is looked after, if there was one. -/
def cleanUp (owner : Owner) (previous : Option Hash) (result : Except Message (Answer Hash)) :
    Next Hash :=
  match previous with
  | some old => .goesOn (.countReferences { owner, sha256 := old } result)
  | none => .finished result

/-- A blob is taken as it is; a document that is there already is compared. -/
def foundContent (w : Write) (previous : Option Hash) : Stage Hash :=
  match w.place.owner.kind with
  | .document => .compareContent w previous
  | .blob => .upsert w previous

def Stage.step (d : Disk Hash) : Stage Hash → Disk Hash × Next Hash
  | .checkQuota w =>
    (d, match w.fits d.rows with
      | .ok _ => .goesOn (.readPrevious w)
      | .error e => .finished (.error e))
  | .readPrevious w => (d, .goesOn (.lookForContent w (previousAt d.rows w.place)))
  | .lookForContent w previous =>
    (d, .goesOn (if (d.files (w.path sha256)).isSome then foundContent w previous
      else .renameIntoPlace w previous))
  | .compareContent w previous =>
    (d, match d.files (w.path sha256) with
      | none => .finished (.error "failed to verify Custom Module document".toList)
      | some existing =>
        if existing = w.bytes then .goesOn (.upsert w previous)
        else .finished (.error
          "Custom Module document content hash collision or corruption detected".toList))
  | .renameIntoPlace w previous =>
    ({ d with files := Function.update d.files (w.path sha256) (some w.bytes) },
      .goesOn (.upsert w previous))
  | .upsert w previous =>
    match w.fits d.rows with
    | .ok _ =>
      ({ d with rows := w.row sha256 :: without d.rows w.place },
        cleanUp w.place.owner (previous.filter (fun old => old ≠ sha256 w.bytes))
          (.ok (w.answer sha256)))
    | .error e => (d, .goesOn (.countReferences (w.path sha256) (.error e)))
  | .selectDeleted place => (d, .goesOn (.deleteSelected place (previousAt d.rows place)))
  | .deleteSelected place previous =>
    ({ d with rows := without d.rows place }, cleanUp place.owner previous (.ok .done))
  | .deleteInTransaction place =>
    ({ d with rows := without d.rows place },
      cleanUp place.owner (previousAt d.rows place) (.ok .done))
  | .countReferences path result =>
    (d, if ∃ r ∈ d.rows, r.path = path then .finished result else .goesOn (.removeFile path result))
  | .removeFile path result =>
    ({ d with files := Function.update d.files path none }, .finished result)

/-- The first step of a call whose arguments are accepted. -/
def Call.start : Call → Except Message (Stage Hash)
  | .setDocument moduleId key bytes => do
    bridgeKey key
    reject (maxDocumentBytes < bytes.length)
      "Custom Module document exceeds the 64 MiB per-document limit".toList
    pure (.checkQuota
      { place := { owner := { kind := .document, moduleId }, key }, bytes, mimeType := none })
  | .deleteDocument moduleId key => do
    bridgeKey key
    pure (.deleteInTransaction { owner := { kind := .document, moduleId }, key })
  | .commitBlobWrite moduleId key mimeType bytes => do
    bridgeKey key
    pure (.checkQuota
      { place := { owner := { kind := .blob, moduleId }, key }, bytes, mimeType := some mimeType })
  | .deleteBlob moduleId key => do
    bridgeKey key
    pure (.selectDeleted { owner := { kind := .blob, moduleId }, key })

structure State (Hash : Type) where
  disk : Disk Hash
  /-- The calls in progress. -/
  calls : AList (fun _ : Nat => Stage Hash)
  /-- What was stored last under each key, as the transactions came. -/
  stored : Place → Option Bytes

inductive Action where
  | start (id : Nat) (call : Call)
  | advance (id : Nat)

def Stage.remember (d : Disk Hash) (stored : Place → Option Bytes) :
    Stage Hash → Place → Option Bytes
  | .upsert w _ =>
    match w.fits d.rows with
    | .ok _ => Function.update stored w.place (some w.bytes)
    | .error _ => stored
  | .deleteSelected place _ => Function.update stored place none
  | .deleteInTransaction place => Function.update stored place none
  | _ => stored

def setCall (calls : AList (fun _ : Nat => Stage Hash)) (id : Nat) :
    Next Hash → AList (fun _ : Nat => Stage Hash)
  | .goesOn stage => calls.insert id stage
  | .finished _ => calls.erase id

def act (s : State Hash) : Action → Option (State Hash)
  | .start id call =>
    match s.calls.lookup id, (call.start : Except Message (Stage Hash)) with
    | none, .ok stage => some { s with calls := s.calls.insert id stage }
    | none, .error _ => some s
    | some _, _ => none
  | .advance id =>
    (s.calls.lookup id).map (fun stage =>
      let (disk, next) := stage.step sha256 s.disk
      { disk, calls := setCall s.calls id next, stored := stage.remember s.disk s.stored })

def State.empty : State Hash where
  disk := { rows := [], files := fun _ => none }
  calls := ∅
  stored := fun _ => none

end Steps

end CustomModules.Content
