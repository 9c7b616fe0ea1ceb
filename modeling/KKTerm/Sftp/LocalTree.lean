import KKTerm.Library.FileCalls
import KKTerm.Sftp.Download

/-!
# SFTP downloads into a tree

The local side of a download on a tree of directories, files and links. Before every local
call other programs may have created entries, and every local call may fail. An open file
belongs to its place, which no other program takes away. What the download has created, and
what of it is not finished, is written down beside the tree, and so is every call that changes
the tree.
-/

namespace Sftp.OnTree

open Effects Paths FileTree

/-- The server and the platform, and what befalls the local calls by their numbers. -/
structure Surroundings where
  server : World
  /-- How many links a path may lead through. -/
  links : Nat
  describe : Failure → List Char
  /-- The entries that other programs have created since the last local call. -/
  others : Nat → List (Path × Entry)
  fault : Nat → Option (List Char)
  /-- The bytes of a chunk of the server. -/
  buffer : Nat → List UInt8
  /-- How many bytes were written before a write failed. -/
  written : Nat → Nat

/-- A call that changes the tree: what belonged to the download before it, whether it was made to
fail, and the trees before and after it. -/
structure LocalCall where
  change : Change
  own : List Path
  unfinished : List Path
  fault : Option (List Char)
  before : Tree
  after : Tree

structure Local where
  base : State
  tree : Tree
  own : List Path
  unfinished : List Path
  calls : List LocalCall

abbrev LocalTransfer := Action Local Stop

/-- A step that does not touch the tree. -/
def remote {α : Type} (x : Transfer α) : LocalTransfer α :=
  step (fun s => ((after x s.base).1, { s with base := (after x s.base).2 }))

/-- Another program creates an entry where there is none. -/
def createEntry (t : Tree) (new : Path × Entry) : Tree :=
  if entry t new.1 = none then t.insert new.1 new.2 else t

/-- The place of a path that is not taken, not even by a link. -/
def vacantPlace (t : Tree) (links : Nat) (path : Path) : Except Failure Path := do
  match ← locate t links path with
  | .found _ => .error .other
  | .vacant place => .ok place

def createDirAt (links : Nat) (path : Path) (s : Local) : Except Failure (Unit × Local) := do
  let place ← vacantPlace s.tree links path
  .ok ((), { s with tree := s.tree.insert place .dir, own := place :: s.own })

/-- A new file, or a file that is emptied. -/
def openAt (links : Nat) (path : Path) (s : Local) :
    SftpOverwriteBehavior → Except Failure (Path × Local)
  | .fail => do
    let place ← vacantPlace s.tree links path
    .ok (place, { s with
      tree := s.tree.insert place (.file []), own := place :: s.own
      unfinished := place :: s.unfinished })
  | .overwrite => do
    let place ← openTarget s.tree links path
    let emptied := { s with tree := s.tree.insert place (.file []) }
    if entry s.tree place = none then
      .ok (place, { emptied with
        own := place :: s.own, unfinished := place :: s.unfinished })
    else .ok (place, emptied)

def writeAt (place : Path) (bytes : List UInt8) (s : Local) : Local :=
  { s with tree := s.tree.insert place (.file (content s.tree place ++ bytes)) }

def removeAt (links : Nat) (path : Path) (s : Local) : Except Failure (Unit × Local) := do
  match ← locate s.tree links path with
  | .vacant _ => .error .notFound
  | .found place =>
    if entry s.tree place = some .dir then .error .other
    else .ok ((), { s with
      tree := s.tree.erase place, own := s.own.filter (· ≠ place)
      unfinished := s.unfinished.filter (· ≠ place) })

section Steps
variable (d : Surroundings)

/-- The number of this call. Other programs go first. -/
def localRequest : LocalTransfer Nat :=
  step (fun s => (.ok s.base.tick, { s with
    base := { s.base with tick := s.base.tick + 1 }
    tree := (d.others s.base.tick).foldl createEntry s.tree }))

/-- A call that changes the tree, or leaves a part when it is made to fail. -/
def perform {α : Type} (context : String) (change : Change)
    (call : Local → Except Failure (α × Local)) (partly : Nat → Local → Local) :
    LocalTransfer α := do
  let now ← localRequest d
  step (fun s =>
    let done : Except (List Char) α × Local :=
      match d.fault now with
      | some error => (.error error, partly now s)
      | none =>
        match call s with
        | .ok (a, s') => (.ok a, s')
        | .error e => (.error (d.describe e), s)
    (done.1.mapError (fun error => .failed (context.toList ++ error)), { done.2 with
      calls := s.calls ++ [⟨change, s.own, s.unfinished, d.fault now, s.tree, done.2.tree⟩] }))

def untouched (_ : Nat) (s : Local) : Local :=
  s

/-- Whether the path leads to an entry; a call that fails says no. -/
def localExists (path : Path) : LocalTransfer Bool := do
  let now ← localRequest d
  step (fun s => (.ok ((d.fault now).isNone && pathExists s.tree d.links path), s))

def localIsDir (path : Path) : LocalTransfer Bool := do
  let now ← localRequest d
  step (fun s => (.ok ((d.fault now).isNone && isDir s.tree d.links path), s))

def refuse {α : Type} (message : List Char) : LocalTransfer α :=
  throw (.failed message)

def ensureLocalMissing (path : Path) : LocalTransfer Unit := do
  if ← localExists d path then
    refuse ("local destination already exists: ".toList ++ d.server.displayLocalPath path)
  else pure ()

def createLocalDir (path : Path) : LocalTransfer Unit :=
  perform d "failed to create local folder: " (.createDir path) (createDirAt d.links path) untouched

def useLocalDir (path : Path) : LocalTransfer Unit := do
  if ← localIsDir d path then pure ()
  else refuse ("local destination is not a folder: ".toList ++ d.server.displayLocalPath path)

def mergeLocalDir (path : Path) : LocalTransfer Unit := do
  if ← localExists d path then useLocalDir d path else createLocalDir d path

def prepareLocalDownloadDirectory (path : Path) : SftpOverwriteBehavior → LocalTransfer Unit
  | .fail => do
    ensureLocalMissing d path
    createLocalDir d path
  | .overwrite => mergeLocalDir d path

def prepareLocalDownloadFile (path : Path) : SftpOverwriteBehavior → LocalTransfer Bool
  | .fail => do
    ensureLocalMissing d path
    pure false
  | .overwrite => do
    if ← localIsDir d path then
      refuse ("local destination is a folder: ".toList ++ d.server.displayLocalPath path)
    else localExists d path

def openLocalFile (localPath : Path) (behavior : SftpOverwriteBehavior) : LocalTransfer Path :=
  perform d "failed to create local file: " (.openFile localPath behavior)
    (fun s => openAt d.links localPath s behavior) untouched

def chunk (size : Nat) : LocalTransfer (List UInt8) :=
  step (fun s => (.ok ((d.buffer s.base.tick).take size), s))

def writeChunk (localPath place : Path) (bytes : List UInt8) : LocalTransfer Unit :=
  perform d "failed to write local file: " (.writeAll localPath bytes.length)
    (fun s => .ok ((), writeAt place bytes s))
    (fun now => writeAt place (bytes.take (d.written now)))

/-- One turn of the loop: whether it goes on. -/
def copyChunk (localPath place : Path) : LocalTransfer Bool := do
  remote (checkCancelled d.server)
  let size ← remote
    (withSftpTransferIoTimeout d.server "downloading remote file chunk" (readChunk d.server))
  if size = 0 then pure false
  else do
    let bytes ← chunk d size
    writeChunk d localPath place bytes
    remote (addBytes size)
    pure true

def copyChunks (localPath place : Path) : Nat → LocalTransfer Unit
  | 0 => throw .outOfFuel
  | fuel + 1 => do
    let goesOn ← copyChunk d localPath place
    if goesOn then copyChunks localPath place fuel else pure ()

def flushFile (localPath : Path) : LocalTransfer Unit :=
  perform d "failed to finish local download: " (.flush localPath) (fun s => .ok ((), s)) untouched

/-- The file is no longer one that was only begun. -/
def finished (place : Path) : LocalTransfer Unit :=
  step (fun s => (.ok (), { s with unfinished := s.unfinished.filter (· ≠ place) }))

def downloadFileChunks (fuel : Nat) (localPath : Path) (behavior : SftpOverwriteBehavior) :
    LocalTransfer Unit := do
  let place ← openLocalFile d localPath behavior
  copyChunks d localPath place fuel
  flushFile d localPath
  remote (withSftpTransferIoTimeout d.server "finishing remote download" (finishRemote d.server))
  finished place

def removeLocalFile (localPath : Path) : LocalTransfer Unit :=
  perform d "" (.removeFile localPath) (removeAt d.links localPath) untouched

def removeNew (localPath : Path) (targetExisted : Bool) : LocalTransfer Unit :=
  if targetExisted then pure ()
  else tryCatch (removeLocalFile d localPath) (fun _ => pure ())

/-- After a failure a file that was not there is removed. -/
def cleanUp (localPath : Path) (targetExisted : Bool) : Stop → LocalTransfer Unit
  | .outOfFuel => throw .outOfFuel
  | .failed error => do
    remote (closeRemote error)
    removeNew d localPath targetExisted
    refuse error

def downloadFile (fuel : Nat) (remotePath : List Char) (localPath : Path)
    (behavior : SftpOverwriteBehavior) : LocalTransfer Unit := do
  let targetExisted ← prepareLocalDownloadFile d localPath behavior
  remote (withSftpTransferIoTimeout d.server "opening remote download file"
    (openRemoteFile d.server remotePath))
  tryCatch (downloadFileChunks d fuel localPath behavior) (cleanUp d localPath targetExisted)
  remote (count (fun summary => { summary with files := summary.files + 1 }))

def downloadFolder (visit : List Char → Path → LocalTransfer Unit) (remotePath : List Char)
    (localPath : Path) (behavior : SftpOverwriteBehavior) : LocalTransfer Unit := do
  prepareLocalDownloadDirectory d localPath behavior
  remote (count (fun summary => { summary with folders := summary.folders + 1 }))
  let entries ← remote (withSftpTransferIoTimeout d.server "reading remote download folder"
    (readNames d.server "failed to read remote folder: " remotePath))
  forM (byLowercase d.server entries) (fun childName =>
    visit (joinRemotePath remotePath childName) (d.server.join localPath childName))

def downloadRemoteEntry (behavior : SftpOverwriteBehavior) :
    Nat → List Char → Path → LocalTransfer Unit
  | 0, _, _ => throw .outOfFuel
  | fuel + 1, remotePath, localPath => do
    remote (checkCancelled d.server)
    let metadata ← remote (withSftpTransferIoTimeout d.server "inspecting remote download source"
      (inspect d.server "failed to inspect remote source: " remotePath))
    match metadata.fileType with
    | .dir => downloadFolder d (downloadRemoteEntry behavior fuel) remotePath localPath behavior
    | .file => downloadFile d fuel remotePath localPath behavior
    | _ => refuse "only remote files and folders can be downloaded".toList

end Steps

/-- Before a download nothing belongs to it. -/
def Local.initial (tree : Tree) : Local :=
  ⟨State.initial, tree, [], [], []⟩

end Sftp.OnTree
