import KKTerm.Ftp.Download

/-!
# SFTP downloads

A path of the server is downloaded below a target in a local directory. What the server answers,
when the transfer is canceled or a request times out, and what the local file system answers are
functions of the number of the request, so that all of them may change in any way.
-/

namespace Sftp

open Effects Paths Text

inductive SftpOverwriteBehavior where
  | fail
  | overwrite
  deriving DecidableEq

inductive FileType where
  | dir
  | file
  | symlink
  | other
  deriving DecidableEq

structure Metadata where
  fileType : FileType
  size : Option Nat

/-- A call that changes the local file system. -/
inductive Change where
  | createDir (path : Path)
  | openFile (path : Path) (behavior : SftpOverwriteBehavior)
  | writeAll (path : Path) (size : Nat)
  | flush (path : Path)
  | removeFile (path : Path)
  deriving DecidableEq

def Change.path : Change → Path
  | .createDir path => path
  | .openFile path _ => path
  | .writeAll path _ => path
  | .flush path => path
  | .removeFile path => path

inductive Stop where
  | failed (message : List Char)
  | outOfFuel

/-- The platform, the server and the local file system. -/
structure World where
  platform : Platform
  /-- The current directory of a drive. -/
  current : Char → Path
  lowercase : List Char → List Char
  /-- Where the text of a path leads, or the default directory. -/
  canonicalize : Option (List Char) → Except (List Char) Path
  displayLocalPath : Path → List Char
  cancelled : Nat → Bool
  timedOut : Nat → Bool
  metadata : Nat → List Char → Except (List Char) Metadata
  readDir : Nat → List Char → Except (List Char) (List (List Char))
  openRemote : Nat → List Char → Except (List Char) Unit
  readRemote : Nat → Except (List Char) Nat
  shutdown : Nat → Except (List Char) Unit
  pathExists : Nat → Path → Bool
  isDir : Nat → Path → Bool
  change : Nat → Change → Except (List Char) Unit

structure TransferSummary where
  name : List Char
  files : Nat
  folders : Nat
  bytes : Nat

/-- The number of the next request, the calls that were made to change the local file system,
the summary and the progress. -/
structure State where
  tick : Nat
  changes : List Change
  summary : TransferSummary
  transferredBytes : Nat

abbrev Transfer := Action State Stop

def normalizePath (path : List Char) : List Char :=
  if trim path = [] then ['.'] else trim path

def joinRemotePath (basePath childName : List Char) : List Char :=
  let basePath := normalizePath basePath
  if basePath = ['.'] then childName
  else if basePath.getLast? = some '/' then basePath ++ childName
  else basePath ++ '/' :: childName

def isDots (name : List Char) : Bool :=
  name = ['.'] || name = ['.', '.']

def remotePathName (path : List Char) : Except (List Char) (List Char) :=
  let last := (split '/' ((normalizePath path).rdropWhile (fun c => c = '/'))).getLast?
  match (last.map trim).filter (fun name => !name.isEmpty && !isDots name) with
  | some name => .ok name
  | none => .error "remote source must have a file or folder name".toList

/-- Where `directory.join(name)` leads. -/
def World.join (w : World) (directory : Path) (name : List Char) : Path :=
  match w.platform with
  | .windows => Ftp.joinWindows w.current directory name
  | _ => Ftp.joinUnix directory name

section Steps
variable (w : World)

def fail {α : Type} (message : List Char) : Transfer α :=
  throw (.failed message)

def orFail {α : Type} (context : List Char) : Except (List Char) α → Transfer α
  | .ok a => pure a
  | .error error => fail (context ++ error)

def request : Transfer Nat :=
  step (fun s => (.ok s.tick, { s with tick := s.tick + 1 }))

def sessionInvalidated : List Char :=
  "[KKTERM_SFTP_SESSION_INVALIDATED]".toList

def transferCanceled : List Char :=
  sessionInvalidated ++ "transfer canceled".toList

def isSessionInvalidatingTransferError (error : List Char) : Bool :=
  sessionInvalidated.isPrefixOf error

def sftpTimeoutMessage (operation : String) : List Char :=
  "timed out while ".toList ++ operation.toList ++ " after 60 seconds".toList

/-- A request to the server, unless the transfer is canceled or the request times out. -/
def withSftpTransferIoTimeout {α : Type} (operation : String) (x : Transfer α) : Transfer α := do
  let now ← request
  if w.cancelled now then fail transferCanceled
  else if w.timedOut now then fail (sessionInvalidated ++ sftpTimeoutMessage operation)
  else x

/-- After a failure the remote file is closed, if the session is still used; how that ends does not
matter. -/
def closeRemote (error : List Char) : Transfer Unit :=
  if isSessionInvalidatingTransferError error then pure ()
  else request >>= fun _ => pure ()

def checkCancelled : Transfer Unit := do
  let now ← request
  if w.cancelled now then fail transferCanceled else pure ()

def inspect (context : String) (remotePath : List Char) : Transfer Metadata := do
  let now ← request
  orFail context.toList (w.metadata now remotePath)

/-- The names in a folder of the server, without the folder itself and its parent. -/
def readNames (context : String) (remotePath : List Char) : Transfer (List (List Char)) := do
  let now ← request
  let names ← orFail context.toList (w.readDir now remotePath)
  pure (names.filter (fun name => !isDots name))

def openRemoteFile (remotePath : List Char) : Transfer Unit := do
  let now ← request
  orFail "failed to download remote file: ".toList (w.openRemote now remotePath)

def readChunk : Transfer Nat := do
  let now ← request
  orFail "failed to download remote file: ".toList (w.readRemote now)

def finishRemote : Transfer Unit := do
  let now ← request
  orFail "failed to finish remote download: ".toList (w.shutdown now)

/-- A call that changes the local file system, whether it is carried out or not. -/
def apply (context : String) (change : Change) : Transfer Unit := do
  let now ← request
  step (fun s => (.ok (), { s with changes := s.changes ++ [change] }))
  orFail context.toList (w.change now change)

def localExists (path : Path) : Transfer Bool := do
  let now ← request
  pure (w.pathExists now path)

def localIsDir (path : Path) : Transfer Bool := do
  let now ← request
  pure (w.isDir now path)

def ensureLocalMissing (path : Path) : Transfer Unit := do
  if ← localExists w path then
    fail ("local destination already exists: ".toList ++ w.displayLocalPath path)
  else pure ()

def createLocalDir (path : Path) : Transfer Unit :=
  apply w "failed to create local folder: " (.createDir path)

def useLocalDir (path : Path) : Transfer Unit := do
  if ← localIsDir w path then pure ()
  else fail ("local destination is not a folder: ".toList ++ w.displayLocalPath path)

def mergeLocalDir (path : Path) : Transfer Unit := do
  if ← localExists w path then useLocalDir w path else createLocalDir w path

def prepareLocalDownloadDirectory (path : Path) : SftpOverwriteBehavior → Transfer Unit
  | .fail => do
    ensureLocalMissing w path
    createLocalDir w path
  | .overwrite => mergeLocalDir w path

def prepareLocalDownloadFile (path : Path) : SftpOverwriteBehavior → Transfer Bool
  | .fail => do
    ensureLocalMissing w path
    pure false
  | .overwrite => do
    if ← localIsDir w path then
      fail ("local destination is a folder: ".toList ++ w.displayLocalPath path)
    else localExists w path

def count (f : TransferSummary → TransferSummary) : Transfer Unit :=
  step (fun s => (.ok (), { s with summary := f s.summary }))

def addBytes (size : Nat) : Transfer Unit :=
  step (fun s => (.ok (), { s with
    summary := { s.summary with bytes := s.summary.bytes + size }
    transferredBytes := min (s.transferredBytes + size) 18446744073709551615 }))

def sumSizes (size : List Char → Transfer Nat) : List (List Char) → Transfer Nat
  | [] => pure 0
  | name :: rest => do
    let first ← size name
    let more ← sumSizes size rest
    pure ((first + more) % 18446744073709551616)

def remoteTransferSize : Nat → List Char → Transfer Nat
  | 0, _ => throw .outOfFuel
  | fuel + 1, path => do
    let metadata ← inspect w "failed to inspect remote transfer size: " path
    match metadata.fileType with
    | .file => pure (metadata.size.getD 0)
    | .dir => do
      let names ← readNames w "failed to inspect remote folder: " path
      sumSizes (fun name => remoteTransferSize fuel (joinRemotePath path name)) names
    | _ => pure 0

/-- One turn of the loop: whether it goes on. -/
def copyChunk (localPath : Path) : Transfer Bool := do
  checkCancelled w
  let size ← withSftpTransferIoTimeout w "downloading remote file chunk" (readChunk w)
  if size = 0 then pure false
  else do
    apply w "failed to write local file: " (.writeAll localPath size)
    addBytes size
    pure true

def copyChunks (localPath : Path) : Nat → Transfer Unit
  | 0 => throw .outOfFuel
  | fuel + 1 => do
    let goesOn ← copyChunk w localPath
    if goesOn then copyChunks localPath fuel else pure ()

def downloadFileChunks (fuel : Nat) (localPath : Path) (behavior : SftpOverwriteBehavior) :
    Transfer Unit := do
  apply w "failed to create local file: " (.openFile localPath behavior)
  copyChunks w localPath fuel
  apply w "failed to finish local download: " (.flush localPath)
  withSftpTransferIoTimeout w "finishing remote download" (finishRemote w)

def removeNew (localPath : Path) (targetExisted : Bool) : Transfer Unit :=
  if targetExisted then pure ()
  else tryCatch (apply w "" (.removeFile localPath)) (fun _ => pure ())

/-- After a failure a file that was not there is removed. -/
def cleanUp (localPath : Path) (targetExisted : Bool) : Stop → Transfer Unit
  | .outOfFuel => throw .outOfFuel
  | .failed error => do
    closeRemote error
    removeNew w localPath targetExisted
    fail error

def downloadFile (fuel : Nat) (remotePath : List Char) (localPath : Path)
    (behavior : SftpOverwriteBehavior) : Transfer Unit := do
  let targetExisted ← prepareLocalDownloadFile w localPath behavior
  withSftpTransferIoTimeout w "opening remote download file" (openRemoteFile w remotePath)
  tryCatch (downloadFileChunks w fuel localPath behavior) (cleanUp w localPath targetExisted)
  count (fun summary => { summary with files := summary.files + 1 })

def byLowercase (names : List (List Char)) : List (List Char) :=
  names.insertionSort (fun a b => precedes (w.lowercase b) (w.lowercase a) = false)

def downloadFolder (visit : List Char → Path → Transfer Unit) (remotePath : List Char)
    (localPath : Path) (behavior : SftpOverwriteBehavior) : Transfer Unit := do
  prepareLocalDownloadDirectory w localPath behavior
  count (fun summary => { summary with folders := summary.folders + 1 })
  let entries ← withSftpTransferIoTimeout w "reading remote download folder"
    (readNames w "failed to read remote folder: " remotePath)
  forM (byLowercase w entries) (fun childName =>
    visit (joinRemotePath remotePath childName) (w.join localPath childName))

def downloadRemoteEntry (behavior : SftpOverwriteBehavior) :
    Nat → List Char → Path → Transfer Unit
  | 0, _, _ => throw .outOfFuel
  | fuel + 1, remotePath, localPath => do
    checkCancelled w
    let metadata ← withSftpTransferIoTimeout w "inspecting remote download source"
      (inspect w "failed to inspect remote source: " remotePath)
    match metadata.fileType with
    | .dir => downloadFolder w (downloadRemoteEntry behavior fuel) remotePath localPath behavior
    | .file => downloadFile w fuel remotePath localPath behavior
    | _ => fail "only remote files and folders can be downloaded".toList

/-- The path that the user chose, unless it is blank. -/
def chosenPath (path : List Char) : Option (List Char) :=
  (some (trim path)).filter (fun path => !path.isEmpty)

def resolveLocalDirectory (path : List Char) : Transfer Path := do
  let directory ← orFail "failed to resolve local directory: ".toList
    (w.canonicalize (chosenPath path))
  if ← localIsDir w directory then pure directory
  else fail "local path is not a directory".toList

structure SftpTransferResult where
  name : List Char
  files : Nat
  folders : Nat
  bytes : Nat

def TransferSummary.intoResult (summary : TransferSummary) : SftpTransferResult :=
  ⟨summary.name, summary.files, summary.folders, summary.bytes⟩

/-- The name of the download and the place where it goes. -/
def localTarget (remotePath localDirectory : List Char) : Transfer (List Char × Path) := do
  let directory ← resolveLocalDirectory w localDirectory
  let name ← orFail [] (remotePathName remotePath)
  pure (name, w.join directory name)

def downloadTo (behavior : SftpOverwriteBehavior) (fuel : Nat) (remotePath name : List Char)
    (target : Path) : Transfer SftpTransferResult := do
  let _ ← withSftpTransferIoTimeout w "calculating remote transfer size"
    (remoteTransferSize w fuel remotePath)
  step (fun s => (.ok (), { s with summary := ⟨name, 0, 0, 0⟩, transferredBytes := 0 }))
  downloadRemoteEntry w behavior fuel remotePath target
  step (fun s => (.ok s.summary.intoResult, s))

def downloadPath (behavior : SftpOverwriteBehavior) (fuel : Nat)
    (remotePath localDirectory : List Char) : Transfer SftpTransferResult := do
  let (name, target) ← localTarget w (normalizePath remotePath) localDirectory
  downloadTo w behavior fuel (normalizePath remotePath) name target

end Steps

/-- Before a download nothing was changed. -/
def State.initial : State :=
  ⟨0, [], ⟨[], 0, 0, 0⟩, 0⟩

end Sftp
