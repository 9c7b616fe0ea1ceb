import KKTerm.Library.Text

/-!
# Paths that a cleanup must not touch

Paths are texts, compared without regard to the case of ASCII letters and to the kind of
the separators. The protected places are below the user's profile and below the folders of
synchronised drives; a few names are protected wherever they occur.
-/

namespace SystemCleaner

abbrev Path := List Char

/-- The variables of the process, by name. -/
abbrev Environment := List Char → Option Path

def isSeparator (c : Char) : Bool :=
  c = '\\' || c = '/'

def backslashes (t : List Char) : List Char :=
  t.map (fun c => if c = '/' then '\\' else c)

def normalize (path : Path) : List Char :=
  Text.asciiLower ((backslashes path).rdropWhile (fun c => c = '\\'))

def pathWithin (path parent : Path) : Bool :=
  let path := normalize path
  let parent := normalize parent
  path == parent || (parent ++ ['\\']).isPrefixOf path

/-- The names of a path. The name of a drive, or of a server with its share, is one. -/
def components (path : Path) : List (List Char) :=
  let names := (path.splitOnP isSeparator).filter (fun name => !name.isEmpty && name != ['.'])
  match (path.take 2).all isSeparator && path.length > 2, names with
  | true, server :: share :: rest => ("\\\\".toList ++ server ++ '\\' :: share) :: rest
  | _, _ => names

/-- The last name, unless the path ends by climbing. -/
def fileName (path : Path) : Option (List Char) :=
  (components path).getLast?.filter (fun name => name != "..".toList)

def join (parent : Path) (name : List Char) : Path :=
  if (parent.getLast?.map isSeparator).getD true then parent ++ name else parent ++ '\\' :: name

def envValue (environment : Environment) (name : List Char) : Option Path :=
  let upper := name.map Char.toUpper
  if upper = "LOCALAPPDATA".toList then environment "LOCALAPPDATA".toList
  else if upper = "APPDATA".toList then environment "APPDATA".toList
  else if upper = "TEMP".toList ∨ upper = "TMP".toList then environment "TEMP".toList
  else if upper = "USERPROFILE".toList then environment "USERPROFILE".toList
  else if upper = "WINDIR".toList ∨ upper = "SYSTEMROOT".toList then environment "WINDIR".toList
  else if upper = "PROGRAMDATA".toList then environment "PROGRAMDATA".toList
  else none

def profileFolders : List (List Char) :=
  ["Desktop".toList, "Documents".toList, "Downloads".toList, "Favorites".toList, "Music".toList,
    "Pictures".toList, "Saved Games".toList, "Videos".toList, ".ssh".toList, ".gnupg".toList,
    ".aws".toList, ".azure".toList, ".kube".toList, ".config/gcloud".toList]

def driveVariables : List (List Char) :=
  ["OneDrive".toList, "OneDriveConsumer".toList, "OneDriveCommercial".toList, "Dropbox".toList]

def protectedRoots (environment : Environment) : List Path :=
  ((envValue environment "USERPROFILE".toList).toList.flatMap
    (fun profile => profileFolders.map (join profile))) ++
  driveVariables.filterMap environment

def protectedComponents : List (List Char) :=
  [".git".toList, ".svn".toList, ".hg".toList, ".ssh".toList, ".gnupg".toList, ".aws".toList,
    ".azure".toList, ".kube".toList, "extensions".toList, "sessions".toList,
    "session storage".toList, "indexeddb".toList, "local storage".toList]

def protectedFiles : List (List Char) :=
  [".env".toList, ".git-credentials".toList, "bookmarks".toList, "cookies".toList,
    "history".toList, "login data".toList, "logins.json".toList, "key4.db".toList,
    "places.sqlite".toList, "web data".toList]

/-- Whether a name on the path is protected wherever it occurs. -/
def hasProtectedName (path : Path) : Bool :=
  (components path).any (fun name => protectedComponents.contains (Text.asciiLower name)) ||
    (fileName path).any (fun name => protectedFiles.contains (Text.asciiLower name))

def isProtected (environment : Environment) (path : Path) : Bool :=
  (protectedRoots environment).any (pathWithin path) || hasProtectedName path

end SystemCleaner

/-!
# Executing a cleanup plan

The items of a plan that was shown are looked at again, one after the other, and deleted
when nothing about them has changed. What the file system answers may differ from item to
item, since other programs are at work.
-/

namespace SystemCleaner

def u64Max : Nat := 0xffffffffffffffff

def saturatingAdd (a b : Nat) : Nat :=
  min (a + b) u64Max

structure CleanupPlanItem where
  recipeId : List Char
  path : Path
  bytes : Nat
  modifiedUnixMs : Nat
  fileId : Nat
  deriving DecidableEq

structure CachedPlanItem where
  shown : CleanupPlanItem
  targetRoot : Path
  deriving DecidableEq

structure CleanupPlan where
  token : List Char
  createdAt : List Char
  totalBytes : Nat
  excludedItems : Nat
  items : List CleanupPlanItem
  recipeVersions : List (List Char × Nat)
  blockedProcesses : List (List Char)
  deriving DecidableEq

structure CachedPlan where
  shown : CleanupPlan
  items : List CachedPlanItem
  recipeProcesses : List (List Char × List (List Char))
  deriving DecidableEq

structure CleanupSkip where
  path : Path
  reason : List Char
  deriving DecidableEq

structure CleanupResult where
  runId : List Char
  freedBytes : Nat
  deletedItems : Nat
  skipped : List CleanupSkip
  cancelled : Bool
  deriving DecidableEq

structure Metadata where
  isDir : Bool
  isFile : Bool
  isReparse : Bool
  len : Nat
  lastWriteTime : Nat
  deriving DecidableEq

/-- The last change, in milliseconds since the epoch. -/
def Metadata.modifiedMs (metadata : Metadata) : Nat :=
  (metadata.lastWriteTime - 116444736000000000) / 10000

inductive ErrorKind where
  | notFound
  | permissionDenied
  | other
  deriving DecidableEq

/-- What the file system answers at one moment. -/
structure FileSystem where
  symlinkMetadata : Path → Except ErrorKind Metadata
  canonicalize : Path → Option Path
  fileIdentity : Path → Nat
  readDir : Path → Option (List (List Char))

def validatePlanItem (environment : Environment) (fs : FileSystem) (item : CachedPlanItem)
    (keepPaths : List Path) : Except (List Char) Metadata :=
  let path := item.shown.path
  if isProtected environment path || keepPaths.any (pathWithin path) then
    .error "excluded".toList
  else
    match fs.symlinkMetadata path with
    | .error kind => .error (if kind = .notFound then "missing".toList else "locked".toList)
    | .ok metadata =>
      if !metadata.isFile || metadata.isReparse then .error "changed".toList
      else
        match fs.canonicalize path with
        | none => .error "changed".toList
        | some canonical =>
          if !pathWithin canonical item.targetRoot || metadata.len != item.shown.bytes ||
              metadata.modifiedMs / 1000 != item.shown.modifiedUnixMs / 1000 ||
              (item.shown.fileId != 0 && fs.fileIdentity path != item.shown.fileId) then
            .error "changed".toList
          else .ok metadata

/-- The counters of a run. `removed` is for the proofs only: the items whose files the run
deleted, in order, with what the file system answered then. -/
structure Tally where
  freedBytes : Nat
  deletedItems : Nat
  skipped : List CleanupSkip
  cancelled : Bool
  removed : List (CachedPlanItem × FileSystem)

def Tally.start : Tally :=
  ⟨0, 0, [], false, []⟩

def Tally.skip (t : Tally) (item : CachedPlanItem) (reason : List Char) : Tally :=
  { t with skipped := t.skipped ++ [⟨item.shown.path, reason⟩] }

/-- An item when the flag is found set. -/
def cancelItem (item : CachedPlanItem) (t : Tally) : Tally :=
  { t with cancelled := true }.skip item "cancelled".toList

/-- What is met at an item: the answers of the file system, and of the deletion. -/
structure Moment where
  fs : FileSystem
  removal : Except ErrorKind Unit

/-- An item when the flag is found clear. -/
def cleanItem (environment : Environment) (blocked : List (List Char)) (m : Moment)
    (item : CachedPlanItem) (t : Tally) : Tally :=
  if blocked.contains item.shown.recipeId then t.skip item "applicationRunning".toList
  else
    match validatePlanItem environment m.fs item [] with
    | .error reason => t.skip item reason
    | .ok _ =>
      match m.removal with
      | .ok () =>
        { t with
          freedBytes := saturatingAdd t.freedBytes item.shown.bytes
          deletedItems := saturatingAdd t.deletedItems 1
          removed := t.removed ++ [(item, m.fs)] }
      | .error kind =>
        t.skip item (if kind = .permissionDenied then "locked".toList else "failed".toList)

/-- What a run has when its start-up is over. -/
structure Execution where
  plan : CachedPlan
  retry : Bool
  todo : List CachedPlanItem
  blocked : List (List Char)
  deriving DecidableEq

/-- Whether the retry filter lets an item through. -/
def selected (retryFilter : Option (List (List Char))) (item : CachedPlanItem) : Bool :=
  retryFilter.all (fun paths => paths.contains (normalize item.shown.path))

def planMaxAgeMinutes : Int := 30

/-- A call of the command, with the cached plan of its token, the seconds of the clock, the
moment a time stamp stands for, and the programs that run. -/
structure Call where
  cached : Option CachedPlan
  now : Int
  parse : List Char → Option Int
  running : List (List Char)
  retryPaths : Option (List Path)

/-- The start-up of a run, up to the reset of the flag. -/
def startUp (call : Call) : Except (List Char) Execution :=
  match call.cached with
  | none => .error "The cleanup preview expired. Preview the selection again.".toList
  | some plan =>
    match call.parse plan.shown.createdAt with
    | none => .error "The cleanup preview timestamp is invalid.".toList
    | some createdAt =>
      if call.now - createdAt > planMaxAgeMinutes * 60 then
        .error "The cleanup preview expired. Preview the selection again.".toList
      else
        .ok
          { plan
            retry := call.retryPaths.isSome
            todo := plan.items.filter (selected (call.retryPaths.map (List.map normalize)))
            blocked := (plan.recipeProcesses.filter (fun entry => entry.2.any
              (fun process => call.running.contains (Text.asciiLower process)))).map Prod.fst }

/-- The loop over the items, from the `k`-th one on. What the flag is and what the file system
answers depends on when an item's turn comes. -/
def runItems (environment : Environment) (blocked : List (List Char)) (flag : Nat → Bool)
    (meets : Nat → Moment) : Nat → List CachedPlanItem → Tally → Tally
  | _, [], t => t
  | k, item :: todo, t =>
    runItems environment blocked flag meets (k + 1) todo
      (if flag k then cancelItem item t else cleanItem environment blocked (meets k) item t)

structure HistoryRecord where
  origin : List Char
  status : List Char
  recipeVersions : List (List Char × Nat)
  plannedBytes : Nat
  freedBytes : Nat
  deletedItems : Nat
  skippedItems : Nat
  details : List CleanupSkip

def historyRecord (e : Execution) (t : Tally) : HistoryRecord :=
  { origin := if e.retry then "retry".toList else "manual".toList
    status := if t.cancelled then "cancelled".toList
      else if t.skipped.isEmpty then "completed".toList else "partial".toList
    recipeVersions := e.plan.shown.recipeVersions
    plannedBytes := e.plan.shown.totalBytes
    freedBytes := t.freedBytes
    deletedItems := t.deletedItems
    skippedItems := t.skipped.length
    details := t.skipped }

/-- The end of a run: the history is written, then the counters are returned. -/
def finish (record : HistoryRecord → Except (List Char) Unit) (runId : List Char) (e : Execution)
    (t : Tally) : Except (List Char) CleanupResult :=
  match record (historyRecord e t) with
  | .error error => .error error
  | .ok () => .ok ⟨runId, t.freedBytes, t.deletedItems, t.skipped, t.cancelled⟩

lemma finish_ok {record : HistoryRecord → Except (List Char) Unit} {runId : List Char}
    {e : Execution} {t : Tally} {result : CleanupResult}
    (h : finish record runId e t = .ok result) :
    result = ⟨runId, t.freedBytes, t.deletedItems, t.skipped, t.cancelled⟩ := by
  unfold finish at h
  split at h
  · cases h
  · exact (Except.ok.inj h).symm

/-- One call of the command from its start to its end. -/
def executePlan (environment : Environment) (call : Call) (flag : Nat → Bool)
    (meets : Nat → Moment) (record : HistoryRecord → Except (List Char) Unit)
    (runId : List Char) : Except (List Char) CleanupResult :=
  match startUp call with
  | .error error => .error error
  | .ok e => finish record runId e (runItems environment e.blocked flag meets 0 e.todo Tally.start)

end SystemCleaner
