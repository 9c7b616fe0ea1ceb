import KKTerm.FlatJson.AtomicWrite
import KKTerm.Library.Fallible
import Mathlib.Data.List.Sort

/-!
# Assistant threads

Each thread is a file of its own, and an index file holds the summaries of all threads. Threads
of older versions are still rows of the database.
-/

namespace FlatJson

open Effects Text

structure AssistantChatThreadRecord where
  id : List Char
  title : List Char
  contextLabel : List Char
  messagesJson : List Char
  createdAt : List Char
  updatedAt : List Char
  deriving DecidableEq

structure AssistantChatThreadSummaryRecord where
  id : List Char
  title : List Char
  contextLabel : List Char
  preview : List Char
  createdAt : List Char
  updatedAt : List Char
  deriving DecidableEq

abbrev Thread := AssistantChatThreadRecord
abbrev Summary := AssistantChatThreadSummaryRecord

/-- The process with the places of its files, the digest of a thread's name, the formats, and
what is read from the messages of a thread. -/
structure Store (Bytes : Type) where
  world : World Bytes
  directory : List Char
  recordName : List Char → List Char
  /-- The digest is written in hexadecimal digits. -/
  recordName_hex : ∀ id, ∃ c rest, recordName id = c :: rest ∧ c ≠ '.' ∧ c ≠ 'i'
  threadCodec : Codec Bytes Thread
  indexCodec : Codec Bytes (List Summary)
  parseIsArray : List Char → Except (List Char) Bool
  lastContent : List Char → Option (List Char)
  extractLastContent : List Char → List Char

section Model
variable {Bytes : Type} (store : Store Bytes)

def assistantIndexPath : FilePath :=
  ⟨store.directory, "index.json".toList⟩

def assistantThreadPath (id : List Char) : FilePath :=
  ⟨store.directory, store.recordName id ++ ".json".toList⟩

def truncateChars (value : List Char) (limit : Nat) : List Char :=
  if value.length ≤ limit then value else value.take (limit - 3) ++ "...".toList

def shortPreview (content : List Char) : List Char :=
  truncateChars (List.intercalate [' '] (splitWhitespace content)) 64

def assistantSummary (record : Thread) : Summary :=
  { id := record.id
    title := record.title
    contextLabel := record.contextLabel
    preview := shortPreview ((store.lastContent record.messagesJson).getD [])
    createdAt := record.createdAt
    updatedAt := record.updatedAt }

def summaryOfRow (row : Thread) : Summary :=
  { id := row.id
    title := row.title
    contextLabel := row.contextLabel
    preview := shortPreview (store.extractLastContent row.messagesJson)
    createdAt := row.createdAt
    updatedAt := row.updatedAt }

def newerFirst (left right : Summary) : Prop :=
  ¬ (precedes left.updatedAt right.updatedAt = true ∨
    left.updatedAt = right.updatedAt ∧ precedes left.createdAt right.createdAt = true)

instance : DecidableRel newerFirst :=
  fun _ _ => inferInstanceAs (Decidable (¬ (_ ∨ _)))

/-- The later one of two updates comes first, whatever else they are. -/
def laterUpdateFirst (left right : Summary) : Prop :=
  ¬ precedes left.updatedAt right.updatedAt = true

instance : DecidableRel laterUpdateFirst :=
  fun _ _ => inferInstanceAs (Decidable (¬ _))

def keepNew (kept : List Summary) (summary : Summary) : List Summary :=
  if kept.any (fun other => other.id == summary.id) then kept else kept ++ [summary]

def listAssistantChatThreadSummaries (disk : Disk Bytes Thread) :
    Except (List Char) (List Summary) := do
  let fileSummaries ← readJsonOrDefault store.indexCodec [] disk.files (assistantIndexPath store)
  let summaries := (disk.rows.map (summaryOfRow store) ++ fileSummaries).insertionSort newerFirst
  .ok (summaries.foldl keepNew [])

def requiredField (field value : List Char) : Except (List Char) (List Char) :=
  if trim value = [] then .error (field ++ " is required".toList) else .ok (trim value)

def validateAssistantChatThread (request : Thread) : Except (List Char) Thread := do
  let id ← requiredField "assistant chat thread id".toList request.id
  let title ← requiredField "assistant chat title".toList request.title
  let contextLabel ← requiredField "assistant chat context".toList request.contextLabel
  let createdAt ← requiredField "assistant chat created time".toList request.createdAt
  let updatedAt ← requiredField "assistant chat updated time".toList request.updatedAt
  let messagesJson ← requiredField "assistant chat messages".toList request.messagesJson
  let isArray ← (store.parseIsArray messagesJson).mapError
    (fun error => "assistant chat messages must be valid JSON: ".toList ++ error)
  Fallible.reject (isArray = false) "assistant chat messages must be a JSON array".toList
  .ok { id, title, contextLabel, messagesJson, createdAt, updatedAt }

abbrev ThreadTask (Bytes : Type) := Task Bytes Thread

/-- Go on with a value, or fail. -/
def orFail {α : Type} : Except (List Char) α → ThreadTask Bytes α
  | .ok a => pure a
  | .error message => throw (.failed message)

def readIndex : ThreadTask Bytes (List Summary) := do
  let found ← look (fun s =>
    readJsonOrDefault store.indexCodec [] s.files (assistantIndexPath store))
  orFail found

def execute (change : List Thread → List Thread) : ThreadTask Bytes Unit :=
  call store.world [] (fun s => .ok { s with rows := change s.rows })

def writeThread (record : Thread) : ThreadTask Bytes Unit :=
  writeJsonAtomic store.world store.threadCodec (assistantThreadPath store record.id) record

def writeIndex (summaries : List Summary) : ThreadTask Bytes Unit :=
  writeJsonAtomic store.world store.indexCodec (assistantIndexPath store) summaries

def withSummary (summaries : List Summary) (record : Thread) : List Summary :=
  summaries.filter (fun summary => summary.id != record.id) ++ [assistantSummary store record]

def mergedIndex (summaries : List Summary) (records : List Thread) : List Summary :=
  (records.foldl (withSummary store) summaries).insertionSort newerFirst

def mergeAssistantThreadsLocked (records : List Thread) : ThreadTask Bytes Unit := do
  let summaries ← readIndex store
  records.forM (writeThread store)
  writeIndex store (mergedIndex store summaries records)

def replacedIndex (records : List Thread) : List Summary :=
  (records.map (assistantSummary store)).insertionSort laterUpdateFirst

/-- The files of the folder that no record keeps. -/
def staleNames (records : List Thread) (names : List (List Char)) : List (List Char) :=
  names.filter (fun name => name != "index.json".toList &&
    !(records.map (fun record => (assistantThreadPath store record.id).name)).contains name)

def removeStale (records : List Thread) : ThreadTask Bytes Unit := do
  let names ← look (fun s => store.world.readDir s.budget)
  (staleNames store records names).forM (fun name =>
    removeFileIfExists store.world ⟨store.directory, name⟩)

def replaceAssistantThreadsLocked (records : List Thread) : ThreadTask Bytes Unit := do
  createDirAll store.world "failed to create Assistant history directory: ".toList
  records.forM (writeThread store)
  writeIndex store (replacedIndex store records)
  removeStale store records

/-- A thread that is still a row of the database stays one. -/
def saveThread (thread : Thread) (legacyExists : Bool) : ThreadTask Bytes Unit :=
  if legacyExists then
    execute store (List.map (fun row => if row.id = thread.id then thread else row))
  else mergeAssistantThreadsLocked store [thread]

def upsertAssistantChatThread (request : Thread) : ThreadTask Bytes Thread := do
  let thread ← orFail (validateAssistantChatThread store request)
  let legacyExists ← look (fun s => s.rows.any (fun row => row.id == thread.id))
  saveThread store thread legacyExists
  pure thread

def deleteAssistantChatThread (threadId : List Char) : ThreadTask Bytes Unit := do
  let threadId ← orFail (requiredField "assistant chat thread id".toList threadId)
  execute store (List.filter (fun row => row.id != threadId))
  let summaries ← readIndex store
  writeIndex store (summaries.filter (fun summary => summary.id != threadId))
  removeFileIfExists store.world (assistantThreadPath store threadId)

inductive Operation where
  | upsert (request : Thread)
  | delete (threadId : List Char)
  | merge (records : List Thread)
  | replace (records : List Thread)

def perform : Operation → ThreadTask Bytes Unit
  | .upsert request => do
    let _ ← upsertAssistantChatThread store request
  | .delete threadId => deleteAssistantChatThread store threadId
  | .merge records => mergeAssistantThreadsLocked store records
  | .replace records => replaceAssistantThreadsLocked store records

end Model

end FlatJson
