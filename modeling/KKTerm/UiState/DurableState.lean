import KKTerm.Library.KeyValue
import KKTerm.Library.Runs
import KKTerm.Library.Text

/-!
# Durable UI state in two tiers

Some values the user authors are kept twice: in the cache, `localStorage`, that is
read synchronously, and in a table of the database. A write goes to the cache at
once and to the database when its timer expires. Removals, prefix clears, the
reconciliation at startup and the reload after an import issue commands, which the
backend executes in issue order; what a list command found is delivered later.

A key is text without surrogates, and setting an item of the cache does not fail.
-/

namespace UiState

open KeyValue

/-- One tier: at most one value a key, in an order nothing depends on. -/
abbrev Entries := AList (fun _ : List Char => List Char)

def durableUiStatePrefixes : List (List Char) :=
  ["kkterm.quickCommandBar.".toList,
    "kkterm.quickCommands.".toList,
    "kkterm.quickCommandBundles.v1".toList,
    "kkterm.quickCommandBundleSelection.".toList,
    "kkterm.workspace.childConnections.v1".toList,
    "kkterm.dashboard.notes.".toList,
    "kkterm.dashboard.networkProfiles.v1".toList,
    "kkterm.fileBrowserFavorites.v1".toList,
    "kkterm.cliAccountLabels.v1".toList,
    "kkterm.installerLauncherRecentPaths.v1".toList,
    "kkterm.installerLauncherOptions.v1".toList,
    "kkterm.installerGuiLauncherPaths.v1".toList,
    "kkterm.itopsFreePlacement".toList,
    "kkterm.itopsRackFacing".toList,
    "kkterm.itopsRoomObjects".toList]

def isDurableKey (key : List Char) : Bool :=
  durableUiStatePrefixes.any (fun start => start.isPrefixOf key)

section Backend

/-- The call that a list command answers. -/
inductive Asker
  | hydrate
  | reload (start : List Char)
  deriving DecidableEq

/-- The prefix that the list command is given. -/
def Asker.start : Asker → List Char
  | .hydrate => []
  | .reload start => start

inductive Command
  | setDurableUiState (key value : List Char)
  | deleteDurableUiState (key : List Char)
  | deleteDurableUiStateByPrefix (start : List Char)
  | listDurableUiState (asker : Asker)
  deriving DecidableEq

structure Reply where
  asker : Asker
  records : Entries

def requiredField (value : List Char) : Option (List Char) :=
  let trimmed := Text.trim value
  if trimmed = [] then none else some trimmed

/-- A `LIKE` pattern of an escaped prefix; letters match without regard to ASCII case. -/
def matchesLike (start key : List Char) : Bool :=
  (Text.asciiLower start).isPrefixOf (Text.asciiLower key)

/-- The table after a command. A key that is refused leaves it as it was. -/
def Command.apply (database : Entries) : Command → Entries
  | .setDurableUiState key value =>
    match requiredField key with
    | some key => database.insert key value
    | none => database
  | .deleteDurableUiState key =>
    match requiredField key with
    | some key => database.erase key
    | none => database
  | .deleteDurableUiStateByPrefix start => eraseWhere (matchesLike start) database
  | .listDurableUiState _ => database

/-- What a command replies to a call that waits for it. -/
def Command.reply (database : Entries) : Command → List Reply
  | .listDurableUiState asker =>
    [⟨asker, eraseWhere (fun key => !matchesLike asker.start key) database⟩]
  | _ => []

end Backend

structure State where
  cache : Entries
  /-- The value that the timer of a key will write. -/
  pendingFlushes : Entries
  database : Entries
  queue : List Command
  replies : List Reply
  hydrated : Bool

namespace State

/-- The application starts with whatever the two tiers hold. -/
def start (cache database : Entries) : State where
  cache := cache
  pendingFlushes := ∅
  database := database
  queue := []
  replies := []
  hydrated := false

def issue (s : State) (commands : List Command) : State :=
  { s with queue := s.queue ++ commands }

def writeDurableUiState (s : State) (key value : List Char) : State :=
  { s with
    cache := s.cache.insert key value
    pendingFlushes := s.pendingFlushes.insert key value }

def flush (s : State) (key : List Char) : Option State :=
  (s.pendingFlushes.lookup key).map (fun value =>
    { s with pendingFlushes := s.pendingFlushes.erase key }.issue
      [.setDurableUiState key value])

def removeDurableUiState (s : State) (key : List Char) : State :=
  { s with
    cache := s.cache.erase key
    pendingFlushes := s.pendingFlushes.erase key }.issue [.deleteDurableUiState key]

/-- The cache loses the keys with the prefix, apart from the empty key. -/
def clearDurableUiStateByPrefix (s : State) (start : List Char) : State :=
  { s with
    cache := eraseWhere (fun key => !key.isEmpty && start.isPrefixOf key) s.cache
    pendingFlushes := eraseWhere start.isPrefixOf s.pendingFlushes }.issue
      [.deleteDurableUiStateByPrefix start]

def reloadDurableUiStatePrefix (s : State) (start : List Char) : State :=
  { s with
    cache := eraseWhere start.isPrefixOf s.cache
    pendingFlushes := eraseWhere start.isPrefixOf s.pendingFlushes }.issue
      [.listDurableUiState (.reload start)]

def hydrateDurableUiState (s : State) : State :=
  { s with hydrated := true }.issue [.listDurableUiState .hydrate]

/-- The rows of a snapshot whose key the cache lacks are pulled into it. -/
def pull (records cache : Entries) : Entries :=
  insertMissing isDurableKey cache records

/-- Each cached durable value that the snapshot does not have is pushed. -/
def push (records cache : Entries) : List Command :=
  (cache.entries.filter (fun row =>
    isDurableKey row.1 && records.lookup row.1 != some row.2)).map
      (fun row => .setDurableUiState row.1 row.2)

/-- The rest of a call that waited for its records. -/
def resume (s : State) (reply : Reply) : State :=
  match reply.asker with
  | .hydrate =>
    let cache := pull reply.records s.cache
    { s with cache := cache }.issue (push reply.records cache)
  | .reload start =>
    { s with cache := insertWhere start.isPrefixOf s.cache reply.records }

/-- The backend executes the command that was issued first. -/
def execute (s : State) : Option State :=
  match s.queue with
  | [] => none
  | command :: rest =>
    some { s with
      database := command.apply s.database
      queue := rest
      replies := s.replies ++ command.reply s.database }

def deliver (s : State) (i : Nat) : Option State :=
  s.replies[i]?.map (fun reply => { s with replies := s.replies.eraseIdx i }.resume reply)

end State

inductive Event
  | write (key value : List Char)
  | remove (key : List Char)
  | clear (start : List Char)
  | reload (start : List Char)
  | hydrate
  | timer (key : List Char)
  | execute
  | deliver (i : Nat)
  deriving DecidableEq

/-- Replies are delivered in any order; the startup reconciles once. -/
def step (s : State) : Event → Option State
  | .write key value => some (s.writeDurableUiState key value)
  | .remove key => some (s.removeDurableUiState key)
  | .clear start => some (s.clearDurableUiStateByPrefix start)
  | .reload start => some (s.reloadDurableUiStatePrefix start)
  | .hydrate => if s.hydrated then none else some s.hydrateDurableUiState
  | .timer key => s.flush key
  | .execute => s.execute
  | .deliver i => s.deliver i

/-- Nothing is pending: no timer, no command, no reply, and the startup is over. -/
structure State.Quiet (s : State) : Prop where
  hydrated : s.hydrated = true
  timers : s.pendingFlushes = ∅
  commands : s.queue = []
  answers : s.replies = []

instance decidableQuiet (s : State) : Decidable s.Quiet :=
  decidable_of_iff
    (s.hydrated = true ∧ s.pendingFlushes.entries = [] ∧ s.queue = [] ∧ s.replies = [])
    ⟨fun ⟨hydrated, timers, commands, answers⟩ =>
        ⟨hydrated, AList.ext timers, commands, answers⟩,
      fun ⟨hydrated, timers, commands, answers⟩ =>
        ⟨hydrated, congrArg AList.entries timers, commands, answers⟩⟩

def Event.Writes (key : List Char) : Event → Prop
  | .write k _ => k = key
  | _ => False

instance decidableWrites (key : List Char) : DecidablePred (Event.Writes key)
  | .write k _ => inferInstanceAs (Decidable (k = key))
  | .remove _ | .clear _ | .reload _ | .hydrate | .timer _ | .execute | .deliver _ =>
    inferInstanceAs (Decidable False)

/-- The user removes the key, alone or with every key that has a prefix. -/
def Event.Removes (key : List Char) : Event → Prop
  | .remove k => k = key
  | .clear start => start.isPrefixOf key
  | _ => False

/-- A command as a change to the row of one key. -/
def Command.row (key : List Char) (held : Option (List Char)) : Command → Option (List Char)
  | .setDurableUiState k value => if requiredField k = some key then some value else held
  | .deleteDurableUiState k => if requiredField k = some key then none else held
  | .deleteDurableUiStateByPrefix start => if matchesLike start key then none else held
  | .listDurableUiState _ => held

lemma Command.lookup_apply (database : Entries) (command : Command) (key : List Char) :
    (command.apply database).lookup key = command.row key (database.lookup key) := by
  cases command with
  | setDurableUiState k value =>
    rw [apply, row]
    cases requiredField k with
    | none => rfl
    | some k =>
      by_cases same : k = key
      · subst same
        rw [AList.lookup_insert, if_pos rfl]
      · rw [AList.lookup_insert_ne (Ne.symm same), if_neg (fun eq => same (Option.some.inj eq))]
  | deleteDurableUiState k =>
    rw [apply, row]
    cases requiredField k with
    | none => rfl
    | some k =>
      by_cases same : k = key
      · subst same
        rw [AList.lookup_erase, if_pos rfl]
      · rw [AList.lookup_erase_ne (Ne.symm same), if_neg (fun eq => same (Option.some.inj eq))]
  | deleteDurableUiStateByPrefix start => exact lookup_eraseWhere _ database key
  | listDurableUiState asker => rfl

/-- The row of a key once the commands are executed. -/
def rowAfter (key : List Char) (commands : List Command) (held : Option (List Char)) :
    Option (List Char) :=
  commands.foldl (fun held command => command.row key held) held

lemma rowAfter_append (key : List Char) (front back : List Command) (held : Option (List Char)) :
    rowAfter key (front ++ back) held = rowAfter key back (rowAfter key front held) :=
  List.foldl_append

/-- What a list command reports at a key. -/
def Asker.answer (asker : Asker) (key : List Char) (held : Option (List Char)) :
    Option (List Char) :=
  if matchesLike asker.start key then held else none

/-- What the queued list commands will report at a key. -/
def queuedAnswers (key : List Char) :
    List Command → Option (List Char) → List (Asker × Option (List Char))
  | [], _ => []
  | .listDurableUiState asker :: rest, held =>
    (asker, asker.answer key held) :: queuedAnswers key rest held
  | command :: rest, held => queuedAnswers key rest (command.row key held)

namespace State

/-- What the database will hold at a key once the timers and the commands are done. -/
def future (s : State) (key : List Char) : Option (List Char) :=
  (s.pendingFlushes.lookup key).or (rowAfter key s.queue (s.database.lookup key))

/-- What the calls that wait for records will be told at a key. -/
def answers (s : State) (key : List Char) : List (Asker × Option (List Char)) :=
  s.replies.map (fun reply => (reply.asker, reply.records.lookup key)) ++
    queuedAnswers key s.queue (s.database.lookup key)

end State

end UiState
