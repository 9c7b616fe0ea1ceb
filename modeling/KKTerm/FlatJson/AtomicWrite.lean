import KKTerm.Library.Effects
import KKTerm.Library.Text

/-!
# JSON files

A file is replaced by writing its new contents beside it, moving the old file aside and moving
the new one into its place. The process may die before any call to the file system; which call
fails otherwise is a function of the number of calls left.
-/

namespace FlatJson

open Effects

structure FilePath where
  parent : List Char
  name : List Char
  deriving DecidableEq

def FilePath.display (path : FilePath) : List Char :=
  path.parent ++ '/' :: path.name

abbrev Files (Bytes : Type) := FilePath → Option Bytes

def Files.set {Bytes : Type} (files : Files Bytes) (path : FilePath) (contents : Option Bytes) :
    Files Bytes :=
  fun q => if q = path then contents else files q

inductive Stop where
  | crash
  | failed (message : List Char)
  deriving DecidableEq

/-- The files, the rows of the database, and how many calls the process lives to see. -/
structure Disk (Bytes Row : Type) where
  files : Files Bytes
  rows : List Row
  budget : Nat

/-- The process, what a new file holds, and which calls fail. -/
structure World (Bytes : Type) where
  pid : List Char
  empty : Bytes
  failure : Nat → Option (List Char)
  /-- The names that a folder is found to have. -/
  readDir : Nat → List (List Char)

/-- Values of a type, as they stand in a file. -/
structure Codec (Bytes α : Type) where
  toBytes : α → Bytes
  fromSlice : Bytes → Except (List Char) α
  fromSlice_toBytes : ∀ a, fromSlice (toBytes a) = .ok a

section Calls
variable {Bytes Row α : Type} (w : World Bytes)

abbrev Task (Bytes Row : Type) := Action (Disk Bytes Row) Stop

/-- A call that changes something, unless the process dies first or the call fails. -/
def call (context : List Char) (change : Disk Bytes Row → Except (List Char) (Disk Bytes Row)) :
    Task Bytes Row Unit :=
  step (fun s =>
    match s.budget with
    | 0 => (.error .crash, s)
    | left + 1 =>
      match w.failure left with
      | some error => (.error (.failed (context ++ error)), { s with budget := left })
      | none =>
        match change { s with budget := left } with
        | .error error => (.error (.failed (context ++ error)), { s with budget := left })
        | .ok s' => (.ok (), s'))

def onFiles (change : Files Bytes → Except (List Char) (Files Bytes)) (s : Disk Bytes Row) :
    Except (List Char) (Disk Bytes Row) :=
  (change s.files).map (fun files => { s with files })

def look (f : Disk Bytes Row → α) : Task Bytes Row α :=
  step (fun s => (.ok (f s), s))

def pathExists (path : FilePath) : Task Bytes Row Bool :=
  look (fun s => (s.files path).isSome)

def createDirAll (context : List Char) : Task Bytes Row Unit :=
  call w context .ok

def removeFileIfExists (path : FilePath) : Task Bytes Row Unit :=
  call w ("failed to remove file ".toList ++ path.display ++ ": ".toList)
    (onFiles (fun files => .ok (files.set path none)))

def createNew (path : FilePath) : Task Bytes Row Unit :=
  call w ("failed to create ".toList ++ path.display ++ ": ".toList) (onFiles (fun files =>
    if (files path).isSome then .error "file exists".toList
    else .ok (files.set path (some w.empty))))

def writeAll (path : FilePath) (bytes : Bytes) : Task Bytes Row Unit :=
  call w ("failed to write ".toList ++ path.display ++ ": ".toList)
    (onFiles (fun files => .ok (files.set path (some bytes))))

def syncAll (path : FilePath) : Task Bytes Row Unit :=
  call w ("failed to flush ".toList ++ path.display ++ ": ".toList) .ok

def rename (context : List Char) (source target : FilePath) : Task Bytes Row Unit :=
  call w context (onFiles (fun files =>
    match files source with
    | none => .error "no such file".toList
    | some bytes => .ok ((files.set target (some bytes)).set source none)))

/-- A handler for what fails; nothing handles the death of the process. -/
def onFailure (x : Task Bytes Row α) (handle : List Char → Task Bytes Row α) :
    Task Bytes Row α :=
  tryCatch x (fun stop =>
    match stop with
    | .crash => throw .crash
    | .failed message => handle message)

def temporaryPath (path : FilePath) : FilePath :=
  ⟨path.parent, '.' :: path.name ++ '.' :: w.pid ++ ".tmp".toList⟩

def backupPath (path : FilePath) : FilePath :=
  ⟨path.parent, '.' :: path.name ++ '.' :: w.pid ++ ".bak".toList⟩

/-- Everything up to the moment when the old file is moved. -/
def prepare (path : FilePath) (bytes : Bytes) : Task Bytes Row Unit := do
  createDirAll w ("failed to create JSON directory ".toList ++ path.parent ++ ": ".toList)
  removeFileIfExists w (temporaryPath w path)
  removeFileIfExists w (backupPath w path)
  createNew w (temporaryPath w path)
  writeAll w (temporaryPath w path) bytes
  syncAll w (temporaryPath w path)

def stage (path : FilePath) : Task Bytes Row Unit :=
  rename w ("failed to stage ".toList ++ path.display ++ " for replacement: ".toList) path
    (backupPath w path)

/-- The old file is put back if there was one, whether that works or not. -/
def restore (path : FilePath) (hadTarget : Bool) : Task Bytes Row Unit :=
  if hadTarget then onFailure (rename w [] (backupPath w path) path) (fun _ => pure ())
  else pure ()

def publish (path : FilePath) (hadTarget : Bool) : Task Bytes Row Unit :=
  onFailure
    (rename w ("failed to publish ".toList ++ path.display ++ ": ".toList) (temporaryPath w path)
      path)
    (fun message => do
      restore w path hadTarget
      throw (.failed message))

def whenTarget (hadTarget : Bool) (x : Task Bytes Row Unit) : Task Bytes Row Unit :=
  if hadTarget then x else pure ()

def writeJsonAtomic (codec : Codec Bytes α) (path : FilePath) (value : α) :
    Task Bytes Row Unit := do
  prepare w path (codec.toBytes value)
  let hadTarget ← pathExists path
  whenTarget hadTarget (stage w path)
  publish w path hadTarget
  whenTarget hadTarget (removeFileIfExists w (backupPath w path))

def readJson (codec : Codec Bytes α) (files : Files Bytes) (path : FilePath) :
    Except (List Char) α :=
  match files path with
  | none => .error ("failed to read JSON file ".toList ++ path.display)
  | some bytes =>
    (codec.fromSlice bytes).mapError
      (fun error => "invalid JSON file ".toList ++ path.display ++ ": ".toList ++ error)

def readJsonOrDefault (codec : Codec Bytes α) (default : α) (files : Files Bytes)
    (path : FilePath) : Except (List Char) α :=
  match readJson codec files path with
  | .ok value => .ok value
  | .error error => if (files path).isSome then .error error else .ok default

end Calls

section Outcome
variable {Bytes Row α : Type} {w : World Bytes} {P : Disk Bytes Row → Prop}

def NoFailure (w : World Bytes) : Prop :=
  ∀ left, w.failure left = none

lemma path_ne_temporary (path : FilePath) : path ≠ temporaryPath w path := by
  intro same
  have length := congrArg (fun p => p.name.length) same
  simp only [temporaryPath, List.length_append, List.length_cons] at length
  omega

lemma path_ne_backup (path : FilePath) : path ≠ backupPath w path := by
  intro same
  have length := congrArg (fun p => p.name.length) same
  simp only [backupPath, List.length_append, List.length_cons] at length
  omega

lemma temporary_ne_backup (path other : FilePath) :
    temporaryPath w path ≠ backupPath w other := by
  intro same
  have last := congrArg (fun p => p.name.getLast?) same
  simp [temporaryPath, backupPath, List.getLast?_append, List.getLast?_cons] at last

lemma Files.set_same (files : Files Bytes) (path : FilePath) (contents : Option Bytes) :
    files.set path contents path = contents :=
  if_pos rfl

lemma Files.set_other (files : Files Bytes) {path q : FilePath} (contents : Option Bytes)
    (differ : q ≠ path) : files.set path contents q = files q :=
  if_neg differ

variable {Q : α → Disk Bytes Row → Prop} {E : Stop → Disk Bytes Row → Prop} {context : List Char}
  {s : Disk Bytes Row} {calls : Nat} {default : α}

/-- The rule of a call that cannot fail: the process dies before it, or it is carried out. -/
lemma triple_call (sure : NoFailure w) {Q : Disk Bytes Row → Prop}
    {change : Disk Bytes Row → Except (List Char) (Disk Bytes Row)}
    (dies : ∀ s, P s → s.budget = 0 → E .crash s)
    (does : ∀ s left, P s → s.budget = left + 1 →
      ∃ s', change { s with budget := left } = .ok s' ∧ Q s') :
    Triple P (call w context change) (fun _ => Q) E := by
  intro s start
  have run : after (call w context change) s = match s.budget with
    | 0 => (.error .crash, s)
    | left + 1 =>
      match w.failure left with
      | some error => (.error (.failed (context ++ error)), { s with budget := left })
      | none =>
        match change { s with budget := left } with
        | .error error => (.error (.failed (context ++ error)), { s with budget := left })
        | .ok s' => (.ok (), s') := rfl
  cases budget : s.budget with
  | zero =>
    rw [budget] at run
    rw [run]
    refine ⟨fun _ _ h => (nomatch h), ?_⟩
    rintro e s' ⟨⟩
    exact dies s start budget
  | succ left =>
    obtain ⟨t, changed, reached⟩ := does s left start budget
    rw [budget] at run
    simp only [sure left, changed] at run
    rw [run]
    refine ⟨?_, fun _ _ h => nomatch h⟩
    rintro a s' ⟨⟩
    exact reached

lemma triple_look {f : Disk Bytes Row → α} (h : ∀ s, P s → Q (f s) s) :
    Triple P (look f) Q E := by
  intro s start
  refine ⟨?_, fun _ _ h => nomatch h⟩
  rintro a s' ⟨⟩
  exact h s start

/-- A handler has nothing to do where nothing fails. -/
lemma triple_onFailure {E : Disk Bytes Row → Prop} {x : Task Bytes Row α}
    {handle : List Char → Task Bytes Row α} (h : Triple P x Q (fun e s => e = .crash ∧ E s)) :
    Triple P (onFailure x handle) Q (fun e s => e = .crash ∧ E s) := by
  refine triple_tryCatch h ?_
  intro e
  cases e with
  | crash => exact triple_throw (fun s dead => dead)
  | failed message => exact fun s dead => Stop.noConfusion dead.1

variable {s₀ : Disk Bytes Row} {path : FilePath} {bytes : Bytes}

/-- So many calls were carried out, and of the files only the two beside the path may differ. -/
structure Spent (w : World Bytes) (path : FilePath) (s₀ : Disk Bytes Row) (calls : Nat)
    (s : Disk Bytes Row) : Prop where
  budget : s.budget + calls = s₀.budget
  rows : s.rows = s₀.rows
  files : ∀ q, q ≠ temporaryPath w path → q ≠ backupPath w path → s.files q = s₀.files q

/-- The path holds this, and all other files that are not beside it are as before. -/
structure Holds (w : World Bytes) (path : FilePath) (s₀ : Disk Bytes Row)
    (contents : Option Bytes) (s : Disk Bytes Row) : Prop where
  rows : s.rows = s₀.rows
  held : s.files path = contents
  files : ∀ q, q ≠ path → q ≠ temporaryPath w path → q ≠ backupPath w path →
    s.files q = s₀.files q

lemma Spent.holds (h : Spent w path s₀ calls s) : Holds w path s₀ (s₀.files path) s :=
  ⟨h.rows, h.files path (path_ne_temporary path) (path_ne_backup path), fun q _ => h.files q⟩

/-- The process died in the preparation. -/
def DeadEarly (w : World Bytes) (path : FilePath) (s₀ : Disk Bytes Row) (e : Stop)
    (s : Disk Bytes Row) : Prop :=
  e = .crash ∧ s₀.budget < 6 ∧ Holds w path s₀ (s₀.files path) s

lemma triple_prepare_call (sure : NoFailure w) {k : Nat} (early : k < 6)
    {A B : Files Bytes → Prop} {change : Files Bytes → Except (List Char) (Files Bytes)}
    (does : ∀ files, A files → ∃ files', change files = .ok files' ∧ B files' ∧
      ∀ q, q ≠ temporaryPath w path → q ≠ backupPath w path → files' q = files q) :
    Triple (fun s : Disk Bytes Row => Spent w path s₀ k s ∧ A s.files)
      (call w context (onFiles change))
      (fun _ s => Spent w path s₀ (k + 1) s ∧ B s.files) (DeadEarly w path s₀) := by
  refine triple_call sure ?_ ?_
  · rintro s ⟨spent, -⟩ empty
    refine ⟨rfl, ?_, spent.holds⟩
    have budget := spent.budget
    omega
  · rintro s left ⟨spent, before⟩ budget
    obtain ⟨files', changed, behind, others⟩ := does s.files before
    refine ⟨⟨files', s.rows, left⟩, by rw [onFiles, changed]; rfl, ⟨?_, spent.rows, ?_⟩, behind⟩
    · have total := spent.budget
      change left + (k + 1) = s₀.budget
      omega
    · exact fun q temporary backup =>
        (others q temporary backup).trans (spent.files q temporary backup)

lemma triple_prepare (sure : NoFailure w) (path : FilePath) (bytes : Bytes) (s₀ : Disk Bytes Row) :
    Triple (· = s₀) (prepare w path bytes)
      (fun _ s => Spent w path s₀ 6 s ∧ s.files (temporaryPath w path) = some bytes)
      (DeadEarly w path s₀) := by
  have differ := temporary_ne_backup (w := w) path path
  refine triple_bind (M := fun _ s => Spent w path s₀ 1 s ∧ True) ?_ fun _ => ?_
  · refine triple_call sure ?_ ?_
    · rintro s rfl empty
      exact ⟨rfl, by omega, rfl, rfl, fun _ _ _ _ => rfl⟩
    · rintro s left rfl budget
      exact ⟨_, rfl, ⟨budget.symm, rfl, fun _ _ _ => rfl⟩, trivial⟩
  refine triple_bind (M := fun _ s => Spent w path s₀ 2 s ∧
    s.files (temporaryPath w path) = none) ?_ fun _ => ?_
  · refine triple_prepare_call (k := 1) (A := fun _ => True)
      (B := fun files => files (temporaryPath w path) = none) sure (by decide) fun files _ =>
        ⟨_, rfl, files.set_same _ _, fun q temporary _ => files.set_other _ temporary⟩
  refine triple_bind (M := fun _ s => Spent w path s₀ 3 s ∧
    s.files (temporaryPath w path) = none) ?_ fun _ => ?_
  · refine triple_prepare_call (k := 2) (A := fun files => files (temporaryPath w path) = none)
      (B := fun files => files (temporaryPath w path) = none) sure (by decide) fun files gone =>
        ⟨_, rfl, (files.set_other _ differ).trans gone, fun q _ backup => files.set_other _ backup⟩
  refine triple_bind (M := fun _ s => Spent w path s₀ 4 s ∧ True) ?_ fun _ => ?_
  · refine triple_prepare_call (k := 3) (A := fun files => files (temporaryPath w path) = none)
      (B := fun _ => True) sure (by decide) fun files gone => ?_
    refine ⟨files.set (temporaryPath w path) (some w.empty), ?_, trivial, ?_⟩
    · rw [gone]
      rfl
    · exact fun q temporary _ => files.set_other _ temporary
  refine triple_bind (M := fun _ s => Spent w path s₀ 5 s ∧
    s.files (temporaryPath w path) = some bytes) ?_ fun _ => ?_
  · refine triple_prepare_call (k := 4) (A := fun _ => True)
      (B := fun files => files (temporaryPath w path) = some bytes) sure (by decide) fun files _ =>
        ⟨_, rfl, files.set_same _ _, fun q temporary _ => files.set_other _ temporary⟩
  · refine triple_call sure ?_ ?_
    · rintro s ⟨spent, -⟩ empty
      have budget := spent.budget
      exact ⟨rfl, by omega, spent.holds⟩
    · rintro s left ⟨spent, written⟩ budget
      have total := spent.budget
      refine ⟨_, rfl, ⟨?_, spent.rows, spent.files⟩, written⟩
      change left + 6 = s₀.budget
      omega

/-- What a path holds when the process dies after so many calls of a write to it. -/
def leftBehind (old : Option Bytes) (new : Bytes) (calls : Nat) : Option Bytes :=
  if calls ≤ 6 then old else if old.isSome ∧ calls = 7 then none else some new

def writeCost (old : Option Bytes) : Nat :=
  if old.isSome then 9 else 7

def DeadWriting (w : World Bytes) (path : FilePath) (new : Bytes) (s₀ : Disk Bytes Row) (e : Stop)
    (s : Disk Bytes Row) : Prop :=
  e = .crash ∧ s₀.budget < writeCost (s₀.files path) ∧
    Holds w path s₀ (leftBehind (s₀.files path) new s₀.budget) s

lemma DeadEarly.writing {new : Bytes} {e : Stop} (h : DeadEarly w path s₀ e s) :
    DeadWriting w path new s₀ e s := by
  obtain ⟨crashed, early, holds⟩ := h
  refine ⟨crashed, ?_, ?_⟩
  · rw [writeCost]
    split <;> omega
  · rwa [leftBehind, if_pos (by omega)]

section
variable (sure : NoFailure w)
include sure

lemma triple_stage {old : Bytes} (target : s₀.files path = some old) :
    Triple (fun s => Spent w path s₀ 6 s ∧ s.files (temporaryPath w path) = some bytes)
      (stage w path)
      (fun _ s => s.budget + 7 = s₀.budget ∧ Holds w path s₀ none s ∧
        s.files (temporaryPath w path) = some bytes)
      (DeadWriting w path bytes s₀) := by
  refine triple_call sure ?_ ?_
  · rintro s ⟨spent, -⟩ empty
    have budget := spent.budget
    refine ⟨rfl, ?_, ?_⟩
    · rw [writeCost, target, Option.isSome_some, if_pos rfl]
      omega
    · rw [leftBehind, if_pos (by omega)]
      exact spent.holds
  · rintro s left ⟨spent, written⟩ budget
    have total := spent.budget
    have held : s.files path = some old := spent.holds.held.trans target
    refine ⟨⟨(s.files.set (backupPath w path) (some old)).set path none, s.rows, left⟩, ?_, ?_, ?_, ?_⟩
    · rw [onFiles, held]
      rfl
    · change left + 7 = s₀.budget
      omega
    · refine ⟨spent.rows, Files.set_same _ _ _, fun q differ temporary backup => ?_⟩
      exact (Files.set_other _ _ differ).trans
        ((Files.set_other _ _ backup).trans (spent.files q temporary backup))
    · exact (Files.set_other _ _ (path_ne_temporary path).symm).trans
        ((Files.set_other _ _ (temporary_ne_backup path path)).trans written)

/-- The new file is moved to a path that holds none. -/
lemma triple_publish (hadTarget : Bool)
    (dies : s₀.budget = calls → s₀.budget < writeCost (s₀.files path) ∧
      leftBehind (s₀.files path) bytes s₀.budget = none) :
    Triple (fun s => s.budget + calls = s₀.budget ∧ Holds w path s₀ none s ∧
        s.files (temporaryPath w path) = some bytes)
      (publish w path hadTarget)
      (fun _ s => s.budget + calls + 1 = s₀.budget ∧ Holds w path s₀ (some bytes) s)
      (DeadWriting w path bytes s₀) := by
  refine triple_onFailure (triple_call sure ?_ ?_)
  · rintro s ⟨budget, holds, -⟩ empty
    obtain ⟨cost, nothing⟩ := dies (by omega)
    refine ⟨rfl, cost, ?_⟩
    rw [nothing]
    exact holds
  · rintro s left ⟨total, holds, written⟩ budget
    refine ⟨⟨(s.files.set path (some bytes)).set (temporaryPath w path) none, s.rows, left⟩,
      ?_, ?_, ?_⟩
    · rw [onFiles, written]
      rfl
    · change left + calls + 1 = s₀.budget
      omega
    · refine ⟨holds.rows, ?_, fun q differ temporary backup => ?_⟩
      · exact (Files.set_other _ _ (path_ne_temporary path)).trans (Files.set_same _ _ _)
      · exact (Files.set_other _ _ temporary).trans
          ((Files.set_other _ _ differ).trans (holds.files q differ temporary backup))

/-- A write that is carried out costs its calls; a write that dies leaves what is left behind. -/
lemma triple_writeJsonAtomic (codec : Codec Bytes α) (path : FilePath)
    (value : α) (s₀ : Disk Bytes Row) :
    Triple (· = s₀) (writeJsonAtomic w codec path value)
      (fun _ s => s.budget + writeCost (s₀.files path) = s₀.budget ∧
        Holds w path s₀ (some (codec.toBytes value)) s)
      (DeadWriting w path (codec.toBytes value) s₀) := by
  refine triple_bind (triple_weaken (triple_prepare sure path (codec.toBytes value) s₀)
    (fun _ h => h) (fun _ _ h => h) (fun _ _ => DeadEarly.writing)) fun _ => ?_
  refine triple_bind (M := fun hadTarget s => hadTarget = (s₀.files path).isSome ∧
    Spent w path s₀ 6 s ∧ s.files (temporaryPath w path) = some (codec.toBytes value))
    (triple_look ?_) fun hadTarget => ?_
  · rintro s ⟨spent, written⟩
    exact ⟨congrArg Option.isSome spent.holds.held, spent, written⟩
  cases target : s₀.files path with
  | none =>
    cases hadTarget with
    | true => exact fun s h => Bool.noConfusion h.1
    | false =>
      refine triple_bind (M := fun _ s => s.budget + 6 = s₀.budget ∧ Holds w path s₀ none s ∧
        s.files (temporaryPath w path) = some (codec.toBytes value)) (triple_pure ?_) fun _ => ?_
      · rintro s ⟨-, spent, written⟩
        have holds := spent.holds
        rw [target] at holds
        exact ⟨spent.budget, holds, written⟩
      refine triple_bind (triple_publish sure false ?_) fun _ => triple_pure ?_
      · intro six
        rw [target, six]
        exact ⟨Nat.lt_succ_self 6, rfl⟩
      · exact fun s published => published
  | some old =>
    cases hadTarget with
    | false => exact fun s h => Bool.noConfusion h.1
    | true =>
      refine triple_bind (triple_weaken (triple_stage sure target) (fun _ h => h.2)
        (fun _ _ h => h) (fun _ _ h => h)) fun _ => ?_
      refine triple_bind (triple_publish sure true ?_) fun _ => ?_
      · intro seven
        rw [target, seven]
        exact ⟨Nat.lt_of_succ_lt (Nat.lt_succ_self 8), rfl⟩
      change Triple _ (removeFileIfExists w (backupPath w path)) _ _
      refine triple_call sure ?_ ?_
      · rintro s ⟨total, holds⟩ empty
        have eight : s₀.budget = 8 := by omega
        refine ⟨rfl, ?_, ?_⟩
        · rw [eight, target]
          exact Nat.lt_succ_self 8
        · rw [eight, target]
          exact holds
      · rintro s left ⟨total, holds⟩ budget
        refine ⟨⟨s.files.set (backupPath w path) none, s.rows, left⟩, rfl, ?_, holds.rows, ?_, ?_⟩
        · change left + 9 = s₀.budget
          omega
        · exact (Files.set_other _ _ (path_ne_backup path)).trans holds.held
        · exact fun q differ temporary backup =>
            (Files.set_other _ _ backup).trans (holds.files q differ temporary backup)

/-- Whether it ends or dies, a write leaves at its path what is left behind. -/
lemma holds_after_write (codec : Codec Bytes α) (path : FilePath) (value : α) (s : Disk Bytes Row) :
    Holds w path s (leftBehind (s.files path) (codec.toBytes value) s.budget)
      (after (writeJsonAtomic w codec path value) s).2 := by
  obtain ⟨returns, stops⟩ := triple_writeJsonAtomic sure codec path value s s rfl
  rcases run : after (writeJsonAtomic w codec path value) s with ⟨e | a, s'⟩
  · exact (stops e s' run).2.2
  · obtain ⟨total, holds⟩ := returns a s' run
    have past : leftBehind (s.files path) (codec.toBytes value) s.budget =
        some (codec.toBytes value) := by
      rw [writeCost] at total
      rw [leftBehind]
      split at total
      · rw [if_neg (by omega), if_neg (by omega)]
      · rename_i absent
        rw [if_neg (by omega), if_neg (fun h => absent h.1)]
    rw [past]
    exact holds

end

variable {files : Files Bytes} {codec : Codec Bytes α}

lemma readJson_of_holds {value : α} (held : files path = some (codec.toBytes value)) :
    readJson codec files path = .ok value := by
  rw [readJson, held]
  change (codec.fromSlice (codec.toBytes value)).mapError _ = _
  rw [codec.fromSlice_toBytes]
  rfl

lemma readJsonOrDefault_of_holds {value : α} (held : files path = some (codec.toBytes value)) :
    readJsonOrDefault codec default files path = .ok value := by
  rw [readJsonOrDefault, readJson_of_holds held]

lemma readJsonOrDefault_of_none (gone : files path = none) :
    readJsonOrDefault codec default files path = .ok default := by
  rw [readJsonOrDefault, readJson, gone]
  rfl

end Outcome

end FlatJson
