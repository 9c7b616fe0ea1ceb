import KKTerm.Sftp.Download
import Mathlib.Data.Fintype.EquivFin

/-!
# Where SFTP downloads are written

Everything that a download creates, writes or removes is its target or below it, as long as no
name in a folder of the server leads out of the directory that it is joined to.
-/

namespace Sftp

open Ftp
open List hiding after
open Effects Paths

/-- How far below the start one more name leads, if it does not lead above it. -/
def descendName (depth : Nat) (name : List Char) : Option Nat :=
  if name = [] ∨ name = ['.'] then some depth
  else if name = ['.', '.'] then
    if depth = 0 then none else some (depth - 1)
  else some (depth + 1)

/-- How far below its start a list of names leads, if it never leads above it. -/
def descend (depth : Nat) (names : List (List Char)) : Option Nat :=
  names.foldlM descendName depth

/-- A name that is relative to any directory and never leads above it. -/
def Descends : Platform → List Char → Prop
  | .windows, name =>
    ¬ name.head?.any isSeparator ∧
    ¬ (name.head?.any Text.isAsciiAlphabetic ∧ name.tail.head? = some ':') ∧
    (descend 0 (name.splitOnP isSeparator)).isSome
  | _, name => name.head? ≠ some '/' ∧ (descend 0 (Text.split '/' name)).isSome

instance (platform : Platform) (name : List Char) : Decidable (Descends platform name) := by
  cases platform
  · exact inferInstanceAs (Decidable (_ ∧ _ ∧ _))
  · exact inferInstanceAs (Decidable (_ ∧ _))
  · exact inferInstanceAs (Decidable (_ ∧ _))

lemma pushNames_cons (dir : Path) (name : List Char) (names : List (List Char)) :
    pushNames dir (name :: names) = pushNames (pushName dir name) names :=
  rfl

lemma descend_cons (depth : Nat) (name : List Char) (names : List (List Char)) :
    descend depth (name :: names) = descendName depth name >>= fun depth => descend depth names :=
  foldlM_cons

lemma pushName_descend {name : List Char} {below : Path} {depth : Nat}
    (down : descendName below.length name = some depth) (dir : Path) :
    ∃ below', pushName (dir ++ below) name = dir ++ below' ∧ below'.length = depth ∧
      ∀ x ∈ below', x ∈ below ∨ x = name := by
  unfold descendName at down
  unfold pushName
  by_cases here : name = [] ∨ name = ['.']
  · rw [if_pos here] at down ⊢
    exact ⟨below, rfl, Option.some.inj down, fun x member => Or.inl member⟩
  rw [if_neg here] at down ⊢
  by_cases up : name = ['.', '.']
  · rw [if_pos up] at down ⊢
    split at down
    · cases down
    · rename_i deeper
      have nonempty : below ≠ [] := mt length_eq_zero_iff.mpr deeper
      refine ⟨below.dropLast, dropLast_append_of_ne_nil nonempty, ?_,
        fun x member => Or.inl (mem_of_mem_dropLast member)⟩
      rw [length_dropLast]
      exact Option.some.inj down
  · rw [if_neg up] at down ⊢
    refine ⟨below ++ [name], append_assoc _ _ _, ?_, fun x member => by simpa using member⟩
    rw [length_append]
    exact Option.some.inj down

/-- The names lead from a directory to one that is so far below the same start. -/
lemma pushNames_descend {names : List (List Char)} (below : Path) {depth : Nat}
    (down : descend below.length names = some depth) (dir : Path) :
    ∃ below', pushNames (dir ++ below) names = dir ++ below' ∧ below'.length = depth := by
  induction names generalizing below with
  | nil => exact ⟨below, rfl, Option.some.inj down⟩
  | cons name names ih =>
    rw [descend_cons] at down
    obtain ⟨between, first, rest⟩ := Option.bind_eq_some_iff.mp down
    obtain ⟨middle, leads, rfl, -⟩ := pushName_descend first dir
    rw [pushNames_cons, leads]
    exact ih middle rest

lemma prefix_pushNames {names : List (List Char)} (down : (descend 0 names).isSome) (dir : Path) :
    dir <+: pushNames dir names := by
  obtain ⟨depth, down⟩ := Option.isSome_iff_exists.mp down
  obtain ⟨below, leads, -⟩ := pushNames_descend [] down dir
  rw [append_nil] at leads
  exact leads ▸ prefix_append dir below

lemma joinUnix_descends {name : List Char} (relative : name.head? ≠ some '/')
    (down : (descend 0 (Text.split '/' name)).isSome) (dir : Path) :
    dir <+: joinUnix dir name := by
  rw [joinUnix, if_neg relative]
  exact prefix_pushNames down dir

lemma joinWindows_descends {name : List Char} (relative : ¬ name.head?.any isSeparator)
    (no_drive : ¬ (name.head?.any Text.isAsciiAlphabetic ∧ name.tail.head? = some ':'))
    (down : (descend 0 (name.splitOnP isSeparator)).isSome) (current : Char → Path)
    (dir : Path) : dir <+: joinWindows current dir name := by
  cases name with
  | nil => exact prefix_rfl
  | cons c rest =>
    have no_separator : ¬ isSeparator c = true := relative
    have no_letter : ¬ (Text.isAsciiAlphabetic c = true ∧ rest.head? = some ':') := no_drive
    rw [joinWindows, if_neg no_separator, if_neg no_letter, pushBelow]
    have whole := (prefix_append_right_inj (dir.take 1)).mpr (prefix_pushNames down (dir.drop 1))
    rwa [take_append_drop] at whole

lemma join_descends (w : World) {name : List Char} (descends : Descends w.platform name)
    (dir : Path) : dir <+: w.join dir name := by
  unfold World.join
  unfold Descends at descends
  cases platform : w.platform with
  | windows =>
    rw [platform] at descends
    exact joinWindows_descends descends.1 descends.2.1 descends.2.2 _ dir
  | macos =>
    rw [platform] at descends
    exact joinUnix_descends descends.1 descends.2 dir
  | linux =>
    rw [platform] at descends
    exact joinUnix_descends descends.1 descends.2 dir

section Confinement
variable {w : World} {allowed : Path → Prop} {target : Path} {α : Type}

/-- Nothing was changed at other paths than these. -/
def Confined (allowed : Path → Prop) (s : State) : Prop :=
  ∀ change ∈ s.changes, allowed change.path

/-- A computation that goes on changing nothing at other paths. -/
abbrev StaysIn (allowed : Path → Prop) (x : Transfer α) (R : α → Prop) : Prop :=
  Keeps (Confined allowed) x R

lemma below_quiet {f : State → State} (same : ∀ s, (f s).changes = s.changes) (value : State → α) :
    StaysIn allowed (step (fun s => (.ok (value s), f s))) (fun _ => True) := by
  apply keeps_step
  intro s confined
  refine ⟨?_, fun _ _ => trivial⟩
  change ∀ change ∈ (f s).changes, _
  rw [same s]
  exact confined

variable {R : α → Prop} {path : Path}

lemma below_fail (message : List Char) : StaysIn allowed (fail message) R :=
  keeps_throw _

variable {context : List Char} {x : Transfer α}

lemma below_orFail {answer : Except (List Char) α} (h : ∀ a, answer = .ok a → R a) :
    StaysIn allowed (orFail context answer) R := by
  cases answer with
  | ok a => exact keeps_pure (h a rfl)
  | error error => exact below_fail _

lemma below_request : StaysIn allowed request (fun _ => True) :=
  below_quiet (f := fun s => { s with tick := s.tick + 1 }) (fun _ => rfl) State.tick

lemma below_timeout {operation : String} (h : StaysIn allowed x R) :
    StaysIn allowed (withSftpTransferIoTimeout w operation x) R := by
  refine keeps_bind below_request fun now _ => ?_
  split
  · exact below_fail _
  · split
    · exact below_fail _
    · exact h

lemma below_checkCancelled : StaysIn allowed (checkCancelled w) (fun _ => True) := by
  refine keeps_bind below_request fun now _ => ?_
  split
  · exact below_fail _
  · exact keeps_pure trivial

lemma below_answer {answer : Nat → Except (List Char) α} (h : ∀ now a, answer now = .ok a → R a) :
    StaysIn allowed (request >>= fun now => orFail context (answer now)) R :=
  keeps_bind below_request fun now _ => below_orFail (h now)

lemma below_apply {context : String} {change : Change} (inside : allowed change.path) :
    StaysIn allowed (apply w context change) (fun _ => True) := by
  refine keeps_bind below_request fun now _ => ?_
  refine keeps_bind (R := fun _ => True) (keeps_step ?_) fun _ _ => below_orFail fun _ _ => trivial
  intro s confined
  refine ⟨?_, fun _ _ => trivial⟩
  intro other member
  rcases mem_append.mp member with earlier | this
  · exact confined other earlier
  · rw [mem_singleton.mp this]
    exact inside

lemma below_look {β : Type} (look : Nat → β) :
    StaysIn allowed (request >>= fun now => (pure (look now) : Transfer β)) (fun _ => True) :=
  keeps_bind below_request fun _ _ => keeps_pure trivial

lemma below_tryCatch {handle : Stop → Transfer α} (h : StaysIn allowed x R)
    (handled : ∀ e, StaysIn allowed (handle e) R) : StaysIn allowed (tryCatch x handle) R := by
  have triple : Triple (Confined allowed) (tryCatch x handle)
      (fun a s => Confined allowed s ∧ R a) (fun _ => Confined allowed) := by
    have started : ∀ {y : Transfer α}, StaysIn allowed y R → Triple (Confined allowed) y
        (fun a s => Confined allowed s ∧ R a) (fun _ => Confined allowed) := by
      intro y keeps s confined
      obtain ⟨kept, returns⟩ := keeps s confined
      refine ⟨fun a s' run => ?_, fun e s' run => ?_⟩
      · rw [run] at kept returns
        exact ⟨kept, returns a rfl⟩
      · rw [run] at kept
        exact kept
    exact triple_tryCatch (started h) fun e => started (handled e)
  intro s confined
  obtain ⟨returns, stops⟩ := triple s confined
  rcases run : after (tryCatch x handle) s with ⟨e | a, s'⟩
  · exact ⟨stops e s' run, fun _ h => nomatch h⟩
  · obtain ⟨kept, property⟩ := returns a s' run
    refine ⟨kept, ?_⟩
    rintro b ⟨⟩
    exact property

lemma below_prepareDirectory (inside : allowed path) (behavior : SftpOverwriteBehavior) :
    StaysIn allowed (prepareLocalDownloadDirectory w path behavior) (fun _ => True) := by
  have missing : StaysIn allowed (ensureLocalMissing w path) (fun _ => True) := by
    refine keeps_bind (below_look _) fun there _ => ?_
    split
    · exact below_fail _
    · exact keeps_pure trivial
  have create : StaysIn allowed (createLocalDir w path) (fun _ => True) := below_apply inside
  cases behavior with
  | fail => exact keeps_bind missing fun _ _ => create
  | overwrite =>
    refine keeps_bind (below_look _) fun there _ => ?_
    split
    · refine keeps_bind (below_look _) fun folder _ => ?_
      split
      · exact keeps_pure trivial
      · exact below_fail _
    · exact create

lemma below_prepareFile (path : Path) (behavior : SftpOverwriteBehavior) :
    StaysIn allowed (prepareLocalDownloadFile w path behavior) (fun _ => True) := by
  cases behavior with
  | fail =>
    refine keeps_bind (R := fun _ => True) ?_ fun _ _ => keeps_pure trivial
    refine keeps_bind (below_look _) fun there _ => ?_
    split
    · exact below_fail _
    · exact keeps_pure trivial
  | overwrite =>
    refine keeps_bind (below_look _) fun folder _ => ?_
    split
    · exact below_fail _
    · exact below_look _

lemma below_copyChunks (inside : allowed path) (fuel : Nat) :
    StaysIn allowed (copyChunks w path fuel) (fun _ => True) := by
  induction fuel with
  | zero => exact keeps_throw _
  | succ fuel ih =>
    have turn : StaysIn allowed (copyChunk w path) (fun _ => True) := by
      refine keeps_bind below_checkCancelled fun _ _ => ?_
      refine keeps_bind (below_timeout (below_answer fun _ _ _ => trivial)) fun size _ => ?_
      split
      · exact keeps_pure trivial
      · refine keeps_bind (below_apply inside) fun _ _ => ?_
        refine keeps_bind (below_quiet (f := fun s => { s with
          summary := { s.summary with bytes := s.summary.bytes + size }
          transferredBytes := min (s.transferredBytes + size) 18446744073709551615 })
          (fun _ => rfl) (fun _ => ())) fun _ _ => keeps_pure trivial
    refine keeps_bind turn fun goesOn _ => ?_
    split
    · exact ih
    · exact keeps_pure trivial

lemma below_cleanUp (inside : allowed path) (existed : Bool) (e : Stop) :
    StaysIn allowed (cleanUp w path existed e) (fun _ => True) := by
  cases e with
  | outOfFuel => exact keeps_throw _
  | failed error =>
    have closed : StaysIn allowed (closeRemote error) (fun _ => True) := by
      unfold closeRemote
      split
      · exact keeps_pure trivial
      · exact below_look _
    have removed : StaysIn allowed (removeNew w path existed) (fun _ => True) := by
      unfold removeNew
      split
      · exact keeps_pure trivial
      · exact below_tryCatch (below_apply inside) fun _ => keeps_pure trivial
    exact keeps_bind closed fun _ _ => keeps_bind removed fun _ _ => below_fail _

lemma below_count (f : TransferSummary → TransferSummary) :
    StaysIn allowed (count f) (fun _ => True) :=
  below_quiet (f := fun s => { s with summary := f s.summary }) (fun _ => rfl) (fun _ => ())

lemma below_downloadFile (inside : allowed path) (fuel : Nat) (remotePath : List Char)
    (behavior : SftpOverwriteBehavior) :
    StaysIn allowed (downloadFile w fuel remotePath path behavior) (fun _ => True) := by
  refine keeps_bind (below_prepareFile path behavior) fun existed _ => ?_
  refine keeps_bind (below_timeout (below_answer fun _ _ _ => trivial)) fun _ _ => ?_
  have chunks : StaysIn allowed (downloadFileChunks w fuel path behavior) (fun _ => True) := by
    refine keeps_bind (below_apply inside) fun _ _ => ?_
    refine keeps_bind (below_copyChunks inside fuel) fun _ _ => ?_
    refine keeps_bind (below_apply inside) fun _ _ => ?_
    exact below_timeout (below_answer fun _ _ _ => trivial)
  refine keeps_bind (below_tryCatch chunks (below_cleanUp inside existed)) fun _ _ => ?_
  exact below_count _

/-- No folder of the server has a name that leads out of a directory, other than the names of the
folder itself and of its parent. -/
def NamesDescend (w : World) : Prop :=
  ∀ now path names name, w.readDir now path = .ok names → name ∈ names → isDots name = false →
    Descends w.platform name

lemma below_readNames (descend : NamesDescend w) (context : String) (path : List Char) :
    StaysIn allowed (readNames w context path)
      (fun names => ∀ name ∈ names, Descends w.platform name) := by
  refine keeps_bind below_request fun now _ => ?_
  refine keeps_bind (below_orFail (R := fun names => w.readDir now path = .ok names)
    fun names found => found) fun names found => keeps_pure fun name member => ?_
  obtain ⟨listed, no_dots⟩ := mem_filter.mp member
  exact descend now path names name found listed (by simpa using no_dots)

lemma below_downloadRemoteEntry (descend : NamesDescend w) (behavior : SftpOverwriteBehavior)
    (fuel : Nat) (remotePath : List Char) (inside : target <+: path) :
    StaysIn (target <+: ·) (downloadRemoteEntry w behavior fuel remotePath path) (fun _ => True) := by
  induction fuel generalizing remotePath path with
  | zero => exact keeps_throw _
  | succ fuel ih =>
    refine keeps_bind below_checkCancelled fun _ _ => ?_
    refine keeps_bind (below_timeout (below_answer fun _ _ _ => trivial)) fun metadata _ => ?_
    split
    · refine keeps_bind (below_prepareDirectory inside behavior) fun _ _ => ?_
      refine keeps_bind (below_count _) fun _ _ => ?_
      refine keeps_bind (below_timeout (below_readNames descend _ _)) fun names listed => ?_
      refine keeps_forM fun name member => ?_
      have sorted := (mem_insertionSort _).mp member
      exact ih _ (inside.trans (join_descends w (listed name sorted) path))
    · exact below_downloadFile inside fuel remotePath behavior
    · exact below_fail _

lemma below_remoteTransferSize (fuel : Nat) (path : List Char) :
    StaysIn allowed (remoteTransferSize w fuel path) (fun _ => True) := by
  induction fuel generalizing path with
  | zero => exact keeps_throw _
  | succ fuel ih =>
    refine keeps_bind (below_answer fun _ _ _ => trivial) fun metadata _ => ?_
    split
    · exact keeps_pure trivial
    · have names : StaysIn allowed (readNames w "failed to inspect remote folder: " path)
          (fun _ => True) := by
        refine keeps_bind below_request fun now _ => ?_
        exact keeps_bind (below_orFail fun _ _ => trivial) fun _ _ => keeps_pure trivial
      refine keeps_bind names fun names _ => ?_
      induction names with
      | nil => exact keeps_pure trivial
      | cons name rest later =>
        exact keeps_bind (ih _) fun _ _ => keeps_bind later fun _ _ => keeps_pure trivial
    · exact keeps_pure trivial

lemma below_downloadTo (descend : NamesDescend w) (behavior : SftpOverwriteBehavior) (fuel : Nat)
    (remotePath name : List Char) :
    StaysIn (target <+: ·) (downloadTo w behavior fuel remotePath name target) (fun _ => True) := by
  refine keeps_bind (below_timeout (below_remoteTransferSize fuel remotePath)) fun _ _ => ?_
  refine keeps_bind (below_quiet (f := fun s => { s with
    summary := ⟨name, 0, 0, 0⟩, transferredBytes := 0 }) (fun _ => rfl) (fun _ => ())) fun _ _ => ?_
  refine keeps_bind
    (below_downloadRemoteEntry descend behavior fuel remotePath prefix_rfl) fun _ _ => ?_
  exact below_quiet (f := id) (fun _ => rfl) _

lemma below_localTarget (w : World) (remotePath localDirectory : List Char) :
    StaysIn allowed (localTarget w remotePath localDirectory) (fun found =>
      ∃ directory, w.canonicalize (chosenPath localDirectory) = .ok directory ∧
        remotePathName remotePath = .ok found.1 ∧ found.2 = w.join directory found.1) := by
  have resolved : StaysIn allowed (resolveLocalDirectory w localDirectory) (fun directory =>
      w.canonicalize (chosenPath localDirectory) = .ok directory) := by
    refine keeps_bind (below_orFail fun directory found => found) fun directory found => ?_
    refine keeps_bind (below_look _) fun folder _ => ?_
    split
    · exact keeps_pure found
    · exact below_fail _
  refine keeps_bind resolved fun directory found => ?_
  refine keeps_bind (below_orFail fun name named => named) fun name named => ?_
  exact keeps_pure ⟨directory, found, named, rfl⟩

/-- In every download from a server without names that lead out, everything that is created,
truncated, written or removed is the target or below it, however the download ends. -/
theorem served_files_stay_below (w : World) (descend : NamesDescend w)
    (behavior : SftpOverwriteBehavior) (fuel : Nat) (remotePath localDirectory : List Char) :
    ∀ change ∈ (after (downloadPath w behavior fuel remotePath localDirectory)
        State.initial).2.changes,
      ∃ directory name, w.canonicalize (chosenPath localDirectory) = .ok directory ∧
        remotePathName (normalizePath remotePath) = .ok name ∧
        w.join directory name <+: change.path := by
  -- Nothing is changed before the target is known.
  have start : Confined (fun _ => False) State.initial := fun _ member => nomatch member
  obtain ⟨nothing, returns⟩ :=
    below_localTarget w (normalizePath remotePath) localDirectory State.initial start
  intro change member
  rw [downloadPath, after_bind] at member
  rcases run : after (localTarget w (normalizePath remotePath) localDirectory) State.initial
    with ⟨e | ⟨name, target⟩, s⟩
  · rw [run] at member nothing
    exact (nothing change member).elim
  · rw [run] at member nothing returns
    obtain ⟨directory, resolved, named, joined⟩ := returns _ rfl
    change remotePathName (normalizePath remotePath) = .ok name at named
    obtain rfl : target = w.join directory name := joined
    have unchanged : Confined (w.join directory name <+: ·) s :=
      fun other before => (nothing other before).elim
    refine ⟨directory, name, resolved, named, ?_⟩
    exact (below_downloadTo descend behavior fuel (normalizePath remotePath) name s unchanged).1
      change member

end Confinement

section Example

/-- A server with one folder, which has this name in it, and a local directory that is there. -/
def oneName (platform : Platform) (directory : Path) (name : List Char) : World where
  platform
  current _ := []
  lowercase := Text.asciiLower
  canonicalize _ := .ok directory
  displayLocalPath path := List.intercalate ['/'] path
  cancelled _ := false
  timedOut _ := false
  metadata _ path := .ok (if path = "pub".toList then ⟨.dir, none⟩ else ⟨.file, some 0⟩)
  readDir _ _ := .ok [['.'], ['.', '.'], name]
  openRemote _ _ := .ok ()
  readRemote _ := .ok 0
  shutdown _ := .ok ()
  pathExists _ _ := false
  isDir _ path := path = directory
  change _ _ := .ok ()

def changedPaths (w : World) : List Path :=
  (after (downloadPath w .fail 3 "pub".toList "dl".toList) State.initial).2.changes.map Change.path

theorem plain_name_stays_below :
    NamesDescend (oneName .linux ["dl".toList] "a..b".toList) ∧
    ∀ change ∈ (after (downloadPath (oneName .linux ["dl".toList] "a..b".toList) .fail 3
        "pub".toList "dl".toList) State.initial).2.changes,
      ∃ directory name, (oneName .linux ["dl".toList] "a..b".toList).canonicalize
          (chosenPath "dl".toList) = .ok directory ∧
        remotePathName (normalizePath "pub".toList) = .ok name ∧
        (oneName .linux ["dl".toList] "a..b".toList).join directory name <+: change.path := by
  have descend : NamesDescend (oneName .linux ["dl".toList] "a..b".toList) := by
    rintro now path names name ⟨⟩ member no_dots
    rw [mem_cons, mem_cons, mem_singleton] at member
    rcases member with rfl | rfl | rfl
    · cases no_dots
    · cases no_dots
    · decide +kernel
  exact ⟨descend, served_files_stay_below _ descend .fail 3 "pub".toList "dl".toList⟩

/-- A name that climbs and an absolute one, and on Windows one with a drive and one with
backslashes. -/
theorem names_lead_out :
    ["etc".toList, "evil".toList] ∈
      changedPaths (oneName .linux ["dl".toList] "../../etc/evil".toList) ∧
    ["etc".toList, "evil".toList] ∈ changedPaths (oneName .linux ["dl".toList] "/etc/evil".toList) ∧
    ["D:".toList, "evil".toList] ∈
      changedPaths (oneName .windows ["C:".toList, "dl".toList] "D:\\evil".toList) ∧
    ["C:".toList, "evil".toList] ∈
      changedPaths (oneName .windows ["C:".toList, "dl".toList] "..\\..\\evil".toList) ∧
    ¬ ["dl".toList, "pub".toList] <+: ["etc".toList, "evil".toList] ∧
    ¬ ["C:".toList, "dl".toList, "pub".toList] <+: ["D:".toList, "evil".toList] ∧
    ¬ ["C:".toList, "dl".toList, "pub".toList] <+: ["C:".toList, "evil".toList] := by
  decide +kernel

end Example

end Sftp
