import KKTerm.Library.Paths
import KKTerm.LocalFiles.Compare
import Mathlib.Data.List.Perm.Basic

/-!
# The rows of a comparison

The rows are the first of the merged entries in pre-order. A pair of files is judged by its
sizes and contents or times, a folder by the rows below it. What the result says about the
comparison is exact unless the number of entries is just the greatest one, or the times of
large files differ by less than can be told.
-/

namespace FolderCompare

open Text
open Option hiding any_eq_false map_map mem_map mem_map_of_mem
open Paths List

section Reading
variable (amount amountLeft amountRight : Nat → Nat) {turns room : Nat}

lemma read_spec (room : Nat) (f : OpenFile) :
    ∃ n, (f.read amount room).1 = f.rest.take n ∧ (f.read amount room).2.rest = f.rest.drop n ∧
      n ≤ room ∧ n ≤ f.rest.length ∧ (n = 0 → room = 0 ∨ f.rest = []) := by
  refine ⟨_, rfl, rfl, ?_⟩
  split_ifs with nothing
  · refine ⟨Nat.zero_le _, Nat.zero_le _, fun _ => ?_⟩
    rcases Nat.min_eq_zero_iff.mp nothing with none_ | ended
    · exact .inl none_
    · exact .inr (length_eq_zero_iff.mp ended)
  · have less := Nat.mod_lt (amount f.tick) (Nat.pos_of_ne_zero nothing)
    refine ⟨by omega, by omega, nofun⟩

/-- However little each read returns, the buffer is filled or the file is at its end. -/
lemma readFull_spec (enough : room ≤ turns) (f : OpenFile) :
    (readFull amount turns room f).1 = f.rest.take room ∧
      (readFull amount turns room f).2.rest = f.rest.drop room := by
  induction turns generalizing room f with
  | zero =>
    obtain rfl := Nat.le_zero.mp enough
    exact ⟨rfl, rfl⟩
  | succ turns ih =>
    rw [readFull]
    split_ifs with none_
    · rw [none_]
      exact ⟨rfl, rfl⟩
    · obtain ⟨n, got, left_, small, inside, zero⟩ := read_spec amount room f
      dsimp only
      rw [got]
      split_ifs with nothing
      · have ended : f.rest = [] := by
          rcases take_eq_nil_iff.mp nothing with n_zero | ended
          · exact (zero n_zero).resolve_left none_
          · exact ended
        rw [left_, ended]
        simp
      · have some_ : n ≠ 0 := by
          rintro rfl
          exact nothing rfl
        rw [length_take, Nat.min_eq_left inside]
        obtain ⟨more, behind⟩ := ih (by omega : room - n ≤ turns) (f.read amount room).2
        refine ⟨?_, ?_⟩
        · change f.rest.take n ++ (readFull amount turns (room - n) (f.read amount room).2).1 = _
          rw [more, left_, ← take_add, Nat.add_sub_cancel' small]
        · change (readFull amount turns (room - n) (f.read amount room).2).2.rest = _
          rw [behind, left_, drop_drop, Nat.add_sub_cancel' small]

lemma compareChunks_eq {left right : OpenFile} (same : left.rest.length = right.rest.length)
    (enough : left.rest.length < turns) :
    compareChunks amountLeft amountRight turns left right = decide (left.rest = right.rest) := by
  induction turns generalizing left right with
  | zero => exact absurd enough (Nat.not_lt_zero _)
  | succ turns ih =>
    obtain ⟨gotLeft, restLeft⟩ := readFull_spec amountLeft (Nat.le_refl transferChunkSize) left
    obtain ⟨gotRight, restRight⟩ := readFull_spec amountRight (Nat.le_refl transferChunkSize) right
    have some_ : 0 < transferChunkSize := by decide
    have lengths : (left.rest.take transferChunkSize).length =
        (right.rest.take transferChunkSize).length := by
      rw [length_take, length_take, same]
    rw [compareChunks]
    dsimp only
    rw [gotLeft, gotRight, if_neg (not_not_intro lengths)]
    split_ifs with ended differ
    · rw [length_take] at ended
      have left_nil : left.rest = [] := length_eq_zero_iff.mp (by omega)
      have right_nil : right.rest = [] := length_eq_zero_iff.mp (by omega)
      rw [left_nil, right_nil]
      rfl
    · refine (decide_eq_false fun whole => differ ?_).symm
      rw [whole]
    · rw [length_take] at ended
      rw [not_not] at differ
      rw [ih (by rw [restLeft, restRight, length_drop, length_drop, same])
        (by rw [restLeft, length_drop]; omega), restLeft, restRight, decide_eq_decide]
      refine ⟨fun rest => ?_, fun whole => by rw [whole]⟩
      rw [← take_append_drop transferChunkSize left.rest, differ, rest, take_append_drop]

lemma filesEqual_iff {left right : Node} :
    (filesEqual amountLeft amountRight left right).getD false = true ↔
      ∃ bytes, left.content = some bytes ∧ right.content = some bytes := by
  rw [filesEqual]
  cases leftContent : left.content with
  | none => exact iff_of_false nofun (fun ⟨_, none_, _⟩ => nomatch none_)
  | some l =>
    cases rightContent : right.content with
    | none => exact iff_of_false nofun (fun ⟨_, _, none_⟩ => nomatch none_)
    | some r =>
      simp only [bind_eq_bind, bind_some, Option.some.injEq, exists_eq_left']
      split_ifs with differ
      · refine iff_of_false Bool.false_ne_true ?_
        rintro rfl
        exact differ rfl
      · have chunks : compareChunks amountLeft amountRight (l.length + 1) ⟨l, 0⟩ ⟨r, 0⟩ =
            decide (l = r) :=
          compareChunks_eq amountLeft amountRight (not_not.mp differ) (Nat.lt_succ_self _)
        rw [getD_some, chunks, decide_eq_true_eq]
        exact eq_comm

end Reading

/-- What the code takes for the same file. -/
def Told (left right : Node) : Prop :=
  left.size = right.size ∧
    if folderCompareMaxContentBytes < left.size then
      unixTimestamp left.modified = unixTimestamp right.modified
    else ∃ bytes, left.content = some bytes ∧ right.content = some bytes

lemma fileEntriesSame_iff (amountLeft amountRight : Nat → Nat) {left right : Node}
    (file : left.isDir = false) (file' : right.isDir = false) :
    fileEntriesSame amountLeft amountRight (levelEntry left) (levelEntry right) = true ↔
      Told left right := by
  have size : (levelEntry left).size = some left.size := by
    rw [levelEntry, file]
    rfl
  have size' : (levelEntry right).size = some right.size := by
    rw [levelEntry, file']
    rfl
  rw [fileEntriesSame, size, size', Told, getD_some]
  by_cases differ : left.size = right.size
  · rw [if_neg (not_not_intro (congrArg some differ)), and_iff_right differ]
    split_ifs with large
    · exact decide_eq_true_iff
    · exact filesEqual_iff _ _
  · rw [if_pos (fun same => differ (Option.some.inj same))]
    exact iff_of_false Bool.false_ne_true (fun told => differ told.1)

section Names
variable (lowercase : List Char → List Char) {left right : Option Folder} {name : List Char}

instance antisymm_notAfter :
    Std.Antisymm (fun a b : List Char => precedes b a = false) where
  antisymm a b first second := by
    by_contra differ
    have before := precedes_of_not (Bool.eq_false_iff.mp first) differ
    rw [second] at before
    cases before

instance total_notAfter : Std.Total (fun a b : List Char => precedes b a = false) where
  total a b := by
    cases after_ : precedes b a with
    | false => exact .inl rfl
    | true =>
      refine .inr (Bool.eq_false_iff.mpr fun before => ?_)
      exact precedes_ne (precedes_trans before after_) rfl

instance trans_notAfter : IsTrans (List Char) (fun a b => precedes b a = false) where
  trans a b c first second := by
    refine Bool.eq_false_iff.mpr fun before => ?_
    rcases eq_or_ne b c with rfl | differ
    · rw [before] at first
      cases first
    · have after_ := precedes_of_not (Bool.eq_false_iff.mp second) differ
      rw [precedes_trans after_ before] at first
      cases first

lemma mergedNames_perm :
    (mergedNames lowercase left right).Perm ((namesOf left ++ namesOf right).insertionSort
        (fun a b => precedes b a = false)).dedup := by
  have sorted := pairwise_insertionSort (fun a b => precedes b a = false)
    (namesOf left ++ namesOf right)
  rw [mergedNames, sorted.destutter_eq_dedup]
  exact perm_insertionSort _ _

lemma mergedNames_nodup : (mergedNames lowercase left right).Nodup :=
  (mergedNames_perm lowercase).nodup_iff.mpr (nodup_dedup _)

lemma mem_namesOf {folder : Option Folder} :
    name ∈ namesOf folder ↔ folder.bind (lookup name) ≠ none := by
  cases folder with
  | none => exact iff_of_false not_mem_nil (fun some_ => some_ rfl)
  | some entries =>
    rw [namesOf, getD_some, bind_some]
    induction entries with
    | nil => exact iff_of_false not_mem_nil (fun some_ => some_ rfl)
    | cons entry entries ih =>
      rw [map_cons, mem_cons, lookup_cons]
      by_cases here : name = entry.1
      · rw [here, beq_self_eq_true]
        exact iff_of_true (.inl rfl) nofun
      · rw [beq_false_of_ne here, ih]
        exact or_iff_right here

lemma mem_mergedNames :
    name ∈ mergedNames lowercase left right ↔
      left.bind (lookup name) ≠ none ∨ right.bind (lookup name) ≠ none := by
  rw [(mergedNames_perm lowercase).mem_iff, mem_dedup, mem_insertionSort,
    mem_append, mem_namesOf, mem_namesOf]

end Names

/-- What a path of names names in a folder. -/
def find (folder : Option Folder) : Path → Option Node
  | [] => none
  | [name] => folder.bind (List.lookup name)
  | name :: next :: rest => find ((folder.bind (List.lookup name)).bind Node.entries) (next :: rest)

def enter (folder : Option Folder) (name : List Char) : Option Folder :=
  (folder.bind (List.lookup name)).bind Node.entries

/-- The paths of both folders, in the order in which they are merged. -/
def mergedPaths (lowercase : List Char → List Char) :
    Nat → Option Folder → Option Folder → List Path
  | 0, _, _ => []
  | fuel + 1, left, right => (mergedNames lowercase left right).flatMap fun name =>
    [name] :: (mergedPaths lowercase fuel (enter left name) (enter right name)).map (name :: ·)

/-- Each name is followed by the paths below it, and no other path begins with it. -/
inductive PreOrder : List Path → Prop where
  | nil : PreOrder []
  | cons (name : List Char) {inside rest : List Path} : PreOrder inside →
    (∀ p ∈ rest, p.head? ≠ some name) → PreOrder rest →
    PreOrder (([name] :: inside.map (name :: ·)) ++ rest)

/-- No folder needs more nested calls than this. -/
noncomputable def weight (folder : Option Folder) : Nat :=
  folder.elim 0 sizeOf

section Tree
variable (lowercase : List Char → List Char) {left right folder : Option Folder}
  {name : List Char} {p : Path} {fuel : Nat}

lemma find_cons (some_ : p ≠ []) : find folder (name :: p) = find (enter folder name) p := by
  obtain ⟨next, rest, rfl⟩ := exists_cons_of_ne_nil some_
  rfl

lemma find_eq_none_of_none (p : Path) : find none p = none := by
  induction p with
  | nil => rfl
  | cons name rest ih =>
    cases rest with
    | nil => rfl
    | cons next rest => exact ih

lemma sizeOf_lookup {entries : Folder} {node : Node} (found : entries.lookup name = some node) :
    sizeOf node < sizeOf entries := by
  induction entries with
  | nil => cases found
  | cons entry entries ih =>
    obtain ⟨own, held⟩ := entry
    rw [lookup_cons] at found
    split at found
    · cases found
      simp only [List.cons.sizeOf_spec, Prod.mk.sizeOf_spec]
      omega
    · have later := ih found
      simp only [List.cons.sizeOf_spec]
      omega

lemma weight_enter (folder : Option Folder) (name : List Char) :
    weight (enter folder name) ≤ weight folder ∧
      (folder.bind (lookup name) ≠ none → weight (enter folder name) < weight folder) := by
  cases folder with
  | none => exact ⟨Nat.le_refl _, fun some_ => absurd rfl some_⟩
  | some entries =>
    rw [enter, bind_some]
    cases found : entries.lookup name with
    | none => exact ⟨Nat.zero_le _, fun some_ => absurd rfl some_⟩
    | some node =>
      have lighter := sizeOf_lookup found
      have less : weight (node.entries) < weight (some entries) := by
        cases node with
        | file content modified => exact Nat.zero_lt_of_lt lighter
        | link size modified target => exact Nat.zero_lt_of_lt lighter
        | dir modified below_ =>
          rw [Node.dir.sizeOf_spec] at lighter
          change sizeOf below_ < sizeOf entries
          omega
      exact ⟨less.le, fun _ => less⟩

lemma weight_enter_lt (member : name ∈ mergedNames lowercase left right) :
    weight (enter left name) + weight (enter right name) < weight left + weight right := by
  obtain ⟨leftLe, leftLt⟩ := weight_enter left name
  obtain ⟨rightLe, rightLt⟩ := weight_enter right name
  rcases (mem_mergedNames lowercase).mp member with here | there
  · have less := leftLt here
    omega
  · have less := rightLt there
    omega

lemma ne_nil_of_mem_mergedPaths (member : p ∈ mergedPaths lowercase fuel left right) :
    ∃ name ∈ mergedNames lowercase left right, ∃ rest, p = name :: rest := by
  cases fuel with
  | zero => cases member
  | succ fuel =>
    obtain ⟨name, listed, own⟩ := mem_flatMap.mp member
    rcases mem_cons.mp own with rfl | inside
    · exact ⟨name, listed, [], rfl⟩
    · obtain ⟨rest, -, rfl⟩ := mem_map.mp inside
      exact ⟨name, listed, rest, rfl⟩

lemma mem_mergedPaths (enough : weight left + weight right < fuel) :
    p ∈ mergedPaths lowercase fuel left right ↔ find left p ≠ none ∨ find right p ≠ none := by
  induction p generalizing left right fuel with
  | nil =>
    refine iff_of_false (fun member => ?_) (fun either => either.elim (· rfl) (· rfl))
    obtain ⟨name, -, rest, same⟩ := ne_nil_of_mem_mergedPaths lowercase member
    cases same
  | cons name rest ih =>
    obtain ⟨fuel, rfl⟩ := Nat.exists_eq_succ_of_ne_zero (Nat.ne_of_gt (Nat.zero_lt_of_lt enough))
    have step : name :: rest ∈ mergedPaths lowercase (fuel + 1) left right ↔
        name ∈ mergedNames lowercase left right ∧
          (rest = [] ∨ rest ∈ mergedPaths lowercase fuel (enter left name) (enter right name)) := by
      rw [mergedPaths, mem_flatMap]
      constructor
      · rintro ⟨other, listed, own⟩
        rcases mem_cons.mp own with same | inside
        · cases same
          exact ⟨listed, .inl rfl⟩
        · obtain ⟨q, member, same⟩ := mem_map.mp inside
          cases same
          exact ⟨listed, .inr member⟩
      · rintro ⟨listed, own⟩
        refine ⟨name, listed, mem_cons.mpr ?_⟩
        rcases own with rfl | inside
        · exact .inl rfl
        · exact .inr (mem_map_of_mem inside)
    rw [step]
    by_cases last : rest = []
    · rw [last]
      exact (and_iff_left (.inl rfl)).trans (mem_mergedNames lowercase)
    · rw [or_iff_right last, find_cons last, find_cons last]
      by_cases listed : name ∈ mergedNames lowercase left right
      · have less := weight_enter_lt lowercase listed
        rw [and_iff_right listed]
        exact ih (by omega)
      · refine iff_of_false (fun both => listed both.1) ?_
        rw [mem_mergedNames, not_or, not_not, not_not] at listed
        rw [enter, enter, listed.1, listed.2]
        simp [find_eq_none_of_none]

lemma head?_of_mem {inside : List Path} (member : p ∈ [name] :: inside.map (name :: ·)) :
    p.head? = some name := by
  rcases mem_cons.mp member with rfl | deeper
  · rfl
  · obtain ⟨rest, -, rfl⟩ := mem_map.mp deeper
    rfl

lemma mergedPaths_preOrder (fuel : Nat) (left right : Option Folder) :
    PreOrder (mergedPaths lowercase fuel left right) := by
  induction fuel generalizing left right with
  | zero => exact .nil
  | succ fuel ih =>
    rw [mergedPaths]
    have distinct : (mergedNames lowercase left right).Nodup := mergedNames_nodup lowercase
    generalize mergedNames lowercase left right = names at distinct ⊢
    induction names with
    | nil => exact .nil
    | cons name names ihNames =>
      obtain ⟨other, distinct⟩ := nodup_cons.mp distinct
      rw [flatMap_cons]
      refine .cons name (ih _ _) (fun p member head => ?_) (ihNames distinct)
      obtain ⟨next, listed, own⟩ := mem_flatMap.mp member
      rw [head?_of_mem own] at head
      cases head
      exact other listed

lemma PreOrder.ne_nil {paths : List Path} (order : PreOrder paths) : ∀ p ∈ paths, p ≠ [] := by
  induction order with
  | nil => exact nofun
  | cons name _ _ _ _ later =>
    intro p member
    rcases mem_append.mp member with own | rest
    · rcases mem_cons.mp own with rfl | inside
      · exact cons_ne_nil name []
      · obtain ⟨q, -, rfl⟩ := mem_map.mp inside
        exact cons_ne_nil name q
    · exact later p rest

lemma PreOrder.nodup {paths : List Path} (order : PreOrder paths) : paths.Nodup := by
  induction order with
  | nil => exact nodup_nil
  | @cons name inside rest below_ apart _ ihInside ihRest =>
    rw [nodup_append, nodup_cons]
    refine ⟨⟨fun again => ?_, ihInside.map fun _ _ same => (List.cons.inj same).2⟩, ihRest, ?_⟩
    · obtain ⟨q, member, same⟩ := mem_map.mp again
      exact below_.ne_nil q member (List.cons.inj same).2
    · rintro p own _ other rfl
      exact apart p other (head?_of_mem own)

end Tree

def pathText (p : Path) : List Char :=
  ['/'].intercalate p

/-- The names of entries are not empty and have no slash. -/
def WellNamed (folder : Option Folder) : Prop :=
  ∀ p, find folder p ≠ none → ∀ name ∈ p, name ≠ [] ∧ '/' ∉ name

def side (node : Node) : FolderCompareSide :=
  ⟨if node.isDir then none else some node.size, unixTimestamp node.modified⟩

/-- The row of a path; a relation says which files are the same. -/
structure RowOf (Same : Node → Node → Prop) (left right : Option Folder) (p : Path)
    (row : FolderCompareRow) : Prop where
  path : row.relativePath = pathText p
  name : p.getLast? = some row.name
  depth : row.depth + 1 = p.length
  isDir : row.isDir = ((find left p).any Node.isDir || (find right p).any Node.isDir)
  leftSide : row.left = (find left p).map side
  rightSide : row.right = (find right p).map side
  rightOnly : find left p = none → row.status = .rightOnly
  leftOnly : find left p ≠ none → find right p = none → row.status = .leftOnly
  files : ∀ l r, find left p = some l → find right p = some r → l.isDir = false →
    r.isDir = false →
      (row.status = .same ↔ Same l r) ∧ (row.status ≠ .same → row.status = .different)

/-- A folder row with both sides is the same when both are folders and all rows below it are. -/
def Settled (left right : Option Folder) (made : List (Path × FolderCompareRow))
    (e : Path × FolderCompareRow) : Prop :=
  ∀ l r, find left e.1 = some l → find right e.1 = some r → (l.isDir || r.isDir) = true →
    (e.2.status = .same ↔ l.isDir = true ∧ r.isDir = true ∧
      ∀ e' ∈ made, e.1 <+: e'.1 → e'.1 ≠ e.1 → e'.2.status = .same) ∧
    (e.2.status ≠ .same → e.2.status = .different)

def FolderCompareSummary.plus (summary : FolderCompareSummary) (statuses : List Status) :
    FolderCompareSummary where
  same := summary.same + statuses.count .same
  different := summary.different + statuses.count .different
  leftOnly := summary.leftOnly + statuses.count .leftOnly
  rightOnly := summary.rightOnly + statuses.count .rightOnly

def statuses (made : List (Path × FolderCompareRow)) : List Status :=
  made.map (fun e => e.2.status)

/-- What a part of the walk makes of the paths below a place. -/
structure Makes (left right : Option Folder) (place : Path) (paths : List Path) (s s' : State)
    (differs : Bool) (made : List (Path × FolderCompareRow)) : Prop where
  rows : s'.rows = s.rows ++ made.map Prod.snd
  count : s'.count = s.count + made.length
  summary : s'.summary = s.summary.plus (statuses made)
  differs : differs = (statuses made).any (· ≠ .same)
  order : made.map Prod.fst =
    (paths.map (place ++ ·)).take (folderCompareMaxEntries - s.count)
  told : ∀ e ∈ made, RowOf Told left right e.1 e.2
  settled : ∀ e ∈ made, Settled left right made e

section Parts
variable {left right : Option Folder} {place : Path} {paths more : List Path} {s s' s'' : State}
  {differs differs' : Bool} {made next : List (Path × FolderCompareRow)}

variable (summary : FolderCompareSummary)

variable (first second : List Status)

lemma plus_append : summary.plus (first ++ second) = (summary.plus first).plus second := by
  simp only [FolderCompareSummary.plus, count_append, Nat.add_assoc]

lemma bump_eq (status : Status) : summary.bump status = summary.plus [status] := by
  cases status <;> rfl

lemma plus_comm : (summary.plus first).plus second = (summary.plus second).plus first := by
  simp only [FolderCompareSummary.plus, Nat.add_right_comm]

lemma statuses_append : statuses (made ++ next) = statuses made ++ statuses next :=
  map_append

lemma Makes.nil (full : folderCompareMaxEntries ≤ s.count ∨ paths = []) :
    Makes left right place paths s s false [] where
  rows := (append_nil _).symm
  count := rfl
  summary := rfl
  differs := rfl
  order := by
    rcases full with full | rfl
    · rw [Nat.sub_eq_zero_of_le full]
      rfl
    · exact take_nil.symm
  told := nofun
  settled := nofun

/-- Two parts after one another, none of whose paths leads below one of the other part. -/
lemma Makes.append (first : Makes left right place paths s s' differs made)
    (second : Makes left right place more s' s'' differs' next)
    (apart : ∀ e ∈ made, ∀ e' ∈ next, ¬ e.1 <+: e'.1 ∧ ¬ e'.1 <+: e.1) :
    Makes left right place (paths ++ more) s s'' (differs || differs') (made ++ next) where
  rows := by rw [second.rows, first.rows, map_append, append_assoc]
  count := by rw [second.count, first.count, length_append, Nat.add_assoc]
  summary := by rw [second.summary, first.summary, statuses_append, plus_append]
  differs := by rw [second.differs, first.differs, statuses_append, any_append]
  order := by
    have lengths := congrArg length first.order
    rw [length_map, length_take, length_map] at lengths
    have left_ : folderCompareMaxEntries - s'.count =
        folderCompareMaxEntries - s.count - paths.length := by
      rw [first.count, lengths]
      omega
    rw [map_append, first.order, second.order, left_, map_append, take_append, length_map]
  told := by
    intro e member
    exact (mem_append.mp member).elim (first.told e) (second.told e)
  settled := by
    intro e member l r hl hr folder
    rcases mem_append.mp member with here | there
    · obtain ⟨same, other⟩ := first.settled e here l r hl hr folder
      refine ⟨same.trans (and_congr_right fun _ => and_congr_right fun _ => ?_), other⟩
      refine ⟨fun all e' listed inside differ => ?_,
        fun all e' listed => all e' (mem_append_left _ listed)⟩
      rcases mem_append.mp listed with own | foreign
      · exact all e' own inside differ
      · exact absurd inside (apart e here e' foreign).1
    · obtain ⟨same, other⟩ := second.settled e there l r hl hr folder
      refine ⟨same.trans (and_congr_right fun _ => and_congr_right fun _ => ?_), other⟩
      refine ⟨fun all e' listed inside differ => ?_,
        fun all e' listed => all e' (mem_append_right _ listed)⟩
      rcases mem_append.mp listed with foreign | own
      · exact absurd inside (apart e' foreign e there).2
      · exact all e' own inside differ

lemma Makes.below (makes : Makes left right place paths s s' differs made)
    (names : List (List Char)) (heads : ∀ p ∈ paths, ∃ name ∈ names, p.head? = some name)
    {e : Path × FolderCompareRow} (member : e ∈ made) :
    ∃ name ∈ names, ∃ q, e.1 = place ++ name :: q := by
  have listed : e.1 ∈ made.map Prod.fst := mem_map_of_mem member
  rw [makes.order] at listed
  obtain ⟨p, own, path⟩ := mem_map.mp (mem_of_mem_take listed)
  obtain ⟨name, listed, head⟩ := heads p own
  obtain ⟨q, rfl⟩ := head?_eq_some_iff.mp head
  exact ⟨name, listed, q, path.symm⟩

end Parts

/-- A folder is what the path of a place leads to. -/
def Stands (root : Option Folder) (place : Path) (folder : Option Folder) : Prop :=
  ∀ p ≠ [], find root (place ++ p) = find folder p

section Walk
variable {lowercase : List Char → List Char} {amounts : Amounts}
  {rootLeft rootRight left right : Option Folder} {place : Path} {name : List Char} {s s' : State}

variable (found : Option Node)
  (visit : Option Folder → Option Folder → List Char → Nat → State → Option (Bool × State))
  {root folder : Option Folder} {status : Status} {fuel : Nat}

lemma Stands.enter (stands : Stands root place folder) (name : List Char) :
    Stands root (place ++ [name]) (FolderCompare.enter folder name) := by
  intro p some_
  rw [append_assoc, singleton_append, stands _ (cons_ne_nil name p), find_cons some_]

lemma pathText_singleton (name : List Char) : pathText [name] = name :=
  intercalate_singleton

lemma pathText_cons_cons (first second : List Char) (rest : Path) :
    pathText (first :: second :: rest) = first ++ '/' :: pathText (second :: rest) := by
  rw [pathText, intercalate_cons_cons, append_assoc]
  rfl

lemma pathText_concat {place : Path} (some_ : place ≠ []) (name : List Char) :
    pathText (place ++ [name]) = pathText place ++ '/' :: name := by
  induction place with
  | nil => exact absurd rfl some_
  | cons first rest ih =>
    cases rest with
    | nil => rw [singleton_append, pathText_cons_cons, pathText_singleton, pathText_singleton]
    | cons second rest =>
      have later := ih (cons_ne_nil second rest)
      calc pathText (first :: second :: (rest ++ [name]))
          = first ++ '/' :: pathText (second :: rest ++ [name]) := pathText_cons_cons _ _ _
        _ = first ++ '/' :: (pathText (second :: rest) ++ '/' :: name) := by rw [later]
        _ = pathText (first :: second :: rest) ++ '/' :: name := by
          rw [pathText_cons_cons, append_assoc, cons_append]

lemma joinRelative_eq (named : ∀ n ∈ place, n ≠ []) (name : List Char) :
    joinRelative (pathText place) name = pathText (place ++ [name]) := by
  cases place with
  | nil => exact (if_pos rfl).trans (pathText_singleton name).symm
  | cons first rest =>
    have some_ : pathText (first :: rest) ≠ [] := by
      cases rest with
      | nil =>
        rw [pathText_singleton]
        exact named first mem_cons_self
      | cons second rest =>
        rw [pathText_cons_cons]
        exact append_ne_nil_of_right_ne_nil _ (cons_ne_nil _ _)
    rw [joinRelative, if_neg some_, pathText_concat (cons_ne_nil first rest)]

lemma readLevelEntries_eq (stands : Stands root place folder) :
    readLevelEntries folder name = (find root (place ++ [name])).map levelEntry := by
  rw [stands _ (cons_ne_nil name [])]
  rfl

lemma any_isDir : (found.map levelEntry).any LevelEntry.isDir = found.any Node.isDir := by
  cases found <;> rfl

lemma sideOf_eq : sideOf (found.map levelEntry) = found.map side := by
  cases found <;> rfl

lemma subfolder_eq :
    subfolder (readLevelEntries folder name) = FolderCompare.enter folder name := by
  rw [readLevelEntries, FolderCompare.enter]
  cases folder.bind (lookup name) <;> rfl

/-- The row that is made of a path, up to its status. -/
def rowAt (left right : Option Folder) (place : Path) (name : List Char) (status : Status) :
    FolderCompareRow where
  relativePath := pathText (place ++ [name])
  name
  depth := place.length
  isDir := (find left (place ++ [name])).any Node.isDir ||
    (find right (place ++ [name])).any Node.isDir
  status
  left := (find left (place ++ [name])).map side
  right := (find right (place ++ [name])).map side

lemma rowOf_of_status {Same : Node → Node → Prop}
    (rightOnly : find rootLeft (place ++ [name]) = none → status = .rightOnly)
    (leftOnly : find rootLeft (place ++ [name]) ≠ none → find rootRight (place ++ [name]) = none →
      status = .leftOnly)
    (files : ∀ l r, find rootLeft (place ++ [name]) = some l →
      find rootRight (place ++ [name]) = some r → l.isDir = false → r.isDir = false →
      (status = .same ↔ Same l r) ∧ (status ≠ .same → status = .different)) :
    RowOf Same rootLeft rootRight (place ++ [name])
      (rowAt rootLeft rootRight place name status) where
  path := rfl
  name := getLast?_concat
  depth := by
    rw [length_append]
    rfl
  isDir := rfl
  leftSide := rfl
  rightSide := rfl
  rightOnly
  leftOnly
  files

lemma fileStatus_spec (amounts : Amounts) (path : List Char) (l r : Option Node) :
    (l = none → r ≠ none →
      fileStatus amounts path (l.map levelEntry) (r.map levelEntry) = .rightOnly) ∧
    (l ≠ none → r = none →
      fileStatus amounts path (l.map levelEntry) (r.map levelEntry) = .leftOnly) ∧
    ∀ left right, l = some left → r = some right → left.isDir = false → right.isDir = false →
      (fileStatus amounts path (l.map levelEntry) (r.map levelEntry) = .same ↔ Told left right) ∧
      (fileStatus amounts path (l.map levelEntry) (r.map levelEntry) ≠ .same →
        fileStatus amounts path (l.map levelEntry) (r.map levelEntry) = .different) := by
  refine ⟨?_, ?_, ?_⟩
  · rintro rfl some_
    obtain ⟨right, rfl⟩ := ne_none_iff_exists'.mp some_
    rfl
  · rintro some_ rfl
    obtain ⟨left, rfl⟩ := ne_none_iff_exists'.mp some_
    rfl
  · rintro left right rfl rfl file file'
    rw [map_some, map_some, fileStatus,
      ← fileEntriesSame_iff (amounts path true) (amounts path false) file file']
    split_ifs with told
    · exact ⟨iff_of_true rfl told, fun other => absurd rfl other⟩
    · exact ⟨iff_of_false nofun told, fun _ => rfl⟩

lemma folderStatus_spec (l r : Option Node) (subtreeDiffers : Bool) :
    (l = none → folderStatus (l.map levelEntry) (r.map levelEntry) subtreeDiffers = .rightOnly) ∧
    (l ≠ none → r = none →
      folderStatus (l.map levelEntry) (r.map levelEntry) subtreeDiffers = .leftOnly) ∧
    ∀ left right, l = some left → r = some right →
      (folderStatus (l.map levelEntry) (r.map levelEntry) subtreeDiffers = .same ↔
        left.isDir = right.isDir ∧ subtreeDiffers = false) ∧
      (folderStatus (l.map levelEntry) (r.map levelEntry) subtreeDiffers ≠ .same →
        folderStatus (l.map levelEntry) (r.map levelEntry) subtreeDiffers = .different) := by
  refine ⟨?_, ?_, ?_⟩
  · rintro rfl
    rfl
  · rintro some_ rfl
    obtain ⟨left, rfl⟩ := ne_none_iff_exists'.mp some_
    rfl
  · rintro left right rfl rfl
    have spelt : folderStatus (Option.map levelEntry (some left))
        (Option.map levelEntry (some right)) subtreeDiffers =
        if subtreeDiffers || left.isDir != right.isDir then .different else .same := rfl
    rw [spelt]
    split_ifs with differs
    · refine ⟨iff_of_false nofun ?_, fun _ => rfl⟩
      rintro ⟨kinds, rfl⟩
      rw [kinds] at differs
      simp at differs
    · refine ⟨iff_of_true rfl ?_, fun other => absurd rfl other⟩
      simpa [and_comm] using differs

lemma any_eq_true_iff (list : List Status) :
    list.any (· ≠ .same) = false ↔ ∀ status ∈ list, status = .same := by
  simp [any_eq_false]

lemma makes_file {row : FolderCompareRow} (room : s.count < folderCompareMaxEntries)
    (told : RowOf Told rootLeft rootRight (place ++ [name]) row)
    (file : ((find rootLeft (place ++ [name])).any Node.isDir ||
      (find rootRight (place ++ [name])).any Node.isDir) = false) :
    Makes rootLeft rootRight place [[name]] s
      ⟨s.rows ++ [row], s.summary.bump row.status, s.count + 1⟩ (row.status ≠ .same)
      [(place ++ [name], row)] where
  rows := rfl
  count := rfl
  summary := bump_eq _ _
  differs := (Bool.or_false _).symm
  order := by
    have one : [place ++ [name]].length ≤ folderCompareMaxEntries - s.count := by
      rw [length_singleton]
      omega
    exact (take_of_length_le one).symm
  told := by
    intro e member
    cases mem_singleton.mp member
    exact told
  settled := by
    intro e member l r hl hr folder
    cases mem_singleton.mp member
    rw [hl, hr] at file
    exact absurd (file.symm.trans folder) Bool.false_ne_true

lemma makes_folder {row : Status → FolderCompareRow} {paths : List Path} {below_ : State}
    {subtreeDiffers : Bool} {made : List (Path × FolderCompareRow)}
    (shown : ∀ status, (row status).status = status) (room : s.count < folderCompareMaxEntries)
    (inside : Makes rootLeft rootRight (place ++ [name]) paths
      ⟨s.rows ++ [row .same], s.summary, s.count + 1⟩ below_ subtreeDiffers made)
    (proper : ∀ p ∈ paths, p ≠ []) (differs : subtreeDiffers = true → status ≠ .same)
    (told : RowOf Told rootLeft rootRight (place ++ [name]) (row status))
    (judged : ∀ l r, find rootLeft (place ++ [name]) = some l →
      find rootRight (place ++ [name]) = some r →
      (status = .same ↔ l.isDir = r.isDir ∧ subtreeDiffers = false) ∧
        (status ≠ .same → status = .different)) :
    Makes rootLeft rootRight place ([name] :: paths.map (name :: ·)) s { below_ with
        rows := below_.rows.set s.rows.length (row status), summary := below_.summary.bump status }
      (status ≠ .same) ((place ++ [name], row status) :: made) where
  rows := by
    rw [inside.rows, append_assoc, set_append_right _ _ (Nat.le_refl _), Nat.sub_self]
    rfl
  count := by
    rw [length_cons, inside.count, Nat.add_assoc, Nat.add_comm 1]
  summary := by
    have spelt : statuses ((place ++ [name], row status) :: made) = [status] ++ statuses made := by
      rw [statuses, map_cons, shown]
      rfl
    change below_.summary.bump status = _
    rw [spelt, plus_append, bump_eq, inside.summary, plus_comm]
  differs := by
    rw [statuses, map_cons, any_cons, shown]
    have below_differs := inside.differs
    rw [statuses] at below_differs
    rw [← below_differs]
    cases subtreeDiffers with
    | false => exact (Bool.or_false _).symm
    | true => rw [decide_eq_true (differs rfl), Bool.true_or]
  order := by
    have left_ : folderCompareMaxEntries - s.count =
        (folderCompareMaxEntries - (s.count + 1)) + 1 := by omega
    rw [map_cons, inside.order, left_, map_cons, take_succ_cons, map_map]
    refine congrArg (fun rest => _ :: take _ rest) (map_congr_left fun p _ => ?_)
    rw [append_assoc]
    rfl
  told := by
    intro e member
    rcases mem_cons.mp member with rfl | later
    · exact told
    · exact inside.told e later
  settled := by
    have deeper : ∀ e ∈ made, ∃ p ≠ [], e.1 = place ++ [name] ++ p := by
      intro e member
      have listed : e.1 ∈ made.map Prod.fst := mem_map_of_mem member
      rw [inside.order] at listed
      obtain ⟨p, own, same⟩ := mem_map.mp (mem_of_mem_take listed)
      exact ⟨p, proper p own, same.symm⟩
    intro e member l r hl hr folder
    rcases mem_cons.mp member with rfl | later
    · obtain ⟨same, other⟩ := judged l r hl hr
      rw [shown]
      refine ⟨same.trans ?_, other⟩
      rw [inside.differs, any_eq_true_iff]
      constructor
      · rintro ⟨kinds, all⟩
        rw [kinds, Bool.or_self] at folder
        refine ⟨kinds.trans folder, folder, fun e' listed _ differ => ?_⟩
        rcases mem_cons.mp listed with rfl | below_
        · exact absurd rfl differ
        · exact all _ (mem_map_of_mem below_)
      · rintro ⟨isLeft, isRight, all⟩
        refine ⟨isLeft.trans isRight.symm, fun status listed => ?_⟩
        obtain ⟨e', below_, rfl⟩ := mem_map.mp listed
        obtain ⟨p, some_, path⟩ := deeper e' below_
        refine all e' (mem_cons_of_mem _ below_) ⟨p, path.symm⟩ fun same => some_ ?_
        rw [path] at same
        exact append_right_eq_self.mp same
    · obtain ⟨same, other⟩ := inside.settled e later l r hl hr folder
      refine ⟨same.trans (and_congr_right fun _ => and_congr_right fun _ => ?_), other⟩
      refine ⟨fun all e' listed above differ => ?_,
        fun all e' listed => all e' (mem_cons_of_mem _ listed)⟩
      rcases mem_cons.mp listed with rfl | own
      · obtain ⟨p, some_, path⟩ := deeper e later
        have shorter : e.1.length ≤ (place ++ [name]).length := above.length_le
        rw [path, @length_append _ _ p] at shorter
        exact absurd (length_eq_zero_iff.mp (by omega : p.length = 0)) some_
      · exact all e' own above differ

lemma mergedPaths_none (fuel : Nat) : mergedPaths lowercase fuel none none = [] := by
  cases fuel with
  | zero => rfl
  | succ fuel =>
    have none_ : mergedNames lowercase none none = [] := rfl
    rw [mergedPaths, none_, flatMap_nil]

lemma entries_of_not_dir {found : Option Node} (file : found.any Node.isDir = false) :
    found.bind Node.entries = none := by
  cases found with
  | none => rfl
  | some node =>
    cases node with
    | file content modified => rfl
    | link size modified target => rfl
    | dir modified entries => cases file

lemma compareName_makes (standsLeft : Stands rootLeft place left)
    (standsRight : Stands rootRight place right) (named : ∀ n ∈ place, n ≠ [])
    (listed : name ∈ mergedNames lowercase left right) (room : s.count < folderCompareMaxEntries)
    (inside : ∀ s, ∃ differs s' made,
      visit (enter left name) (enter right name) (pathText (place ++ [name])) (place.length + 1) s =
          some (differs, s') ∧
        Makes rootLeft rootRight (place ++ [name])
          (mergedPaths lowercase fuel (enter left name) (enter right name)) s s' differs made) :
    ∃ status s' made, compareName amounts visit left right (pathText place) place.length name
          { s with count := s.count + 1 } = some (status, s') ∧
        Makes rootLeft rootRight place
          ([name] :: (mergedPaths lowercase fuel (enter left name) (enter right name)).map
            (name :: ·)) s s' (status ≠ .same) made := by
  have foundLeft : left.bind (lookup name) = find rootLeft (place ++ [name]) :=
    (standsLeft _ (cons_ne_nil name [])).symm
  have foundRight : right.bind (lookup name) = find rootRight (place ++ [name]) :=
    (standsRight _ (cons_ne_nil name [])).symm
  have present := (mem_mergedNames lowercase).mp listed
  rw [foundLeft, foundRight] at present
  rw [compareName]
  simp only [subfolder_eq]
  rw [joinRelative_eq named, readLevelEntries_eq standsLeft, readLevelEntries_eq standsRight,
    any_isDir, any_isDir, sideOf_eq, sideOf_eq]
  rcases Bool.eq_false_or_eq_true ((find rootLeft (place ++ [name])).any Node.isDir ||
      (find rootRight (place ++ [name])).any Node.isDir) with folder | folder
  · obtain ⟨subtreeDiffers, below_, made, called, makes⟩ := inside
      ⟨s.rows ++ [rowAt rootLeft rootRight place name .same], s.summary, s.count + 1⟩
    obtain ⟨onlyRight, onlyLeft, both⟩ := folderStatus_spec (find rootLeft (place ++ [name]))
      (find rootRight (place ++ [name])) subtreeDiffers
    have told : RowOf Told rootLeft rootRight (place ++ [name])
        (rowAt rootLeft rootRight place name (folderStatus
          ((find rootLeft (place ++ [name])).map levelEntry)
          ((find rootRight (place ++ [name])).map levelEntry) subtreeDiffers)) := by
      refine rowOf_of_status onlyRight onlyLeft fun l r hl hr file file' => ?_
      rw [hl, hr, any_some, any_some, file, file'] at folder
      cases folder
    have differs : subtreeDiffers = true → folderStatus
        ((find rootLeft (place ++ [name])).map levelEntry)
        ((find rootRight (place ++ [name])).map levelEntry) subtreeDiffers ≠ .same := by
      intro differs same
      cases hl : find rootLeft (place ++ [name]) with
      | none => cases (onlyRight hl).symm.trans same
      | some l =>
        have some_ : find rootLeft (place ++ [name]) ≠ none := hl ▸ some_ne_none l
        cases hr : find rootRight (place ++ [name]) with
        | none => cases (onlyLeft some_ hr).symm.trans same
        | some r => cases differs.symm.trans ((both l r hl hr).1.mp same).2
    have whole := makes_folder (fun _ => rfl) room makes
      (mergedPaths_preOrder lowercase _ _ _).ne_nil differs told both
    refine ⟨_, _, _, ?_, whole⟩
    rw [if_pos folder]
    change (visit _ _ _ _ ⟨s.rows ++ [rowAt rootLeft rootRight place name .same], s.summary,
      s.count + 1⟩).bind _ = _
    rw [called]
    rfl
  · obtain ⟨fileLeft, fileRight⟩ := Bool.or_eq_false_iff.mp folder
    have leaf : mergedPaths lowercase fuel (enter left name) (enter right name) = [] := by
      rw [enter, enter, foundLeft, foundRight, entries_of_not_dir fileLeft,
        entries_of_not_dir fileRight, mergedPaths_none]
    obtain ⟨onlyRight, onlyLeft, both⟩ := fileStatus_spec amounts (pathText (place ++ [name]))
      (find rootLeft (place ++ [name])) (find rootRight (place ++ [name]))
    have told := rowOf_of_status (fun none_ => onlyRight none_ (present.resolve_left (· none_)))
      onlyLeft both
    rw [leaf]
    refine ⟨_, _, _, ?_, makes_file room told folder⟩
    rw [if_neg (Bool.eq_false_iff.mp folder)]
    rfl

lemma compareNames_makes (standsLeft : Stands rootLeft place left)
    (standsRight : Stands rootRight place right) (named : ∀ n ∈ place, n ≠ [])
    (inside : ∀ name ∈ mergedNames lowercase left right, ∀ s, ∃ differs s' made,
      visit (enter left name) (enter right name) (pathText (place ++ [name])) (place.length + 1) s =
          some (differs, s') ∧
        Makes rootLeft rootRight (place ++ [name])
          (mergedPaths lowercase fuel (enter left name) (enter right name)) s s' differs made)
    {names : List (List Char)} (distinct : names.Nodup)
    (listed : ∀ name ∈ names, name ∈ mergedNames lowercase left right) (s : State) (before : Bool) :
    ∃ differs s' made,
      compareNames amounts visit left right (pathText place) place.length names before s =
          some (before || differs, s') ∧
        Makes rootLeft rootRight place (names.flatMap fun name =>
          [name] :: (mergedPaths lowercase fuel (enter left name) (enter right name)).map
            (name :: ·)) s s' differs made := by
  induction names generalizing s before with
  | nil => exact ⟨false, s, [], by rw [compareNames, Bool.or_false], .nil (.inr rfl)⟩
  | cons name names ih =>
    obtain ⟨here, later⟩ := forall_mem_cons.mp listed
    obtain ⟨apart, distinct⟩ := nodup_cons.mp distinct
    rw [compareNames]
    split_ifs with full
    · exact ⟨false, s, [], by rw [Bool.or_false], .nil (.inl full)⟩
    · obtain ⟨status, s', made, called, first⟩ := compareName_makes visit standsLeft standsRight
        named here (Nat.not_le.mp full) (inside name here)
      obtain ⟨differs, s'', next, goes_on, rest⟩ := ih distinct later s' (before || status ≠ .same)
      refine ⟨decide (status ≠ .same) || differs, s'', made ++ next, ?_, ?_⟩
      · rw [called, bind_eq_bind, bind_some, ← Bool.or_assoc]
        exact goes_on
      · rw [flatMap_cons]
        refine first.append rest fun e member e' member' => ?_
        obtain ⟨_, here, q, path⟩ := first.below [name]
          (fun p own => ⟨name, mem_singleton_self name, head?_of_mem own⟩) member
        obtain ⟨other, there, q', path'⟩ := rest.below names (fun p own => by
          obtain ⟨other, there, own⟩ := mem_flatMap.mp own
          exact ⟨other, there, head?_of_mem own⟩) member'
        rw [mem_singleton.mp here] at path
        rw [path, path', prefix_append_right_inj, prefix_append_right_inj,
          cons_prefix_cons, cons_prefix_cons]
        refine ⟨fun below_ => apart ?_, fun below_ => apart ?_⟩
        · rw [below_.1]
          exact there
        · rw [← below_.1]
          exact there

variable (lowercase amounts) in
lemma compareDirLevel_makes (named : WellNamed rootLeft) (named' : WellNamed rootRight)
    (standsLeft : Stands rootLeft place left) (standsRight : Stands rootRight place right)
    (proper : ∀ n ∈ place, n ≠ []) (enough : weight left + weight right < fuel) (s : State) :
    ∃ differs s' made,
      compareDirLevel lowercase amounts fuel left right (pathText place) place.length s =
          some (differs, s') ∧
        Makes rootLeft rootRight place (mergedPaths lowercase fuel left right) s s' differs
          made := by
  induction fuel generalizing place left right s with
  | zero => exact absurd enough (Nat.not_lt_zero _)
  | succ fuel ih =>
    rw [compareDirLevel, mergedPaths]
    have inside : ∀ name ∈ mergedNames lowercase left right, ∀ s, ∃ differs s' made,
        compareDirLevel lowercase amounts fuel (enter left name) (enter right name)
            (pathText (place ++ [name])) (place.length + 1) s = some (differs, s') ∧
          Makes rootLeft rootRight (place ++ [name])
            (mergedPaths lowercase fuel (enter left name) (enter right name)) s s' differs
            made := by
      intro name listed s
      have last : name ∈ place ++ [name] := mem_append_right _ (mem_singleton_self _)
      have single : [name] ≠ [] := cons_ne_nil name []
      have some_ : name ≠ [] := by
        rcases (mem_mergedNames lowercase).mp listed with here | there
        · exact (named _ (standsLeft _ single ▸ here) name last).1
        · exact (named' _ (standsRight _ single ▸ there) name last).1
      have less := weight_enter_lt lowercase listed
      have deeper := ih (standsLeft.enter name) (standsRight.enter name)
        (fun n member => (mem_append.mp member).elim (proper n) fun own =>
          mem_singleton.mp own ▸ some_) (by omega) s
      rw [length_append] at deeper
      exact deeper
    obtain ⟨differs, s', made, called, makes⟩ := compareNames_makes _ standsLeft standsRight proper
      inside (mergedNames_nodup lowercase) (fun _ listed => listed) s false
    exact ⟨differs, s', made, called, makes⟩

end Walk

end FolderCompare
