import KKTerm.LocalFiles.CompareRows

/-!
# When a comparison is exact

The rows, their statuses and their numbers are right for every pair of folders. Two things are
not always: entries count as left out as soon as the greatest number of rows is reached, and the
times of large files are compared in whole seconds since 1970.
-/

namespace FolderCompare

open Paths List FolderCompareRow

def Agree (left right : Node) : Prop :=
  left.size = right.size ∧
    if folderCompareMaxContentBytes < left.size then left.modified = right.modified
    else ∃ bytes, left.content = some bytes ∧ right.content = some bytes

/-- The times of large files of the same size differ by so much that it is seen. -/
def TimesTold (left right : Node) : Prop :=
  left.size = right.size → folderCompareMaxContentBytes < left.size →
    unixTimestamp left.modified = unixTimestamp right.modified → left.modified = right.modified

/-- The rows are those of the first paths; nothing is said that is not so. -/
structure Exact (left right : Option Folder) (paths : List Path) (result : FolderCompareResult) :
    Prop where
  listed : result.rows.length = min folderCompareMaxEntries paths.length
  told : ∀ e ∈ paths.zip result.rows, RowOf Agree left right e.1 e.2
  settled : ∀ e ∈ paths.zip result.rows, Settled left right (paths.zip result.rows) e
  once : (result.rows.map relativePath).Nodup
  truncated : result.truncated = true ↔ folderCompareMaxEntries < paths.length
  summary : result.summary =
    FolderCompareSummary.plus {} (result.rows.map status)

lemma told_iff_agree {left right : Node} :
    (Told left right ↔ Agree left right) ↔ TimesTold left right := by
  rw [Told, Agree, and_congr_right_iff, TimesTold]
  refine imp_congr_right fun _ => ?_
  split_ifs with large
  · refine ⟨fun same _ => same.mp, fun told => ⟨told large, fun same => ?_⟩⟩
    rw [same]
  · exact iff_of_true Iff.rfl (fun large' => absurd large' large)

lemma pathText_inj {p q : Path} (some_ : p ≠ []) (some_' : q ≠ [])
    (plain : ∀ name ∈ p, '/' ∉ name) (plain' : ∀ name ∈ q, '/' ∉ name)
    (same : pathText p = pathText q) : p = q := by
  rw [← splitOn_intercalate '/' plain some_, ← splitOn_intercalate '/' plain' some_']
  exact congrArg (splitOn '/') same

lemma zip_of_take {α β : Type*} {made : List (α × β)} {keys : List α} {n : Nat}
    (order : made.map Prod.fst = keys.take n) : keys.zip (made.map Prod.snd) = made := by
  induction made generalizing keys n with
  | nil => exact zip_nil_right
  | cons e made ih =>
    cases n with
    | zero => cases order
    | succ n =>
      cases keys with
      | nil => cases order
      | cons key keys =>
        rw [take_succ_cons, map_cons] at order
        obtain ⟨head, rest⟩ := List.cons.inj order
        rw [map_cons, zip_cons_cons, ih rest, ← head]

lemma wellNamed_none : WellNamed none :=
  fun p some_ => absurd (find_eq_none_of_none p) some_

lemma mem_of_lookup {entries : Folder} {name : List Char} {node : Node}
    (found : entries.lookup name = some node) : (name, node) ∈ entries := by
  obtain ⟨before, after_, rfl, -⟩ := lookup_eq_some_iff.mp found
  exact mem_append_right _ mem_cons_self

lemma wellNamed_of_entries {entries : Folder} (plain : ∀ e ∈ entries, e.1 ≠ [] ∧ '/' ∉ e.1)
    (inside : ∀ e ∈ entries, WellNamed e.2.entries) : WellNamed (some entries) := by
  intro p some_ name own
  cases p with
  | nil => cases own
  | cons first rest =>
    cases found : entries.lookup first with
    | none =>
      have nothing : find (some entries) (first :: rest) = none := by
        cases rest with
        | nil => exact found
        | cons next rest =>
          rw [find_cons (cons_ne_nil next rest), enter, Option.bind_some, found]
          exact find_eq_none_of_none _
      exact absurd nothing some_
    | some node =>
      have entry := mem_of_lookup found
      rcases mem_cons.mp own with rfl | later
      · exact plain _ entry
      · have proper : rest ≠ [] := ne_nil_of_mem later
        rw [find_cons proper, enter, Option.bind_some, found] at some_
        exact inside _ entry rest some_ name later

section Root
variable {left right : Option Folder} {paths : List Path} {s : State} {differs : Bool}
  {made : List (Path × FolderCompareRow)}

section
variable (makes : Makes left right [] paths ⟨[], {}, 0⟩ s differs made)
include makes

lemma Makes.order_root : made.map Prod.fst = paths.take folderCompareMaxEntries := by
  rw [makes.order]
  exact congrArg (take _) (map_id paths)

lemma Makes.zip_rows : paths.zip s.rows = made := by
  rw [makes.rows]
  exact zip_of_take makes.order_root

lemma Makes.length_rows : s.rows.length = min folderCompareMaxEntries paths.length := by
  have lengths := congrArg length makes.order_root
  rw [length_map, length_take] at lengths
  rw [makes.rows, nil_append, length_map, lengths]

lemma Makes.count_root : s.count = min folderCompareMaxEntries paths.length := by
  rw [← makes.length_rows, makes.count, makes.rows, nil_append, length_map, Nat.zero_add]

lemma Makes.shown :
    s.rows.map relativePath =
      (paths.take folderCompareMaxEntries).map pathText := by
  rw [← makes.order_root, makes.rows, nil_append, map_map, map_map]
  exact map_congr_left fun e member => (makes.told e member).path

lemma Makes.once (named : WellNamed left) (named' : WellNamed right) (order : PreOrder paths)
    (members : ∀ p, p ∈ paths ↔ find left p ≠ none ∨ find right p ≠ none) :
    (s.rows.map relativePath).Nodup := by
  rw [makes.shown]
  refine (order.nodup.sublist (take_sublist _ _)).map_on fun p member q member' same => ?_
  have plain : ∀ p ∈ paths, ∀ name ∈ p, '/' ∉ name := by
    intro p member name own
    rcases (members p).mp member with here | there
    · exact (named p here name own).2
    · exact (named' p there name own).2
  have listed := mem_of_mem_take member
  have listed' := mem_of_mem_take member'
  exact pathText_inj (order.ne_nil p listed) (order.ne_nil q listed') (plain p listed)
    (plain q listed') same

end

end Root

section Comparison
variable (lowercase : List Char → List Char) (amounts : Amounts) {left right : Folder} {fuel : Nat}

/-- What a comparison makes of the paths of both folders. -/
lemma compareFolders_makes (leftRoot rightRoot : List Char) (named : WellNamed (some left))
    (named' : WellNamed (some right)) (enough : sizeOf left + sizeOf right < fuel) :
    ∃ s differs made, compareFolders lowercase amounts fuel leftRoot rightRoot left right =
          some ⟨leftRoot, rightRoot, s.rows, s.summary, folderCompareMaxEntries ≤ s.count⟩ ∧
        Makes (some left) (some right) [] (mergedPaths lowercase fuel (some left) (some right))
          ⟨[], {}, 0⟩ s differs made := by
  have standsLeft : Stands (some left) [] (some left) := fun _ _ => rfl
  have standsRight : Stands (some right) [] (some right) := fun _ _ => rfl
  obtain ⟨differs, s, made, called, makes⟩ := compareDirLevel_makes lowercase amounts named named'
    standsLeft standsRight (fun _ own => absurd own not_mem_nil) enough ⟨[], {}, 0⟩
  refine ⟨s, differs, made, ?_, makes⟩
  rw [compareFolders]
  change (compareDirLevel lowercase amounts fuel (some left) (some right) (pathText [])
    ([] : Path).length ⟨[], {}, 0⟩).bind _ = _
  rw [called]
  rfl

variable (n : Nat) {paths : List Path} {p : Path}

lemma mem_of_mem_zip_left {rows : List FolderCompareRow}
    (enough : rows.length = min folderCompareMaxEntries paths.length)
    (member : p ∈ paths.take folderCompareMaxEntries) : ∃ row, (p, row) ∈ paths.zip rows := by
  obtain ⟨i, inside, rfl⟩ := getElem_of_mem member
  rw [length_take] at inside
  rw [getElem_take]
  have zipped : i < (paths.zip rows).length := by
    rw [length_zip]
    omega
  refine ⟨rows[i], ?_⟩
  rw [← getElem_zip]
  exact getElem_mem zipped

/-- A comparison is exact unless the number of entries is the greatest number of rows, or two
listed large files differ by a time that is not seen. -/
theorem exact_iff (leftRoot rightRoot : List Char) (named : WellNamed (some left))
    (named' : WellNamed (some right)) (enough : sizeOf left + sizeOf right < fuel) :
    ∃ paths result,
      compareFolders lowercase amounts fuel leftRoot rightRoot left right = some result ∧
      PreOrder paths ∧
      (∀ p, p ∈ paths ↔ find (some left) p ≠ none ∨ find (some right) p ≠ none) ∧
      (Exact (some left) (some right) paths result ↔
        paths.length ≠ folderCompareMaxEntries ∧
          ∀ p ∈ paths.take folderCompareMaxEntries, ∀ l r, find (some left) p = some l →
            find (some right) p = some r → l.isDir = false → r.isDir = false →
            TimesTold l r) := by
  obtain ⟨s, differs, made, compared, makes⟩ :=
    compareFolders_makes lowercase amounts leftRoot rightRoot named named' enough
  have order := mergedPaths_preOrder lowercase fuel (some left) (some right)
  have members : ∀ p, p ∈ mergedPaths lowercase fuel (some left) (some right) ↔
      find (some left) p ≠ none ∨ find (some right) p ≠ none :=
    fun p => mem_mergedPaths lowercase enough
  generalize mergedPaths lowercase fuel (some left) (some right) = paths at makes order members
  refine ⟨paths, _, compared, order, members, ?_⟩
  have zipped := makes.zip_rows
  have listed : ∀ p ∈ paths.take folderCompareMaxEntries, ∃ row, (p, row) ∈ made := by
    intro p member
    rw [← zipped]
    exact mem_of_mem_zip_left makes.length_rows member
  constructor
  · intro all
    refine ⟨fun full => ?_, fun p member l r hl hr file file' => ?_⟩
    · have truncated := all.truncated.mp (decide_eq_true (by rw [makes.count_root, full]; simp))
      omega
    · obtain ⟨row, own⟩ := listed p member
      have told := ((makes.told _ own).files l r hl hr file file').1
      have agree := ((all.told _ (zipped ▸ own)).files l r hl hr file file').1
      exact told_iff_agree.mp (told.symm.trans agree)
  · rintro ⟨other, times⟩
    refine ⟨makes.length_rows, ?_, ?_, makes.once named named' order members, ?_, ?_⟩
    · rw [zipped]
      intro e own
      have early : e.1 ∈ paths.take folderCompareMaxEntries := by
        rw [← makes.order_root]
        exact mem_map_of_mem own
      have told := makes.told e own
      refine ⟨told.path, told.name, told.depth, told.isDir, told.leftSide, told.rightSide,
        told.rightOnly, told.leftOnly, fun l r hl hr file file' => ?_⟩
      obtain ⟨same, different⟩ := told.files l r hl hr file file'
      exact ⟨same.trans (told_iff_agree.mpr (times _ early l r hl hr file file')), different⟩
    · rw [zipped]
      exact makes.settled
    · rw [decide_eq_true_iff, makes.count_root]
      omega
    · change s.summary = _
      rw [makes.summary, makes.rows, nil_append, map_map]
      rfl

/-- A folder that became a file. -/
theorem sample_exact_iff :
    let left : Folder := [(['d'], .dir 0 [(['a'], .file [1] 0)]), (['b'], .file [2] 0)]
    let right : Folder := [(['d'], .file [] 0), (['b'], .file [2] 5)]
    ∃ paths result,
      compareFolders id (fun _ _ _ => 0) (sizeOf left + sizeOf right + 1) ['l'] ['r'] left right =
        some result ∧
      PreOrder paths ∧
      (∀ p, p ∈ paths ↔ find (some left) p ≠ none ∨ find (some right) p ≠ none) ∧
      (Exact (some left) (some right) paths result ↔
        paths.length ≠ folderCompareMaxEntries ∧
          ∀ p ∈ paths.take folderCompareMaxEntries, ∀ l r, find (some left) p = some l →
            find (some right) p = some r → l.isDir = false → r.isDir = false →
            TimesTold l r) := by
  refine exact_iff id _ ['l'] ['r'] ?_ ?_ (Nat.lt_succ_self _)
  · refine wellNamed_of_entries (by decide) ?_
    simp only [forall_mem_cons, Node.entries]
    exact ⟨wellNamed_of_entries (by decide) (forall_mem_singleton.mpr wellNamed_none),
      wellNamed_none, nofun⟩
  · refine wellNamed_of_entries (by decide) ?_
    simp only [forall_mem_cons, Node.entries]
    exact ⟨wellNamed_none, wellNamed_none, nofun⟩

/-- A folder of empty files. -/
def flat (n : Nat) : Folder :=
  (List.range n).map fun i => (List.replicate (i + 1) 'a', .file [] 0)

lemma flat_wellNamed : WellNamed (some (flat n)) := by
  refine wellNamed_of_entries (fun e member => ?_) (fun e member => ?_)
  · obtain ⟨i, -, rfl⟩ := mem_map.mp member
    refine ⟨cons_ne_nil _ _, fun slash => ?_⟩
    cases eq_of_mem_replicate slash
  · obtain ⟨i, -, rfl⟩ := mem_map.mp member
    exact wellNamed_none

lemma find_flat {n : Nat} :
    find (some (flat n)) p ≠ none ↔
      p ∈ (range n).map fun i => [replicate (i + 1) 'a'] := by
  have names : namesOf (some (flat n)) = (range n).map fun i => replicate (i + 1) 'a' := map_map
  have single (name : List Char) :
      [name] ∈ (range n).map (fun i => [replicate (i + 1) 'a']) ↔
        name ∈ namesOf (some (flat n)) := by
    rw [names]
    simp
  cases p with
  | nil => exact iff_of_false (fun some_ => some_ rfl) (by simp)
  | cons name rest =>
    cases rest with
    | nil => exact mem_namesOf.symm.trans (single name).symm
    | cons next rest =>
      refine iff_of_false (fun some_ => some_ ?_) (by simp)
      have leaf : enter (some (flat n)) name = none := by
        rw [enter, Option.bind_some]
        cases found : (flat n).lookup name with
        | none => rfl
        | some node =>
          obtain ⟨i, -, same⟩ := mem_map.mp (mem_of_lookup found)
          cases same
          rfl
      rw [find_cons (cons_ne_nil next rest), leaf]
      exact find_eq_none_of_none _

/-- The union of a folder of files and an empty one. -/
lemma length_of_flat (once : paths.Nodup)
    (members : ∀ p, p ∈ paths ↔ find (some (flat n)) p ≠ none ∨ find (some []) p ≠ none) :
    paths.length = n := by
  have distinct : ((range n).map fun i => [replicate (i + 1) 'a']).Nodup := by
    refine nodup_range.map fun i j same => ?_
    have lengths := congrArg length (singleton_inj.mp same)
    rw [length_replicate, length_replicate] at lengths
    exact Nat.succ.inj lengths
  have empty (p : Path) : find (some []) p = none := by
    rcases p with _ | ⟨name, _ | ⟨next, rest⟩⟩
    · rfl
    · rfl
    · exact find_eq_none_of_none _
  have perm := (perm_ext_iff_of_nodup once distinct).mpr fun p => by
    rw [members, empty, or_iff_left (not_not_intro rfl), find_flat]
  rw [perm.length_eq, length_map, length_range]

lemma flat_compared {n : Nat} (full : n = folderCompareMaxEntries) :
    ∃ (paths : List Path) (result : FolderCompareResult),
      compareFolders id (fun _ _ _ => 0) (sizeOf (flat n) + sizeOf ([] : Folder) + 1) [] []
        (flat n) [] = some result ∧
      (∀ p, p ∈ paths ↔ find (some (flat n)) p ≠ none ∨ find (some []) p ≠ none) ∧
      paths.length = folderCompareMaxEntries ∧
      result.rows.map relativePath = paths.map pathText ∧
      result.truncated = true := by
  have named' : WellNamed (some []) := wellNamed_of_entries nofun nofun
  have enough := Nat.lt_succ_self (sizeOf (flat n) + sizeOf ([] : Folder))
  obtain ⟨s, differs, made, compared, makes⟩ :=
    compareFolders_makes id (fun _ _ _ => 0) [] [] (flat_wellNamed n) named' enough
  have order := mergedPaths_preOrder id (sizeOf (flat n) + sizeOf ([] : Folder) + 1)
    (some (flat n)) (some [])
  have members : ∀ p, p ∈ mergedPaths id (sizeOf (flat n) + sizeOf ([] : Folder) + 1)
      (some (flat n)) (some []) ↔ find (some (flat n)) p ≠ none ∨ find (some []) p ≠ none :=
    fun p => mem_mergedPaths id enough
  have number := (length_of_flat n order.nodup members).trans full
  refine ⟨_, _, compared, members, number, ?_, ?_⟩
  · rw [makes.shown, take_of_length_le number.le]
  · exact decide_eq_true (by rw [makes.count_root, number, Nat.min_self])

/-- A comparison of just as many files as there can be rows says that it stopped early, though
nothing is left out. -/
theorem complete_but_truncated :
    ∃ (paths : List Path) (result : FolderCompareResult),
      compareFolders id (fun _ _ _ => 0)
        (sizeOf (flat folderCompareMaxEntries) + sizeOf ([] : Folder) + 1) [] []
        (flat folderCompareMaxEntries) [] = some result ∧
      (∀ p, p ∈ paths ↔
        find (some (flat folderCompareMaxEntries)) p ≠ none ∨ find (some []) p ≠ none) ∧
      paths.length = folderCompareMaxEntries ∧
      result.rows.map FolderCompareRow.relativePath = paths.map pathText ∧
      result.truncated = true :=
  flat_compared rfl

end Comparison

end FolderCompare
