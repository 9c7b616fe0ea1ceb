import KKTerm.Library.Slots
import Mathlib.Data.List.Induction
import Mathlib.Data.List.Nodup
import Mathlib.Data.Nat.Init

/-!
# Lanes of the commit graph

Commits come newest first. Every active lane is kept for the commit that should come next
in it: the first parent stays in the lane of its child, each other parent gets a lane that
waits for it already or a free one.
-/

namespace Git

open Slots List

inductive GitRefType where
  | head
  | branch
  | remote
  | tag
  deriving DecidableEq

structure GitRef where
  type : GitRefType
  name : List Char
  deriving DecidableEq

structure GitCommit where
  id : List Char
  shortId : List Char := []
  parents : List (List Char)
  authorName : List Char := []
  authorEmail : List Char := []
  subject : List Char := []
  body : List Char := []
  isoDate : List Char := []
  when : List Char := []
  refs : List GitRef := []
  deriving DecidableEq

structure GraphCommit extends GitCommit where
  lane : Nat
  deriving DecidableEq

abbrev Lanes := List (Option (List Char))

/-- Other lanes that wait for the commit converge here. -/
def freeOthers (lanes : Lanes) (lane : Nat) (id : List Char) : Lanes :=
  lanes.mapIdx fun i reserved => if i ≠ lane ∧ reserved = some id then none else reserved

/-- The lanes when the first parent has been put into the lane of the commit. -/
def continueLane (lanes : Lanes) (commit : GitCommit) : Lanes :=
  let found := find lanes commit.id
  (freeOthers found.2 found.1 commit.id).set found.1 commit.parents.head?

def afterCommit (lanes : Lanes) (commit : GitCommit) : Lanes :=
  commit.parents.tail.foldl reserve (continueLane lanes commit)

def assignCommit (sweep : Lanes × List GraphCommit) (commit : GitCommit) :
    Lanes × List GraphCommit :=
  (afterCommit sweep.1 commit,
    sweep.2 ++ [{ commit with lane := (find sweep.1 commit.id).1 }])

def assignLanes (commits : List GitCommit) : List GraphCommit :=
  (commits.foldl assignCommit ([], [])).2

/-- The lanes when this many rows have been done. -/
def lanesBefore (commits : List GitCommit) (row : Nat) : Lanes :=
  ((commits.take row).foldl assignCommit ([], [])).1

/-- The lanes found or opened for merge parents. -/
def mergeLanes : Lanes → List (List Char) → List (List Char × Nat)
  | _, [] => []
  | lanes, parent :: rest =>
    (parent, (find lanes parent).1) :: mergeLanes (reserve lanes parent) rest

def edgeLanes (lanes : Lanes) (commit : GitCommit) : List (List Char × Nat) :=
  match commit.parents with
  | [] => []
  | first :: merge =>
    (first, (find lanes commit.id).1) :: mergeLanes (continueLane lanes commit) merge

section Row
variable {lanes : Lanes} {commit : GitCommit} {parents : List (List Char)} {id parent : List Char}
  {i lane : Nat}

lemma getElem?_freeOthers (lanes : Lanes) (lane : Nat) (id : List Char) (i : Nat) :
    (freeOthers lanes lane id)[i]? = lanes[i]?.map fun reserved =>
      if i ≠ lane ∧ reserved = some id then none else reserved := by
  rw [freeOthers, getElem?_mapIdx]

lemma kept_freeOthers (kept : Kept lanes i parent) (other : parent ≠ id) :
    Kept (freeOthers lanes lane id) i parent := by
  rw [Kept] at kept ⊢
  rw [getElem?_freeOthers, kept]
  simp [other]

lemma kept_foldl_reserve (kept : Kept lanes i parent) :
    Kept (parents.foldl reserve lanes) i parent := by
  induction parents generalizing lanes with
  | nil => exact kept
  | cons first rest ih => exact ih kept.reserve

/-- A lane kept for another commit is not taken, and stays kept. -/
lemma kept_afterCommit (kept : Kept lanes i parent) (other : parent ≠ commit.id) :
    (find lanes commit.id).1 ≠ i ∧ Kept (afterCommit lanes commit) i parent := by
  have different := find_ne kept other
  refine ⟨different, kept_foldl_reserve ?_⟩
  have still := ((find_spec lanes commit.id).2 i parent).mpr kept
  rw [Kept, continueLane, getElem?_set_ne different]
  exact kept_freeOthers still other

lemma kept_mergeLanes (edge : (parent, i) ∈ mergeLanes lanes parents) :
    Kept (parents.foldl reserve lanes) i parent := by
  induction parents generalizing lanes with
  | nil => cases edge
  | cons first rest ih =>
    rcases mem_cons.mp edge with here | later
    · cases here
      rw [foldl_cons]
      exact kept_foldl_reserve (kept_reserve_self lanes parent)
    · exact ih later

lemma length_freeOthers (lanes : Lanes) (lane : Nat) (id : List Char) :
    (freeOthers lanes lane id).length = lanes.length := by
  simp [freeOthers]

lemma kept_edgeLanes (edge : (parent, i) ∈ edgeLanes lanes commit) :
    Kept (afterCommit lanes commit) i parent := by
  rw [afterCommit]
  cases parents : commit.parents with
  | nil =>
    rw [edgeLanes, parents] at edge
    cases edge
  | cons first merge =>
    rw [edgeLanes, parents] at edge
    rcases mem_cons.mp edge with here | later
    · cases here
      refine kept_foldl_reserve ?_
      have inside := find_lt lanes commit.id
      have kept := length_freeOthers (find lanes commit.id).2 (find lanes commit.id).1 commit.id
      rw [← kept] at inside
      rw [Kept, continueLane, getElem?_set_self inside, parents]
      rfl
    · exact kept_mergeLanes later

lemma map_fst_mergeLanes : (mergeLanes lanes parents).map Prod.fst = parents := by
  induction parents generalizing lanes with
  | nil => rfl
  | cons first rest ih => rw [mergeLanes, map_cons, ih]

/-- Every parent has one edge, in the order of the parents. -/
lemma map_fst_edgeLanes : (edgeLanes lanes commit).map Prod.fst = commit.parents := by
  rw [edgeLanes]
  cases commit.parents with
  | nil => rfl
  | cons first merge => rw [map_cons, map_fst_mergeLanes]

lemma kept_of_foldl_reserve (kept : Kept (parents.foldl reserve lanes) i id) :
    Kept lanes i id ∨ id ∈ parents := by
  induction parents generalizing lanes with
  | nil => exact .inl kept
  | cons first rest ih =>
    rcases ih kept with before | later
    · rcases kept_of_reserve before with before | same
      · exact .inl before
      · exact .inr (same ▸ mem_cons_self)
    · exact .inr (mem_cons_of_mem first later)

lemma kept_of_afterCommit (kept : Kept (afterCommit lanes commit) i id) :
    id ∈ commit.parents ∨ (id ≠ commit.id ∧ Kept lanes i id) := by
  rcases kept_of_foldl_reserve kept with before | merge
  · by_cases here : (find lanes commit.id).1 = i
    · have inside : i < (freeOthers (find lanes commit.id).2 (find lanes commit.id).1
          commit.id).length := by
        rw [length_freeOthers, ← here]
        exact find_lt lanes commit.id
      simp only [Kept, continueLane, here] at before
      rw [here] at inside
      rw [getElem?_set_self inside] at before
      exact .inl (mem_of_mem_head? (Option.some.inj before))
    · rw [Kept, continueLane, getElem?_set_ne here, getElem?_freeOthers] at before
      obtain ⟨reserved, found, shown⟩ := Option.map_eq_some_iff.mp before
      split_ifs at shown with freed
      subst shown
      have earlier := ((find_spec lanes commit.id).2 i id).mp found
      refine Or.inr ⟨fun same => freed ⟨Ne.symm here, by rw [same]⟩, earlier⟩
  · exact .inl (mem_of_mem_tail merge)

/-- A commit that is waited for is put into a lane kept for it. -/
lemma kept_find (waited : some id ∈ lanes) : Kept lanes (find lanes id).1 id := by
  obtain ⟨found, same⟩ := find_spec lanes id
  rcases found with kept | ⟨-, absent⟩
  · exact (same _ _).mp kept
  · exact absurd waited absent

end Row

/-- Every commit comes before its parents. -/
def Precede (commits : List GitCommit) : Prop :=
  ∀ (i k : Nat) (c p : GitCommit), commits[i]? = some c → commits[k]? = some p → k ≤ i →
    p.id ∉ c.parents

section Sweep
variable {commits : List GitCommit} {c p : GitCommit} {i j k lane : Nat} {id : List Char}

lemma lanesBefore_succ (found : commits[i]? = some c) :
    lanesBefore commits (i + 1) = afterCommit (lanesBefore commits i) c := by
  rw [lanesBefore, take_add_one, found, Option.toList_some, foldl_concat]
  rfl

lemma assignLanes_eq (commits : List GitCommit) : assignLanes commits =
    commits.mapIdx fun i c => { c with lane := (find (lanesBefore commits i) c.id).1 } := by
  induction commits using reverseRecOn with
  | nil => rfl
  | append_singleton commits c ih =>
    have last : assignLanes (commits ++ [c]) = assignLanes commits ++
          [{ c with lane := (find (lanesBefore commits commits.length) c.id).1 }] := by
      rw [assignLanes, foldl_concat, lanesBefore, take_length]
      rfl
    rw [last, ih, mapIdx_concat]
    have here : lanesBefore (commits ++ [c]) commits.length =
        lanesBefore commits commits.length := by
      simp [lanesBefore]
    rw [here]
    congr 1
    refine mapIdx_eq_mapIdx_iff.mpr fun i inside => ?_
    have before : lanesBefore (commits ++ [c]) i = lanesBefore commits i := by
      rw [lanesBefore, lanesBefore, take_append_of_le_length (Nat.le_of_lt inside)]
    rw [before]

lemma getElem?_assignLanes (found : commits[i]? = some c) : (assignLanes commits)[i]? =
    some { c with lane := (find (lanesBefore commits i) c.id).1 } := by
  rw [assignLanes_eq, getElem?_mapIdx, found, Option.map_some]

lemma id_ne (distinct : (commits.map GitCommit.id).Nodup) (at_j : commits[j]? = some p)
    (at_k : commits[k]? = some c) (other : k ≠ j) : p.id ≠ c.id := by
  intro same
  have left : (commits.map GitCommit.id)[j]? = some p.id := by simp [at_j]
  have right : (commits.map GitCommit.id)[k]? = some p.id := by simp [at_k, same]
  obtain ⟨inside, -⟩ := List.getElem?_eq_some_iff.mp right
  exact other ((getElem?_inj inside distinct).mp (right.trans left.symm))

/-- The lane of an edge stays kept up to the row of the parent. -/
lemma kept_until (distinct : (commits.map GitCommit.id).Nodup) (at_i : commits[i]? = some c)
    (at_j : commits[j]? = some p) (edge : (p.id, lane) ∈ edgeLanes (lanesBefore commits i) c)
    (after : i < k) (before : k ≤ j) : Kept (lanesBefore commits k) lane p.id := by
  induction k, after using Nat.le_induction with
  | base =>
    rw [lanesBefore_succ at_i]
    exact kept_edgeLanes edge
  | succ k after ih =>
    obtain ⟨inside, -⟩ := List.getElem?_eq_some_iff.mp at_j
    obtain ⟨other, at_k⟩ : ∃ other, commits[k]? = some other := ⟨_, getElem?_eq_getElem (by omega)⟩
    rw [lanesBefore_succ at_k]
    exact (kept_afterCommit (ih (by omega)) (id_ne distinct at_j at_k (by omega))).2

lemma not_waited (precede : Precede commits) (at_j : commits[j]? = some p) (after : j < k)
    (inside : k ≤ commits.length) : some p.id ∉ lanesBefore commits k := by
  intro waited
  obtain ⟨lane, kept⟩ := getElem?_of_mem waited
  induction k, after using Nat.le_induction generalizing lane with
  | base =>
    rw [lanesBefore_succ at_j] at kept
    rcases kept_of_afterCommit kept with parent | ⟨other, -⟩
    · exact precede j j p p at_j at_j (Nat.le_refl j) parent
    · exact other rfl
  | succ k after ih =>
    obtain ⟨other, at_k⟩ : ∃ other, commits[k]? = some other := ⟨_, getElem?_eq_getElem (by omega)⟩
    rw [lanesBefore_succ at_k] at kept
    rcases kept_of_afterCommit kept with parent | ⟨-, earlier⟩
    · exact precede k j _ p at_k at_j (by omega) parent
    · exact ih (by omega) earlier.mem lane earlier

end Sweep

/-- What holds of the lanes of a history. -/
structure LaneLaws (commits : List GitCommit) : Prop where
  /-- Each commit comes back once, in order, as it was. -/
  returned : (assignLanes commits).map GraphCommit.toGitCommit = commits
  /-- Every parent of a commit has a lane, which is kept for it after the row. -/
  edges : ∀ row c, commits[row]? = some c →
    (edgeLanes (lanesBefore commits row) c).map Prod.fst = c.parents ∧
      ∀ parent lane, (parent, lane) ∈ edgeLanes (lanesBefore commits row) c →
        (lanesBefore commits (row + 1))[lane]? = some (some parent)
  /-- No commit in between stands in the lane of an edge. -/
  straight : ∀ i j k c p lane m, commits[i]? = some c → commits[j]? = some p →
    (p.id, lane) ∈ edgeLanes (lanesBefore commits i) c → i < k → k < j →
      (assignLanes commits)[k]? = some m → m.lane ≠ lane
  /-- A commit that lanes wait for stands in one of them. -/
  converges : ∀ row c m, commits[row]? = some c → (assignLanes commits)[row]? = some m →
    some c.id ∈ lanesBefore commits row → (lanesBefore commits row)[m.lane]? = some (some c.id)
  /-- After its row none waits for it. -/
  freed : ∀ j k p, commits[j]? = some p → j < k → k ≤ commits.length →
    some p.id ∉ lanesBefore commits k

/-- Commits with ids of their own, each before its parents. -/
theorem lane_laws {commits : List GitCommit} (distinct : (commits.map GitCommit.id).Nodup)
    (precede : Precede commits) : LaneLaws commits where
  returned := by
    rw [assignLanes_eq]
    refine ext_getElem? fun i => ?_
    rw [getElem?_map, getElem?_mapIdx, Option.map_map]
    exact Option.map_id'
  edges row c found := by
    refine ⟨map_fst_edgeLanes, fun parent lane edge => ?_⟩
    rw [lanesBefore_succ found]
    exact kept_edgeLanes edge
  straight i j k c p lane m at_i at_j edge after before at_k := by
    obtain ⟨inside, -⟩ := List.getElem?_eq_some_iff.mp at_j
    obtain ⟨other, row⟩ : ∃ other, commits[k]? = some other := ⟨_, getElem?_eq_getElem (by omega)⟩
    have kept := kept_until distinct at_i at_j edge after (Nat.le_of_lt before)
    have different := id_ne distinct at_j row (by omega)
    rw [getElem?_assignLanes row] at at_k
    cases at_k
    exact (kept_afterCommit kept different).1
  converges row c m found at_row waited := by
    rw [getElem?_assignLanes found] at at_row
    cases at_row
    exact kept_find waited
  freed j k p at_j after inside := not_waited precede at_j after inside

def commit (id : Char) (parents : List Char) : GitCommit where
  id := [id]
  parents := parents.map fun parent => [parent]

/-- A merge of two branches that part at one commit. -/
def diamond : List GitCommit :=
  [commit 'm' ['a', 'b'], commit 'a' ['r'], commit 'b' ['r'], commit 'r' []]

theorem diamond_laws : LaneLaws diamond := by
  have ordered : ∀ i k : Fin diamond.length, k ≤ i →
      (diamond.get k).id ∉ (diamond.get i).parents := by decide
  refine lane_laws (by decide) fun i k c p at_i at_k before => ?_
  obtain ⟨inside, rfl⟩ := List.getElem?_eq_some_iff.mp at_i
  obtain ⟨inside', rfl⟩ := List.getElem?_eq_some_iff.mp at_k
  exact ordered ⟨i, inside⟩ ⟨k, inside'⟩ before

/-- Two children wait for their parent in lanes of their own. -/
theorem diamond_shares : diamond[3]?.map GitCommit.id = some ['r'] ∧
    ∃ first second : Nat, first ≠ second ∧
      (lanesBefore diamond 3)[first]? = some (some ['r']) ∧
      (lanesBefore diamond 3)[second]? = some (some ['r']) :=
  ⟨by decide, 0, 1, by decide, by decide, by decide⟩

end Git
