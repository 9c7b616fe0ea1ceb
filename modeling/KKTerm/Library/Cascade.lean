import KKTerm.Library.Loops

/-!
# Cascading deletes

Rows that name a deleted row as their parent are deleted too, and so on. One
round for each row is enough, and nothing goes that does not have to. The rounds may
also take the rows one after another, and go on for as long as a row is taken.
-/

namespace Cascade

open List

universe u v
variable {ρ : Type u} {ι : Type v} [DecidableEq ι] (key : ρ → ι) (parent : ρ → Option ι)
  (rows : List ρ)

/-- The rows that are still there although their parent is not. -/
def orphans (gone : List ι) : List ρ :=
  rows.filter (fun r => key r ∉ gone ∧ (parent r).any (· ∈ gone))

def sweep : Nat → List ι → List ι
  | 0, gone => gone
  | rounds + 1, gone => sweep rounds (gone ++ (orphans key parent rows gone).map key)

/-- The keys of all rows that go with the given ones. -/
def cascade (gone : List ι) : List ι :=
  sweep key parent rows rows.length gone

variable {key parent rows} {gone : List ι}

/-- No row is left whose parent is gone. -/
def Closed (key : ρ → ι) (parent : ρ → Option ι) (rows : List ρ) (gone : List ι) : Prop :=
  ∀ r ∈ rows, ∀ p, parent r = some p → p ∈ gone → key r ∈ gone

lemma mem_orphans {r : ρ} : r ∈ orphans key parent rows gone ↔
    r ∈ rows ∧ key r ∉ gone ∧ ∃ p, parent r = some p ∧ p ∈ gone := by
  cases named : parent r <;> simp [orphans, named]

lemma closed_of_no_orphans (none : orphans key parent rows gone = []) :
    Closed key parent rows gone := by
  intro r row p named member
  by_contra left
  have orphan : r ∈ orphans key parent rows gone := mem_orphans.mpr ⟨row, left, p, named, member⟩
  rw [none] at orphan
  cases orphan

section
variable (closed : Closed key parent rows gone)
include closed

lemma Closed.no_orphans : orphans key parent rows gone = [] := by
  apply eq_nil_iff_forall_not_mem.mpr
  intro r orphan
  obtain ⟨row, left, p, named, member⟩ := mem_orphans.mp orphan
  exact left (closed r row p named member)

lemma Closed.sweep (rounds : Nat) : Cascade.sweep key parent rows rounds gone = gone := by
  induction rounds with
  | zero => rfl
  | succ rounds ih =>
    rw [Cascade.sweep, closed.no_orphans, map_nil, append_nil]
    exact ih

lemma Closed.cascade : Cascade.cascade key parent rows gone = gone :=
  closed.sweep rows.length

end

lemma sweep_closed {rounds : Nat} (enough : (rows.filter (key · ∉ gone)).length ≤ rounds) :
    Closed key parent rows (sweep key parent rows rounds gone) := by
  induction rounds generalizing gone with
  | zero =>
    intro r row p named member
    by_contra left
    have kept : r ∈ rows.filter (key · ∉ gone) := mem_filter.mpr ⟨row, decide_eq_true left⟩
    exact absurd (length_pos_of_mem kept) (by omega)
  | succ rounds ih =>
    by_cases none : orphans key parent rows gone = []
    · have closed := closed_of_no_orphans none
      rw [closed.sweep]
      exact closed
    · obtain ⟨r, orphan⟩ := exists_mem_of_ne_nil _ none
      obtain ⟨row, left, -⟩ := mem_orphans.mp orphan
      apply ih
      have fewer : (rows.filter (key · ∉ gone ++ (orphans key parent rows gone).map key)).length <
          (rows.filter (key · ∉ gone)).length := by
        apply Loops.length_filter_lt ?_ row (by simpa using left)
        · simpa using fun _ => ⟨r, orphan, rfl⟩
        · intro x stays
          simp only [mem_append, not_or, decide_eq_true_eq] at stays ⊢
          exact stays.1
      omega

lemma cascade_closed : Closed key parent rows (cascade key parent rows gone) :=
  sweep_closed (length_filter_le _ _)

section Rounds

open Relation

/-- One row names the other as its parent. -/
def Link (key : ρ → ι) (parent : ρ → Option ι) (rows : List ρ) (child above : ι) : Prop :=
  ∃ r ∈ rows, key r = child ∧ parent r = some above

/-- The flag tells whether a row was taken. -/
def absorb (key : ρ → ι) (parent : ρ → Option ι) (state : List ι × Bool) (r : ρ) :
    List ι × Bool :=
  if key r ∉ state.1 ∧ (parent r).any (· ∈ state.1) then (state.1 ++ [key r], true) else state

def rounds (key : ρ → ι) (parent : ρ → Option ι) (rows : List ρ) : Nat → List ι → Option (List ι)
  | 0, _ => none
  | fuel + 1, gone =>
    let pass := rows.foldl (absorb key parent) (gone, false)
    if pass.2 then rounds key parent rows fuel pass.1 else some pass.1

variable {seen : List ρ} {state : List ι × Bool}

/-- What a pass over some of the rows has done. -/
structure Passed (key : ρ → ι) (parent : ρ → Option ι) (rows seen : List ρ) (gone : List ι)
    (state : List ι × Bool) : Prop where
  kept : gone ⊆ state.1
  reached : ∀ k ∈ state.1, ∃ start ∈ gone, ReflTransGen (Link key parent rows) k start
  same : state.2 = false → state.1 = gone ∧ Closed key parent seen gone
  fewer : state.2 = true → ∃ r ∈ rows, key r ∉ gone ∧ key r ∈ state.1

omit [DecidableEq ι] in
lemma passed_start : Passed key parent rows [] gone (gone, false) where
  kept := Subset.refl gone
  reached k member := ⟨k, member, .refl⟩
  same _ := ⟨rfl, fun _ row => absurd row not_mem_nil⟩
  fewer grown := Bool.noConfusion grown

lemma Passed.absorb {r : ρ} (passed : Passed key parent rows seen gone state) (row : r ∈ rows) :
    Passed key parent rows (seen ++ [r]) gone (absorb key parent state r) := by
  rw [Cascade.absorb]
  split_ifs with taken
  · obtain ⟨fresh, named⟩ := taken
    obtain ⟨above, parents, member⟩ := (Option.any_eq_true _ _).mp named
    refine ⟨fun k old => mem_append_left _ (passed.kept old), ?_, fun stays => ?_, ?_⟩
    · intro k member'
      rcases mem_append.mp member' with old | new
      · exact passed.reached k old
      · obtain ⟨start, home, path⟩ := passed.reached above (of_decide_eq_true member)
        exact ⟨start, home, path.head ⟨r, row, (mem_singleton.mp new).symm, parents⟩⟩
    · exact Bool.noConfusion stays
    · exact fun _ => ⟨r, row, fun old => fresh (passed.kept old), by simp⟩
  · refine ⟨passed.kept, passed.reached, fun stays => ?_, passed.fewer⟩
    obtain ⟨same, closed⟩ := passed.same stays
    refine ⟨same, fun r' member above parents gone' => ?_⟩
    rcases mem_append.mp member with old | new
    · exact closed r' old above parents gone'
    · rw [mem_singleton.mp new] at parents ⊢
      by_contra left
      refine taken ⟨same ▸ left, ?_⟩
      rw [parents, same]
      simpa using gone'

lemma passed_foldl (more : List ρ) (passed : Passed key parent rows seen gone state)
    (known : more ⊆ rows) :
    Passed key parent rows (seen ++ more) gone (more.foldl (Cascade.absorb key parent) state) := by
  induction more generalizing seen state with
  | nil => simpa using passed
  | cons r more ih =>
    have next := ih (passed.absorb (known mem_cons_self))
      (fun x member => known (mem_cons_of_mem r member))
    simpa using next

omit [DecidableEq ι] in
/-- A closed set that contains a row contains the rows under it. -/
lemma Closed.reaches (closed : Closed key parent rows gone) {a b : ι} (member : b ∈ gone)
    (path : ReflTransGen (Link key parent rows) a b) : a ∈ gone := by
  induction path using ReflTransGen.head_induction_on with
  | refl => exact member
  | head link _ ih =>
    obtain ⟨r, row, rfl, parents⟩ := link
    exact closed r row _ parents ih

/-- The rounds end with the given rows and the rows under them. -/
lemma rounds_returns {fuel : Nat} (enough : (rows.filter (key · ∉ gone)).length < fuel) :
    ∃ done, rounds key parent rows fuel gone = some done ∧ ∀ k, k ∈ done ↔
      ∃ start ∈ gone, ReflTransGen (Link key parent rows) k start := by
  induction fuel generalizing gone with
  | zero => omega
  | succ fuel ih =>
    have start : Passed key parent rows [] gone (gone, false) := passed_start
    have passed := passed_foldl rows start (Subset.refl rows)
    rw [rounds]
    generalize rows.foldl (Cascade.absorb key parent) (gone, false) = pass at passed
    obtain ⟨after, grew⟩ := pass
    cases grew with
    | false =>
      obtain ⟨rfl, closed⟩ := passed.same rfl
      refine ⟨after, rfl, fun k => ⟨passed.reached k, ?_⟩⟩
      rintro ⟨start, member, path⟩
      exact Closed.reaches closed member path
    | true =>
      obtain ⟨r, row, fresh, taken⟩ := passed.fewer rfl
      have less : (rows.filter (key · ∉ after)).length < (rows.filter (key · ∉ gone)).length := by
        apply Loops.length_filter_lt ?_ row (by simpa using fresh) (by simpa using taken)
        intro x stays
        simp only [decide_eq_true_eq] at stays ⊢
        exact fun old => stays (passed.kept old)
      have enough' : (rows.filter (key · ∉ after)).length < fuel := by omega
      obtain ⟨done, ran, exact_⟩ := ih enough'
      refine ⟨done, ran, fun k => (exact_ k).trans ⟨?_, ?_⟩⟩
      · rintro ⟨start, member, path⟩
        obtain ⟨start', home, path'⟩ := passed.reached start member
        exact ⟨start', home, path.trans path'⟩
      · rintro ⟨start, member, path⟩
        exact ⟨start, passed.kept member, path⟩

end Rounds

end Cascade
