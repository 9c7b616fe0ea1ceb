import Mathlib.Algebra.BigOperators.Group.List.Basic
import Mathlib.Algebra.GroupWithZero.Nat
import Mathlib.Data.List.Infix
import Mathlib.Data.List.Nodup
import Mathlib.Data.List.Perm.Subperm
import Mathlib.Data.Nat.Find

/-!
# Loops over a list

What a loop leaves behind that keeps the best candidate, adds to counters, writes
into cells, or gathers neighbours into groups, and how a loop leaves less each turn.
-/

namespace Loops

open List

universe u v
variable {α : Type u} {κ : Type v}

/-- No candidate has been seen, or the kept one is a candidate of the greatest key. -/
def Best (candidate : κ → Bool) (key : κ → Nat) (seen : List κ) : Option κ → Prop
  | none => ∀ x ∈ seen, candidate x = false
  | some best => best ∈ seen ∧ candidate best = true ∧
      ∀ x ∈ seen, candidate x = true → key x ≤ key best

/-- Replace the kept candidate by a strictly better one only. -/
def keepBest (candidate : κ → Bool) (key : κ → Nat) (best : Option κ) (x : κ) : Option κ :=
  if candidate x && best.all (fun current => key current < key x) then some x else best

lemma best_foldl (candidate : κ → Bool) (key : κ → Nat) (l : List κ) :
    Best candidate key l (l.foldl (keepBest candidate key) none) := by
  induction l using reverseRecOn with
  | nil => exact fun x member => absurd member not_mem_nil
  | append_singleton l x ih =>
    rw [foldl_concat]
    generalize l.foldl (keepBest candidate key) none = best at ih ⊢
    rw [keepBest]
    cases good : candidate x with
    | false =>
      cases best with
      | none =>
        intro y member
        rcases mem_append.mp member with old | new
        · exact ih y old
        · exact mem_singleton.mp new ▸ good
      | some best =>
        obtain ⟨member, chosen, greatest⟩ := ih
        refine ⟨mem_append_left [x] member, chosen, fun y member eligible => ?_⟩
        rcases mem_append.mp member with old | new
        · exact greatest y old eligible
        · rw [mem_singleton.mp new, good] at eligible
          cases eligible
    | true =>
      have last : x ∈ l ++ [x] := mem_append_right l (mem_singleton_self x)
      cases best with
      | none =>
        refine ⟨last, good, fun y member eligible => ?_⟩
        rcases mem_append.mp member with old | new
        · rw [ih y old] at eligible
          cases eligible
        · exact Nat.le_of_eq (congrArg key (mem_singleton.mp new))
      | some best =>
        obtain ⟨member, chosen, greatest⟩ := ih
        by_cases better : key best < key x
        · rw [if_pos (by simpa using better)]
          refine ⟨last, good, fun y member eligible => ?_⟩
          rcases mem_append.mp member with old | new
          · exact (greatest y old eligible).trans (Nat.le_of_lt better)
          · exact Nat.le_of_eq (congrArg key (mem_singleton.mp new))
        · rw [if_neg (by simpa using better)]
          refine ⟨mem_append_left [x] member, chosen, fun y member eligible => ?_⟩
          rcases mem_append.mp member with old | new
          · exact greatest y old eligible
          · exact mem_singleton.mp new ▸ Nat.le_of_not_lt better

/-- Every counter has grown by the amounts that were added at its place, in an
arithmetic that may wrap around. -/
lemma getElem?_foldl_add [Add α] {of : Nat → α} (zero : ∀ a : α, a + of 0 = a)
    (add : ∀ (a : α) (m n : Nat), a + of m + of n = a + of (m + n)) (place amount : κ → Nat)
    (l : List κ) (counters : List α) (p : Nat) :
    (l.foldl (fun counters x => counters.modify (place x) (· + of (amount x))) counters)[p]? =
      counters[p]?.map (· + of ((l.filter (place · = p)).map amount).sum) := by
  induction l generalizing counters with
  | nil =>
    rw [foldl_nil, filter_nil, map_nil, sum_nil]
    simp [zero]
  | cons x l ih =>
    rw [foldl_cons, ih, getElem?_modify]
    by_cases here : place x = p
    · rw [filter_cons_of_pos (by simpa using here), map_cons, sum_cons]
      cases counters[p]? with
      | none => rfl
      | some count =>
        simp only [here, if_true, Option.map_some, Option.map_eq_map]
        exact congrArg some (add count _ _)
    · rw [filter_cons_of_neg (by simpa using here)]
      cases counters[p]? with
      | none => rfl
      | some count => simp only [here, if_false, Option.map_some, Option.map_eq_map]

section Writes
variable {place : κ → Nat} {value : κ → α} {l : List κ}

lemma getElem?_foldl_set_of_not_mem {p : Nat} (fresh : p ∉ l.map place) (cells : List α) :
    (l.foldl (fun cells x => cells.set (place x) (value x)) cells)[p]? = cells[p]? := by
  induction l generalizing cells with
  | nil => rfl
  | cons x l ih =>
    rw [map_cons, mem_cons, not_or] at fresh
    rw [foldl_cons, ih fresh.2, getElem?_set_ne (Ne.symm fresh.1)]

/-- After writes at different places, a written place holds what was written. -/
lemma getElem?_foldl_set (distinct : (l.map place).Nodup) {cells : List α} {x : κ}
    (member : x ∈ l) (inside : place x < cells.length) :
    (l.foldl (fun cells x => cells.set (place x) (value x)) cells)[place x]? = some (value x) := by
  induction l generalizing cells with
  | nil => cases member
  | cons y l ih =>
    rw [map_cons, nodup_cons] at distinct
    rw [foldl_cons]
    rcases mem_cons.mp member with rfl | member
    · rw [getElem?_foldl_set_of_not_mem distinct.1, getElem?_set_self inside]
    · exact ih distinct.2 member (by rwa [length_set])

end Writes

/-- Of the indices that hold the loop keeps the last. -/
def keepLast (holds : Nat → Bool) (found : Option Nat) (index : Nat) : Option Nat :=
  if holds index then some index else found

lemma keepLast_foldl {holds : Nat → Bool} {size i : Nat} (small : i < size)
    (here : holds i = true) (only : ∀ j < size, holds j = true → j = i) :
    (range size).foldl (keepLast holds) none = some i := by
  induction size with
  | zero => exact absurd small (Nat.not_lt_zero i)
  | succ n ih =>
    rw [range_succ, foldl_concat, keepLast]
    by_cases last : holds n = true
    · rw [if_pos last, only n (Nat.lt_succ_self n) last]
    · have before : i < n := by
        rcases Nat.lt_succ_iff_lt_or_eq.mp small with before | rfl
        · exact before
        · exact absurd here last
      rw [if_neg last]
      exact ih before (fun j hj => only j (Nat.lt_succ_of_lt hj))

section Groups
variable {β : Type v} {f : Nat → β} {size i j : Nat} {groups front : List (List Nat)}
  {group : List Nat}

/-- The indices below `size` in order, gathered by the value of `f`. -/
structure Grouped (f : Nat → β) (size : Nat) (groups : List (List Nat)) : Prop where
  order : groups.flatten = List.range size
  nonempty : ∀ group ∈ groups, group ≠ []
  gathered : ∀ group ∈ groups, ∀ i ∈ group, ∀ j < size, j ∈ group ↔ f j = f i

lemma Grouped.lt (g : Grouped f size groups) (member : group ∈ groups) (hi : i ∈ group) :
    i < size :=
  mem_range.mp (g.order ▸ mem_flatten.mpr ⟨group, member, hi⟩)

lemma Grouped.pred_mem (g : Grouped f size (front ++ [group])) : size - 1 ∈ group := by
  have last := g.nonempty group (mem_append_right front (mem_singleton_self group))
  obtain ⟨init, x, rfl⟩ := (eq_nil_or_concat group).resolve_left last
  have order := g.order
  rw [flatten_append, flatten_singleton] at order
  cases size with
  | zero => simp at order
  | succ n =>
    rw [range_succ, concat_eq_append, ← append_assoc] at order
    have same := (append_inj' order rfl).2
    rw [concat_eq_append, Nat.add_sub_cancel]
    exact mem_append_right init (same ▸ mem_singleton_self n)

/-- The next index opens a group when it differs from all before it. -/
lemma Grouped.open (g : Grouped f size groups) (differs : ∀ i < size, f i ≠ f size) :
    Grouped f (size + 1) (groups ++ [[size]]) where
  order := by rw [flatten_append, g.order, range_succ, flatten_singleton]
  nonempty := by
    intro group member
    rcases mem_append.mp member with old | new
    · exact g.nonempty group old
    · exact mem_singleton.mp new ▸ cons_ne_nil size []
  gathered := by
    intro group member i hi j hj
    rcases mem_append.mp member with old | new
    · have small := g.lt old hi
      rcases Nat.lt_succ_iff_lt_or_eq.mp hj with before | rfl
      · exact g.gathered group old i hi j before
      · exact iff_of_false (fun inside => Nat.lt_irrefl _ (g.lt old inside))
          (fun same => differs i small same.symm)
    · rw [mem_singleton.mp new] at hi ⊢
      rw [mem_singleton.mp hi, mem_singleton]
      constructor
      · exact congrArg f
      · intro same
        by_contra other
        exact differs j (by omega) same

/-- The next index joins the last group when it agrees with it. -/
lemma Grouped.join (g : Grouped f size (front ++ [group])) (hi : i ∈ group)
    (agrees : f i = f size) : Grouped f (size + 1) (front ++ [group ++ [size]]) where
  order := by
    have order := g.order
    rw [flatten_append, flatten_singleton] at order
    rw [flatten_append, flatten_singleton, ← append_assoc, order, range_succ]
  nonempty := by
    intro other member
    rcases mem_append.mp member with old | new
    · exact g.nonempty other (mem_append_left [group] old)
    · rw [mem_singleton.mp new]
      exact append_ne_nil_of_right_ne_nil group (cons_ne_nil size [])
  gathered := by
    have last : group ∈ front ++ [group] := mem_append_right front (mem_singleton_self group)
    have small := g.lt last hi
    intro other member x hx j hj
    rcases mem_append.mp member with old | new
    · have old' := mem_append_left [group] old
      rcases Nat.lt_succ_iff_lt_or_eq.mp hj with before | rfl
      · exact g.gathered other old' x hx j before
      · refine iff_of_false (fun inside => Nat.lt_irrefl _ (g.lt old' inside)) (fun same => ?_)
        -- The last group would share an index with an earlier one.
        have shared := (g.gathered other old' x hx i small).mpr (agrees.trans same)
        have distinct : (front ++ [group]).flatten.Nodup := g.order ▸ nodup_range
        rw [flatten_append, flatten_singleton, nodup_append] at distinct
        exact distinct.2.2 i (mem_flatten.mpr ⟨other, old, shared⟩) i hi rfl
    · rw [mem_singleton.mp new] at hx ⊢
      have value : f x = f size := by
        rcases mem_append.mp hx with inside | here
        · exact ((g.gathered group last i hi x (g.lt last inside)).mp inside).trans agrees
        · exact congrArg f (mem_singleton.mp here)
      rw [value, mem_append, mem_singleton]
      rcases Nat.lt_succ_iff_lt_or_eq.mp hj with before | rfl
      · rw [← agrees, ← g.gathered group last i hi j before]
        exact or_iff_left (Nat.ne_of_lt before)
      · exact iff_of_true (.inr rfl) rfl

variable [DecidableEq β]

/-- An index joins the last group when it agrees with the first index there. -/
def pushGroup (f : Nat → β) (groups : List (List Nat)) (index : Nat) : List (List Nat) :=
  match groups.getLast? with
  | some group =>
    if group.head?.any (fun first => f first = f index) then groups.dropLast ++ [group ++ [index]]
    else groups ++ [[index]]
  | none => [[index]]

lemma Grouped.push (g : Grouped f size groups)
    (contiguous : ∀ i j, i ≤ j → j < size → f i = f size → f j = f size) :
    Grouped f (size + 1) (pushGroup f groups size) := by
  rcases eq_nil_or_concat groups with rfl | ⟨front, group, rfl⟩
  · have none : size = 0 := by
      have order := congrArg length g.order
      rw [length_range] at order
      exact order.symm
    subst none
    exact g.open (fun i hi => absurd hi (Nat.not_lt_zero i))
  · rw [concat_eq_append] at g ⊢
    have last : group ∈ front ++ [group] := mem_append_right front (mem_singleton_self group)
    obtain ⟨first, rest, rfl⟩ := exists_cons_of_ne_nil (g.nonempty group last)
    have here := mem_cons_self (a := first) (l := rest)
    have pushed : pushGroup f (front ++ [first :: rest]) size =
        if f first = f size then front ++ [(first :: rest) ++ [size]]
        else (front ++ [first :: rest]) ++ [[size]] := by
      simp [pushGroup]
    rw [pushed]
    by_cases agrees : f first = f size
    · rw [if_pos agrees]
      exact g.join here agrees
    · rw [if_neg agrees]
      refine g.open (fun i hi same => agrees ?_)
      rw [← (g.gathered _ last first here (size - 1) (by omega)).mp g.pred_mem]
      exact contiguous i (size - 1) (by omega) (by omega) same

lemma grouped_foldl (contiguous : ∀ i j k, i ≤ j → j < k → k < size → f i = f k → f j = f k) :
    Grouped f size ((range size).foldl (pushGroup f) []) := by
  induction size with
  | zero => exact ⟨rfl, fun _ member => absurd member not_mem_nil,
      fun _ member => absurd member not_mem_nil⟩
  | succ n ih =>
    rw [range_succ, foldl_concat]
    refine (ih (fun i j k hij hjk hk => contiguous i j k hij hjk (by omega))).push ?_
    exact fun i j hij hj => contiguous i j n hij hj (Nat.lt_succ_self n)

end Groups

/-- What a loop that may fail keeps of the items it has seen. -/
lemma foldlM_returns {σ : Type v} {f : σ → α → Option σ} {I : List α → σ → Prop} {l : List α}
    {s : σ} (start : I [] s)
    (step : ∀ front x back, l = front ++ x :: back → ∀ t, I front t →
      ∃ t', f t x = some t' ∧ I (front ++ [x]) t') :
    ∃ s', l.foldlM f s = some s' ∧ I l s' := by
  have each : ∀ front back, l = front ++ back → ∃ t, front.foldlM f s = some t ∧ I front t := by
    intro front
    induction front using reverseRecOn with
    | nil => exact fun _ _ => ⟨s, rfl, start⟩
    | append_singleton front x ih =>
      intro back split
      rw [append_assoc] at split
      obtain ⟨t, ran, held⟩ := ih ([x] ++ back) split
      obtain ⟨t', next, held'⟩ := step front x back split t held
      refine ⟨t', ?_, held'⟩
      rw [foldlM_append, ran]
      simp [next]
  exact each l [] (append_nil l).symm

/-- A condition that holds less often, and fails where the other one holds. -/
lemma length_filter_lt {l : List κ} {p q : κ → Bool} (less : ∀ x, q x = true → p x = true) {x : κ}
    (member : x ∈ l) (was : p x = true) (now : q x = false) :
    (l.filter q).length < (l.filter p).length := by
  have nested : l.filter q = (l.filter p).filter q := by
    rw [filter_filter]
    refine filter_congr fun y _ => ?_
    cases held : q y with
    | false => rfl
    | true => rw [less y held, Bool.and_self]
  rw [nested]
  apply length_filter_lt_length_iff_exists.mpr
  refine ⟨x, mem_filter.mpr ⟨member, was⟩, ?_⟩
  simp [now]

end Loops

/-!
# Probing

Places are tried one after another until one is free. Where the places do not repeat,
no more of them are tried than are taken; where all of them are taken the search does
not end.
-/

namespace Probing

open List

universe u
variable {α : Type u} [DecidableEq α] (next : α → α) (taken : List α)

def probe : Nat → α → Option α
  | 0, _ => none
  | fuel + 1, a => if a ∈ taken then probe fuel (next a) else some a

variable {next taken} {a : α} {k fuel : Nat}

lemma probe_eq (passed : ∀ j < k, next^[j] a ∈ taken) (free : next^[k] a ∉ taken)
    (enough : k < fuel) : probe next taken fuel a = some (next^[k] a) := by
  induction k generalizing a fuel with
  | zero =>
    obtain ⟨fuel, rfl⟩ := Nat.exists_eq_add_of_lt enough
    have here : a ∉ taken := free
    rw [Nat.zero_add, probe, if_neg here]
    rfl
  | succ k ih =>
    obtain ⟨rest, rfl⟩ : ∃ rest, fuel = rest + 1 := ⟨fuel - 1, by omega⟩
    have first : a ∈ taken := passed 0 (Nat.succ_pos k)
    rw [probe, if_pos first]
    refine ih (fun j less => ?_) free (by omega)
    exact passed (j + 1) (by omega)

lemma probe_endless (all : ∀ j, next^[j] a ∈ taken) (fuel : Nat) :
    probe next taken fuel a = none := by
  induction fuel generalizing a with
  | zero => rfl
  | succ fuel ih =>
    have first : a ∈ taken := all 0
    rw [probe, if_pos first]
    exact ih fun j => all (j + 1)

omit [DecidableEq α] in
/-- Different places that are taken are no more than the taken ones. -/
lemma le_length (n : Nat) (place : Nat → α) (distinct : ∀ i < n, ∀ j < n, place i = place j → i = j)
    (all : ∀ j < n, place j ∈ taken) : n ≤ taken.length := by
  have nodup : ((range n).map place).Nodup := by
    refine Nodup.map_on (fun i hi j hj same => ?_) nodup_range
    exact distinct i (mem_range.mp hi) j (mem_range.mp hj) same
  have within : (range n).map place ⊆ taken := by
    intro b member
    obtain ⟨j, small, rfl⟩ := mem_map.mp member
    exact all j (mem_range.mp small)
  have few := (nodup.subperm within).length_le
  simpa using few

lemma probe_returns
    (distinct : ∀ i ≤ taken.length, ∀ j ≤ taken.length, next^[i] a = next^[j] a → i = j)
    (enough : taken.length < fuel) :
    ∃ k ≤ taken.length, probe next taken fuel a = some (next^[k] a) ∧ next^[k] a ∉ taken ∧
      ∀ j < k, next^[j] a ∈ taken := by
  have some_ : ∃ k, k ≤ taken.length ∧ next^[k] a ∉ taken := by
    by_contra none_
    have all : ∀ j < taken.length + 1, next^[j] a ∈ taken := by
      intro j small
      by_contra free
      exact none_ ⟨j, by omega, free⟩
    have many : taken.length + 1 ≤ taken.length :=
      le_length _ _ (fun i hi j hj => distinct i (by omega) j (by omega)) all
    omega
  obtain ⟨small, free⟩ := Nat.find_spec some_
  have passed : ∀ j < Nat.find some_, next^[j] a ∈ taken := by
    intro j less
    by_contra other
    exact Nat.find_min some_ less ⟨by omega, other⟩
  exact ⟨Nat.find some_, small, probe_eq passed free (by omega), free, passed⟩

end Probing
