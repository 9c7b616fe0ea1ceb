import Mathlib.Data.List.InsertIdx
import Mathlib.Data.List.Sort

/-!
# Numbered siblings

The rows of a table that share a home are listed by their numbers and, where these
agree, by something else. New numbers for the rows of one home list them in a new
order, and say nothing about the rows of any other home.
-/

structure Siblings (ρ ι η : Type) where
  id : ρ → ι
  home : ρ → Option η
  order : ρ → Int
  before : ρ → ρ → Prop
  number : Nat → ρ → ρ
  id_number : ∀ n r, id (number n r) = id r
  home_number : ∀ n r, home (number n r) = home r
  order_number : ∀ n r, order (number n r) = n
  total : ∀ a b, before a b ∨ before b a
  trans : ∀ a b c, before a b → before b c → before a c
  before_of_lt : ∀ a b, order a < order b → before a b
  order_le : ∀ a b, before a b → order a ≤ order b

namespace Siblings

open List Function

variable {ρ ι η : Type} (T : Siblings ρ ι η)

def listIn [DecidableEq η] [DecidableRel T.before] (h : η) (rows : List ρ) : List ρ :=
  (rows.filter (fun r => T.home r = some h)).insertionSort T.before

def idsIn [DecidableEq η] [DecidableRel T.before] (h : η) (rows : List ρ) : List ι :=
  (T.listIn h rows).map T.id

def set [DecidableEq ι] (key : ι) (change : ρ → ρ) (rows : List ρ) : List ρ :=
  rows.map (fun r => if T.id r = key then change r else r)

def renumber [DecidableEq ι] (ids : List ι) (rows : List ρ) : List ρ :=
  ids.zipIdx.foldl (fun rows entry => T.set entry.1 (T.number entry.2) rows) rows

/-- Rows that are each before the other are the same. -/
def Strict [DecidableEq η] [DecidableRel T.before] (h : η) (rows : List ρ) : Prop :=
  ∀ a ∈ T.listIn h rows, ∀ b ∈ T.listIn h rows, T.before a b → T.before b a → a = b

section Lists

variable {T} [DecidableEq η] [DecidableRel T.before] {h : η} {rows : List ρ} {r : ρ}

lemma mem_listIn : r ∈ T.listIn h rows ↔ r ∈ rows ∧ T.home r = some h := by
  rw [listIn, mem_insertionSort, mem_filter, decide_eq_true_eq]

lemma listIn_perm : (T.listIn h rows).Perm (rows.filter (fun r => T.home r = some h)) :=
  perm_insertionSort _ _

lemma listIn_pairwise : (T.listIn h rows).Pairwise T.before := by
  have total : Std.Total T.before := ⟨T.total⟩
  have trans : IsTrans ρ T.before := ⟨T.trans⟩
  exact pairwise_insertionSort T.before _

lemma mem_idsIn {key : ι} :
    key ∈ T.idsIn h rows ↔ ∃ r ∈ rows, T.home r = some h ∧ T.id r = key := by
  simp only [idsIn, mem_map, mem_listIn, and_assoc]

/-- Rows in strictly increasing order are listed as they stand. -/
lemma listIn_eq {l : List ρ} (perm : l.Perm (rows.filter (fun r => T.home r = some h)))
    (sorted : l.Pairwise (fun a b => T.order a < T.order b)) : T.listIn h rows = l := by
  have agree : (T.listIn h rows).Perm l := listIn_perm.trans perm.symm
  refine agree.eq_of_pairwise ?_ listIn_pairwise (sorted.imp (fun {a b} => T.before_of_lt a b))
  have distinct : (l.map T.order).Nodup :=
    pairwise_map.mpr (sorted.imp (fun {a b} less => Int.ne_of_lt less))
  intro a b listed member ab ba
  have same : T.order a = T.order b := Int.le_antisymm (T.order_le a b ab) (T.order_le b a ba)
  exact inj_on_of_nodup_map distinct (agree.mem_iff.mp listed) member same

end Lists

/-- The row with the number of its place among the ids, counted from `n`. -/
def placed [DecidableEq ι] (n : Nat) : List ι → ρ → ρ
  | [], r => r
  | key :: ids, r => if T.id r = key then T.number n r else placed (n + 1) ids r

section Numbers

variable {T} [DecidableEq ι] {n : Nat} {ids : List ι} {rows : List ρ} {r : ρ}

variable {key : ι} {change : ρ → ρ} {order : List ρ}

lemma id_set (same : ∀ r, T.id (change r) = T.id r) :
    (T.set key change rows).map T.id = rows.map T.id := by
  rw [set, map_map]
  refine map_congr_left (fun r _ => ?_)
  rw [comp_apply]
  split
  · exact same r
  · rfl

lemma find?_set (same : ∀ r, T.id (change r) = T.id r) :
    (T.set key change rows).find? (fun r => T.id r = key) =
      (rows.find? (fun r => T.id r = key)).map change := by
  induction rows with
  | nil => rfl
  | cons r rows ih =>
    by_cases here : T.id r = key
    · simp [set, here, same]
    · simpa [set, here] using ih

lemma filter_set {keep : ρ → Bool}
    (apart : ∀ r ∈ rows, T.id r = key → keep r = false ∧ keep (change r) = false) :
    (T.set key change rows).filter keep = rows.filter keep := by
  rw [set, filter_map]
  have kept : rows.filter (keep ∘ fun r => if T.id r = key then change r else r) =
      rows.filter keep := by
    refine filter_congr (fun r member => ?_)
    rw [comp_apply]
    split
    · next here => rw [(apart r member here).1, (apart r member here).2]
    · rfl
  rw [kept]
  refine (map_congr_left (fun r member => ?_)).trans (map_id _)
  obtain ⟨home, stays⟩ := mem_filter.mp member
  rw [if_neg]
  · rfl
  · intro here
    exact Bool.false_ne_true ((apart r home here).1.symm.trans stays)

lemma placed_of_not_mem (absent : T.id r ∉ ids) : T.placed n ids r = r := by
  induction ids generalizing n with
  | nil => rfl
  | cons key ids ih =>
    rw [mem_cons, not_or] at absent
    rw [placed, if_neg absent.1, ih absent.2]

lemma placed_cases (n : Nat) (ids : List ι) (r : ρ) :
    T.placed n ids r = r ∨ ∃ i, T.placed n ids r = T.number i r := by
  induction ids generalizing n with
  | nil => exact .inl rfl
  | cons key ids ih =>
    rw [placed]
    split
    · exact .inr ⟨n, rfl⟩
    · exact ih (n + 1)

lemma id_placed : T.id (T.placed n ids r) = T.id r := by
  rcases placed_cases (T := T) n ids r with same | ⟨i, numbered⟩
  · rw [same]
  · rw [numbered, T.id_number]

lemma home_placed : T.home (T.placed n ids r) = T.home r := by
  rcases placed_cases (T := T) n ids r with same | ⟨i, numbered⟩
  · rw [same]
  · rw [numbered, T.home_number]

lemma foldl_set (distinct : ids.Nodup) :
    (ids.zipIdx n).foldl (fun rows entry => T.set entry.1 (T.number entry.2) rows) rows =
      rows.map (T.placed n ids) := by
  induction ids generalizing n rows with
  | nil => exact (map_id rows).symm
  | cons key ids ih =>
    obtain ⟨fresh, distinct⟩ := nodup_cons.mp distinct
    rw [zipIdx_cons, foldl_cons, ih distinct, set, map_map]
    refine map_congr_left (fun r _ => ?_)
    rw [comp_apply, placed]
    split
    · next here =>
      -- a number that has been given stays, since no id comes twice
      refine placed_of_not_mem ?_
      rw [T.id_number, here]
      exact fresh
    · rfl

lemma renumber_eq (distinct : ids.Nodup) : T.renumber ids rows = rows.map (T.placed 0 ids) :=
  foldl_set distinct

lemma map_id_renumber (distinct : ids.Nodup) :
    (T.renumber ids rows).map T.id = rows.map T.id := by
  rw [renumber_eq distinct, map_map]
  exact map_congr_left (fun r _ => id_placed)

lemma map_placed (distinct : (order.map T.id).Nodup) :
    order.map (T.placed n (order.map T.id)) =
      (order.zipIdx n).map (fun entry => T.number entry.2 entry.1) := by
  induction order generalizing n with
  | nil => rfl
  | cons r order ih =>
    obtain ⟨fresh, distinct⟩ := nodup_cons.mp distinct
    rw [map_cons, map_cons, zipIdx_cons, map_cons, placed, if_pos rfl, ← ih distinct]
    congr 1
    refine map_congr_left (fun other member => ?_)
    rw [placed, if_neg]
    intro same
    exact fresh (same ▸ mem_map_of_mem member)

omit [DecidableEq ι] in
lemma order_zipIdx :
    ((order.zipIdx n).map (fun entry => T.number entry.2 entry.1)).map T.order =
      (range' n order.length).map Int.ofNat := by
  rw [map_map, ← zipIdx_map_snd, map_map]
  exact map_congr_left (fun entry _ => T.order_number entry.2 entry.1)

section Homes

variable [DecidableEq η] [DecidableRel T.before] {h h' : η} (distinct : (rows.map T.id).Nodup)
include distinct

variable {order : List ρ}

omit [DecidableEq ι] [DecidableRel T.before] in
lemma nodup_order (perm : order.Perm (rows.filter (fun r => T.home r = some h))) :
    (order.map T.id).Nodup :=
  (perm.map T.id).nodup_iff.mpr (distinct.sublist (filter_sublist.map T.id))

omit [DecidableEq ι] in
lemma nodup_idsIn : (T.idsIn h rows).Nodup :=
  nodup_order distinct listIn_perm

lemma listIn_renumber (perm : order.Perm (rows.filter (fun r => T.home r = some h))) :
    T.listIn h (T.renumber (order.map T.id) rows) =
      order.zipIdx.map (fun entry => T.number entry.2 entry.1) := by
  have once := nodup_order distinct perm
  apply listIn_eq
  · rw [renumber_eq once, ← map_placed once, filter_map]
    refine Perm.map _ ?_
    have homes : (fun r => decide (T.home r = some h)) ∘ T.placed 0 (order.map T.id) =
        fun r => decide (T.home r = some h) := by
      funext r
      rw [comp_apply, home_placed]
    rwa [homes]
  · have counted : (range' 0 order.length).Pairwise (· < ·) := pairwise_lt_range'
    have increasing : ((range' 0 order.length).map Int.ofNat).Pairwise (· < ·) :=
      pairwise_map.mpr (counted.imp (fun {_ _} => Int.ofNat_lt.mpr))
    rw [← order_zipIdx (T := T)] at increasing
    exact pairwise_map.mp increasing

lemma idsIn_renumber (perm : order.Perm (rows.filter (fun r => T.home r = some h))) :
    T.idsIn h (T.renumber (order.map T.id) rows) = order.map T.id := by
  rw [idsIn, listIn_renumber distinct perm, map_map]
  have ids : T.id ∘ (fun entry : ρ × Nat => T.number entry.2 entry.1) = T.id ∘ Prod.fst := by
    funext entry
    exact T.id_number entry.2 entry.1
  rw [ids, ← map_map, zipIdx_map_fst]

omit [DecidableRel T.before] in
lemma filter_renumber (perm : order.Perm (rows.filter (fun r => T.home r = some h)))
    (apart : h' ≠ h) :
    (T.renumber (order.map T.id) rows).filter (fun r => T.home r = some h') =
      rows.filter (fun r => T.home r = some h') := by
  have homes : (fun r => decide (T.home r = some h')) ∘ T.placed 0 (order.map T.id) =
      fun r => decide (T.home r = some h') := by
    funext r
    rw [comp_apply, home_placed]
  rw [renumber_eq (nodup_order distinct perm), filter_map, homes]
  refine (map_congr_left (fun r member => ?_)).trans (map_id _)
  obtain ⟨home, there⟩ := mem_filter.mp member
  refine placed_of_not_mem ?_
  intro listed
  obtain ⟨other, inOrder, same⟩ := mem_map.mp listed
  obtain ⟨otherHome, here⟩ := mem_filter.mp (perm.mem_iff.mp inOrder)
  cases inj_on_of_nodup_map distinct otherHome home same
  exact apart (Option.some.inj ((of_decide_eq_true there).symm.trans (of_decide_eq_true here)))

/-- Numbers that follow the order of a list change no list. -/
lemma idsIn_renumber_idsIn : T.idsIn h' (T.renumber (T.idsIn h rows) rows) = T.idsIn h' rows := by
  by_cases same : h' = h
  · rw [same]
    exact idsIn_renumber distinct listIn_perm
  · rw [idsIn, listIn, idsIn, filter_renumber distinct listIn_perm same]
    rfl

end Homes

end Numbers

section Places

variable [DecidableEq ι] {key next : ι} {index : Nat} {ids front rest back : List ι}

/-- A list with one id at a place among the others. -/
def withPlaced (key : ι) (index : Nat) (ids : List ι) : List ι :=
  (ids.filter (· ≠ key)).insertIdx (min index (ids.filter (· ≠ key)).length) key

/-- The item stands before the one that was at the index, at the end when there was none,
and where it was when that is itself or the one after it. -/
structure PutBefore (ids : List ι) (key : ι) (index : Nat) (ids' : List ι) : Prop where
  past : ids.length ≤ index → ids' = ids.filter (· ≠ key) ++ [key]
  stays : ∀ i, ids[i]? = some key → index = i ∨ index = i + 1 → ids' = ids
  between : ∀ next, ids[index]? = some next → next ≠ key → ∃ front rest,
    ids.filter (· ≠ key) = front ++ next :: rest ∧ ids' = front ++ key :: next :: rest

lemma filter_ne_of_not_mem (absent : key ∉ ids) : ids.filter (· ≠ key) = ids := by
  refine filter_eq_self.mpr (fun id member => decide_eq_true ?_)
  rintro rfl
  exact absent member

lemma filter_ne_of_mem (before : key ∉ front) (after : key ∉ back) :
    (front ++ key :: back).filter (· ≠ key) = front ++ back := by
  rw [filter_append, filter_cons_of_neg (by simp), filter_ne_of_not_mem before,
    filter_ne_of_not_mem after]

omit [DecidableEq ι] in
lemma insertIdx_append : (front ++ rest).insertIdx front.length key = front ++ key :: rest := by
  induction front with
  | nil => exact insertIdx_zero
  | cons id front ih =>
    rw [cons_append, length_cons, insertIdx_succ_cons, ih]
    rfl

omit [DecidableEq ι] in
lemma exists_append (there : ids[index]? = some next) :
    ∃ front rest, ids = front ++ next :: rest ∧ front.length = index := by
  obtain ⟨bound, rfl⟩ := List.getElem?_eq_some_iff.mp there
  refine ⟨ids.take index, ids.drop (index + 1), ?_, ?_⟩
  · rw [← drop_eq_getElem_cons bound, take_append_drop]
  · rw [length_take, Nat.min_eq_left (Nat.le_of_lt bound)]

lemma withPlaced_at (others : ids.filter (· ≠ key) = front ++ rest) :
    withPlaced key front.length ids = front ++ key :: rest := by
  rw [withPlaced, others, Nat.min_eq_left (by simp), insertIdx_append]

lemma withPlaced_past (past : (ids.filter (· ≠ key)).length ≤ index) :
    withPlaced key index ids = ids.filter (· ≠ key) ++ [key] := by
  rw [withPlaced, Nat.min_eq_right past, insertIdx_length_self]

lemma putBefore_of_not_mem (absent : key ∉ ids) :
    PutBefore ids key index (withPlaced key index ids) where
  past beyond := withPlaced_past (by rwa [filter_ne_of_not_mem absent])
  stays i here := absurd (mem_of_getElem? here) absent
  between next there _ := by
    obtain ⟨front, rest, rfl, rfl⟩ := exists_append there
    exact ⟨front, rest, filter_ne_of_not_mem absent, withPlaced_at (filter_ne_of_not_mem absent)⟩

/-- Behind its old place an item goes to one place less, as it no longer counts itself. -/
lemma putBefore_of_mem (before : key ∉ front) (after : key ∉ back) :
    PutBefore (front ++ key :: back) key index
      (withPlaced key (if front.length < index then index - 1 else index)
        (front ++ key :: back)) where
  past beyond := by
    rw [length_append, length_cons] at beyond
    rw [if_pos (by omega)]
    apply withPlaced_past
    rw [filter_ne_of_mem before after, length_append]
    omega
  stays i here near := by
    have place : i = front.length := by
      rcases Nat.lt_trichotomy i front.length with less | same | more
      · rw [getElem?_append_left less] at here
        exact absurd (mem_of_getElem? here) before
      · exact same
      · obtain ⟨d, rfl⟩ := Nat.exists_eq_add_of_lt more
        rw [getElem?_append_right (by omega)] at here
        have inBack : back[d]? = some key := by
          rwa [show front.length + d + 1 - front.length = d + 1 by omega,
            getElem?_cons_succ] at here
        exact absurd (mem_of_getElem? inBack) after
    have own : (if front.length < index then index - 1 else index) = front.length := by
      split <;> omega
    rw [own]
    exact withPlaced_at (filter_ne_of_mem before after)
  between next there other := by
    rcases Nat.lt_trichotomy index front.length with less | same | more
    · rw [getElem?_append_left less] at there
      obtain ⟨first, second, rfl, rfl⟩ := exists_append there
      have others : (first ++ next :: second ++ key :: back).filter (· ≠ key) =
          first ++ next :: (second ++ back) := by
        rw [filter_ne_of_mem before after]
        simp
      refine ⟨first, second ++ back, others, ?_⟩
      rw [if_neg (by omega)]
      exact withPlaced_at others
    · rw [same, getElem?_append_right (Nat.le_refl _), Nat.sub_self] at there
      exact absurd (Option.some.inj there).symm other
    · obtain ⟨d, rfl⟩ := Nat.exists_eq_add_of_lt more
      rw [getElem?_append_right (by omega)] at there
      have inBack : back[d]? = some next := by
        rwa [show front.length + d + 1 - front.length = d + 1 by omega, getElem?_cons_succ] at there
      obtain ⟨first, second, rfl, rfl⟩ := exists_append inBack
      have others : (front ++ key :: (first ++ next :: second)).filter (· ≠ key) =
          (front ++ first) ++ next :: second := by
        rw [filter_ne_of_mem before after, append_assoc]
      refine ⟨front ++ first, second, others, ?_⟩
      have place : (if front.length < front.length + first.length + 1 then
          front.length + first.length + 1 - 1 else front.length + first.length + 1) =
            (front ++ first).length := by
        rw [if_pos more, length_append, Nat.add_sub_cancel]
      rw [place]
      exact withPlaced_at others

end Places

section Moves

variable [DecidableEq ι] [DecidableEq η] [DecidableRel T.before]

/-- The rows of a home other than the moved one. -/
def others (h : η) (key : ι) (rows : List ρ) : List ρ :=
  (T.listIn h rows).filter (fun r => T.id r ≠ key)

/-- One row is changed, and the home it leaves is numbered. -/
def close (key : ι) (change : ρ → ρ) (source : η) (rows : List ρ) : List ρ :=
  T.renumber (T.idsIn source (T.set key change rows)) (T.set key change rows)

/-- The home that the changed row goes to is numbered with the row at its place. -/
def relocate (key : ι) (change : ρ → ρ) (source target : η) (index : Nat) (rows : List ρ) :
    List ρ :=
  T.renumber (withPlaced key index (T.idsIn target (T.close key change source rows)))
    (T.close key change source rows)

variable {T} {h : η} {key : ι} {rows rows' : List ρ} {r : ρ}

lemma map_id_others : (T.others h key rows).map T.id = (T.idsIn h rows).filter (· ≠ key) := by
  rw [others, idsIn, filter_map]
  rfl

lemma others_perm : (T.others h key rows).Perm
    (rows.filter (fun r => decide (T.id r ≠ key) && decide (T.home r = some h))) := by
  rw [← filter_filter]
  exact listIn_perm.filter _

/-- The others are listed as before when they are the same rows. -/
lemma others_congr (strict : T.Strict h rows)
    (same : rows'.filter (fun r => decide (T.id r ≠ key) && decide (T.home r = some h)) =
      rows.filter (fun r => decide (T.id r ≠ key) && decide (T.home r = some h))) :
    T.others h key rows' = T.others h key rows := by
  have agree : (T.others h key rows').Perm (T.others h key rows) := by
    refine others_perm.trans ?_
    rw [same]
    exact others_perm.symm
  refine agree.eq_of_pairwise ?_ (listIn_pairwise.filter _) (listIn_pairwise.filter _)
  intro a b ha hb
  exact strict a (mem_filter.mp (agree.mem_iff.mp ha)).1 b (mem_filter.mp hb).1

/-- A row that is in one home, and that a change puts into another or leaves there. -/
structure Moves (T : Siblings ρ ι η) (key : ι) (change : ρ → ρ) (source target : η)
    (rows : List ρ) : Prop where
  distinct : (rows.map T.id).Nodup
  same : ∀ r, T.id (change r) = T.id r
  present : key ∈ rows.map T.id
  leaves : ∀ r ∈ rows, T.id r = key → T.home r = some source
  arrives : ∀ r ∈ rows, T.id r = key → T.home (change r) = some target

namespace Moves

variable {change : ρ → ρ} {source target : η} {index : Nat}
  (moves : T.Moves key change source target rows)
include moves

omit [DecidableEq η] [DecidableRel T.before] in
lemma nodup_set : ((T.set key change rows).map T.id).Nodup := by
  rw [id_set moves.same]
  exact moves.distinct

lemma nodup_close : ((T.close key change source rows).map T.id).Nodup := by
  rw [close, map_id_renumber (nodup_idsIn moves.nodup_set)]
  exact moves.nodup_set

lemma exists_moved : ∃ r ∈ T.close key change source rows, T.id r = key ∧
    T.home r = some target := by
  obtain ⟨r, home, here⟩ := mem_map.mp moves.present
  rw [close, renumber_eq (nodup_idsIn moves.nodup_set), set, map_map]
  refine ⟨_, mem_map_of_mem home, ?_, ?_⟩
  · rw [comp_apply, id_placed, if_pos here, moves.same, here]
  · rw [comp_apply, home_placed, if_pos here]
    exact moves.arrives r home here

lemma others_close (strict : T.Strict h rows) :
    (T.idsIn h (T.close key change source rows)).filter (· ≠ key) =
      (T.idsIn h rows).filter (· ≠ key) := by
  rw [close, idsIn_renumber_idsIn moves.nodup_set, ← map_id_others, ← map_id_others,
    others_congr strict]
  refine filter_set (fun r _ here => ?_)
  simp [here, moves.same]

/-- The rows of the new home with the changed one at its place. -/
lemma exists_order (index : Nat) : ∃ order : List ρ,
    order.map T.id = withPlaced key index (T.idsIn target (T.close key change source rows)) ∧
      order.Perm ((T.close key change source rows).filter (fun r => T.home r = some target)) := by
  obtain ⟨moved, home, here, there⟩ := moves.exists_moved
  have distinct := moves.nodup_close
  refine ⟨(T.others target key (T.close key change source rows)).insertIdx
    (min index (T.others target key (T.close key change source rows)).length) moved, ?_, ?_⟩
  · rw [withPlaced, ← map_id_others, length_map, map_insertIdx, here]
  · refine (perm_insertIdx _ _ (Nat.min_le_right _ _)).trans ?_
    have other : moved ∉ T.others target key (T.close key change source rows) := by
      intro member
      exact of_decide_eq_true (mem_filter.mp member).2 here
    have rowsNodup : (T.close key change source rows).Nodup := distinct.of_map
    have othersNodup := others_perm.nodup_iff.mpr
      (rowsNodup.filter (fun r => decide (T.id r ≠ key) && decide (T.home r = some target)))
    refine (perm_ext_iff_of_nodup (nodup_cons.mpr ⟨other, othersNodup⟩) (rowsNodup.filter _)).mpr ?_
    intro r
    rw [mem_cons, others_perm.mem_iff, mem_filter, mem_filter]
    constructor
    · rintro (rfl | ⟨listed, kept⟩)
      · exact ⟨home, decide_eq_true there⟩
      · exact ⟨listed, (Bool.and_eq_true_iff.mp kept).2⟩
    · rintro ⟨listed, target⟩
      by_cases itself : T.id r = key
      · exact .inl (inj_on_of_nodup_map distinct listed home (itself.trans here.symm))
      · exact .inr ⟨listed, Bool.and_eq_true_iff.mpr ⟨decide_eq_true itself, target⟩⟩

/-- The new home lists the moved id at its place among the others. -/
lemma target_ids (strict : T.Strict target rows) :
    T.idsIn target (T.relocate key change source target index rows) =
      withPlaced key index (T.idsIn target rows) := by
  obtain ⟨order, ids, perm⟩ := moves.exists_order index
  rw [relocate, ← ids, idsIn_renumber moves.nodup_close perm, ids, withPlaced,
    moves.others_close strict]
  rfl

lemma filter_relocate (apart : h ≠ target) :
    (T.relocate key change source target index rows).filter (fun r => T.home r = some h) =
      (T.close key change source rows).filter (fun r => T.home r = some h) := by
  obtain ⟨order, ids, perm⟩ := moves.exists_order index
  rw [relocate, ← ids, filter_renumber moves.nodup_close perm apart]

lemma source_ids (strict : T.Strict source rows) (apart : source ≠ target) :
    T.idsIn source (T.relocate key change source target index rows) =
      (T.idsIn source rows).filter (· ≠ key) := by
  have listed : T.idsIn source (T.relocate key change source target index rows) =
      T.idsIn source (T.close key change source rows) := by
    rw [idsIn, listIn, moves.filter_relocate apart]
    rfl
  rw [listed, ← moves.others_close strict]
  refine (filter_eq_self.mpr (fun id member => decide_eq_true ?_)).symm
  rintro rfl
  obtain ⟨r, home, there, here⟩ := mem_idsIn.mp member
  obtain ⟨moved, movedHome, same, elsewhere⟩ := moves.exists_moved
  cases inj_on_of_nodup_map moves.nodup_close home movedHome (here.trans same.symm)
  exact apart (Option.some.inj (there.symm.trans elsewhere))

lemma numbered (either : h = source ∨ h = target) :
    (T.listIn h (T.relocate key change source target index rows)).map T.order =
      (range (T.idsIn h (T.relocate key change source target index rows)).length).map
        Int.ofNat := by
  obtain ⟨order, ids, perm⟩ := moves.exists_order index
  by_cases atTarget : h = target
  · subst atTarget
    rw [relocate, ← ids, idsIn_renumber moves.nodup_close perm,
      listIn_renumber moves.nodup_close perm, order_zipIdx, length_map,
      range_eq_range']
  · obtain rfl := either.resolve_right atTarget
    have closed : T.listIn h (T.relocate key change h target index rows) =
        T.listIn h (T.close key change h rows) := by
      rw [listIn, moves.filter_relocate atTarget]
      rfl
    rw [idsIn, closed, length_map, close, idsIn,
      listIn_renumber moves.nodup_set listIn_perm, order_zipIdx, length_map,
      length_zipIdx, range_eq_range']

lemma elsewhere (offSource : h ≠ source) (offTarget : h ≠ target) :
    (T.relocate key change source target index rows).filter (fun r => T.home r = some h) =
      rows.filter (fun r => T.home r = some h) := by
  rw [moves.filter_relocate offTarget, close, idsIn,
    filter_renumber moves.nodup_set listIn_perm offSource]
  refine filter_set (fun r home here => ⟨decide_eq_false ?_, decide_eq_false ?_⟩)
  · rw [moves.leaves r home here]
    exact fun same => offSource (Option.some.inj same).symm
  · rw [moves.arrives r home here]
    exact fun same => offTarget (Option.some.inj same).symm

end Moves

end Moves

end Siblings
