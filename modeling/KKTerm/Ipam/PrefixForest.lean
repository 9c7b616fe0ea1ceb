import KKTerm.Ipam.PrefixTree
import KKTerm.Library.ForestOrder

/-!
# The prefix tree is a forest

The prefixes of one VRF form a forest order. The links of the tree are its
parents, the depth of a node is its number of ancestors, and siblings share no
address.
-/

namespace Ipam

open Prefix hiding length size
open UInt32 Loops
open Prod hiding map_map
open Option hiding all_eq_true any_eq_true filter_map forall_mem_map map_map mem_map
  mem_toFinset
open List hiding Disjoint

namespace Entry

/-- A strictly shorter prefix of the same VRF that contains the other one. -/
def Above (a b : Entry) : Prop :=
  a.1.vrf = b.1.vrf ∧ a.2.length < b.2.length ∧ a.2.containsPrefix b.2 = true

instance (a b : Entry) : Decidable (Above a b) :=
  inferInstanceAs (Decidable (_ ∧ _))

def key (e : Entry) : List Char × Prefix :=
  (e.1.vrf, e.2)

variable {a b c : Entry}

lemma Above.points (above : Above a b) : b.2.block.points ⊆ a.2.block.points :=
  containsPrefix_iff.mp above.2.2

lemma above_irrefl (a : Entry) : ¬ Above a a :=
  fun above => Nat.lt_irrefl _ above.2.1

lemma Above.trans (hab : Above a b) (hbc : Above b c) : Above a c :=
  ⟨hab.1.trans hbc.1, Nat.lt_trans hab.2.1 hbc.2.1,
    containsPrefix_iff.mpr (Finset.Subset.trans hbc.points hab.points)⟩

/-- Two prefixes of one VRF that share an address are above each other or equal. -/
lemma above_of_meet (vrf : a.1.vrf = b.1.vrf) {x : Nat} (ha : x ∈ a.2.block.points)
    (hb : x ∈ b.2.block.points) : key a = key b ∨ Above a b ∨ Above b a := by
  rcases Nat.lt_trichotomy a.2.length b.2.length with shorter | same | longer
  · refine Or.inr (.inl ⟨vrf, shorter, containsPrefix_iff.mpr ?_⟩)
    exact Block.subset_of_meet (level_le_iff.mpr (Nat.le_of_lt shorter)) hb ha
  · have level : a.2.block.level = b.2.block.level := congrArg (32 - ·) same
    have equal := ext_block same (Block.base_eq_of_meet level ha hb)
    exact .inl (Prod.ext vrf equal)
  · refine Or.inr (.inr ⟨vrf.symm, longer, containsPrefix_iff.mpr ?_⟩)
    exact Block.subset_of_meet (level_le_iff.mpr (Nat.le_of_lt longer)) ha hb

lemma Above.sortKey_lt (above : Above a b) : sortKey a < sortKey b := by
  have ⟨vrf, shorter, _⟩ := above
  have inside := above.points b.2.block.base_mem
  have low : a.2.network.toNat ≤ b.2.network.toNat := (Finset.mem_Ico.mp inside).1
  rw [sortKey, sortKey, Lex.toLex_lt_toLex, Lex.toLex_lt_toLex]
  refine Or.inr ⟨vrf, ?_⟩
  rcases Nat.lt_or_eq_of_le low with lower | same
  · exact .inl lower
  · exact .inr ⟨same, shorter⟩

lemma key_eq_of_sortKey (same : sortKey a = sortKey b) : key a = key b := by
  have parts := toLex_inj.mp same
  have vrf : a.1.vrf = b.1.vrf := congrArg fst parts
  have rest := toLex_inj.mp (congrArg snd parts)
  have network : a.2.block.base = b.2.block.base := congrArg fst rest
  exact Prod.ext vrf (ext_block (congrArg snd rest) network)

end Entry

/-- The sorted rows, with unique ids and prefixes that are unique in their VRF. -/
structure Keyed (parsed : List Entry) : Prop where
  ids : (parsed.map (·.1.id)).Nodup
  keys : (parsed.map Entry.key).Nodup
  sorted : parsed.Pairwise (fun a b => sortKey a < sortKey b)

namespace Keyed

variable {parsed : List Entry} {a b e : Entry} {i j p : Nat}

lemma lt_of_sortKey (k : Keyed parsed) (ha : parsed[i]? = some a) (hb : parsed[j]? = some b)
    (less : sortKey a < sortKey b) : i < j := by
  obtain ⟨hi, rfl⟩ := List.getElem?_eq_some_iff.mp ha
  obtain ⟨hj, rfl⟩ := List.getElem?_eq_some_iff.mp hb
  by_contra late
  rcases Nat.lt_or_eq_of_le (Nat.le_of_not_lt late) with earlier | same
  · exact lt_asymm less (pairwise_iff_getElem.mp k.sorted j i hj hi earlier)
  · subst same
    exact lt_irrefl _ less

lemma eq_of_key (k : Keyed parsed) (ha : a ∈ parsed) (hb : b ∈ parsed)
    (same : a.key = b.key) : a = b :=
  inj_on_of_nodup_map k.keys ha hb same

lemma forest (k : Keyed parsed) : ForestOrder Entry.Above parsed.toFinset where
  irrefl := Entry.above_irrefl
  trans := Entry.Above.trans
  chain := by
    intro a b c ha hb hac hbc
    have low := c.2.block.base_mem
    rcases Entry.above_of_meet (hac.1.trans hbc.1.symm) (hac.points low) (hbc.points low) with
      same | above
    · exact .inl (k.eq_of_key (mem_toFinset.mp ha) (mem_toFinset.mp hb) same)
    · exact .inr above

/-- Entries of one VRF of which none is above the other share no address. -/
lemma disjoint (k : Keyed parsed) (ha : a ∈ parsed) (hb : b ∈ parsed) (differ : a ≠ b)
    (vrf : a.1.vrf = b.1.vrf) (not_above : ¬ Entry.Above a b) (not_below : ¬ Entry.Above b a) :
    Disjoint a.2.block.points b.2.block.points := by
  rw [Finset.disjoint_left]
  intro x inside_a inside_b
  rcases Entry.above_of_meet vrf inside_a inside_b with same | above | below
  · exact differ (k.eq_of_key ha hb same)
  · exact not_above above
  · exact not_below below

end Keyed

/-- No prefix is a candidate, or the given one is a longest candidate. -/
def Longest (prefixes : List Prefix) (candidate : Nat → Prefix → Bool) : Option Nat → Prop
  | none => ∀ j q, prefixes[j]? = some q → candidate j q = false
  | some i => ∃ p, prefixes[i]? = some p ∧ candidate i p = true ∧
      ∀ j q, prefixes[j]? = some q → candidate j q = true → q.length ≤ p.length

lemma innermost_longest (prefixes : List Prefix) (candidate : Nat → Prefix → Bool) :
    Longest prefixes candidate (innermost prefixes candidate) := by
  have best := best_foldl (fun index => prefixes[index]?.any (candidate index))
    (fun index => prefixes[index]?.elim 0 Prefix.length) (List.range prefixes.length)
  rw [← innermost] at best
  have inside : ∀ j q, prefixes[j]? = some q → j ∈ List.range prefixes.length :=
    fun j q found => mem_range.mpr (List.getElem?_eq_some_iff.mp found).1
  cases result : innermost prefixes candidate with
  | none =>
    rw [result] at best
    intro j q found
    have rejected : prefixes[j]?.any (candidate j) = false := best j (inside j q found)
    rwa [found] at rejected
  | some i =>
    rw [result] at best
    obtain ⟨-, chosen, greatest⟩ := best
    obtain ⟨p, found, good⟩ := (Option.any_eq_true _ _).mp chosen
    refine ⟨p, found, good, fun j q found' good' => ?_⟩
    have longest : prefixes[j]?.elim 0 Prefix.length ≤ prefixes[i]?.elim 0 Prefix.length :=
      greatest j (inside j q found') ((Option.any_eq_true _ _).mpr ⟨q, found', good'⟩)
    rwa [found, found'] at longest

/-- The index of the parent, or none when nothing is above. -/
def ParentOf (parsed : List Entry) (e : Entry) : Option Nat → Prop
  | some p => ∃ a, parsed[p]? = some a ∧
      ForestOrder.IsParent Entry.Above parsed.toFinset a e
  | none => ∀ a ∈ parsed, ¬ Entry.Above a e

section Parents
variable {parsed : List Entry} {a b e : Entry} {i j p place : Nat} {group : List Nat}

lemma vrf_le (k : Keyed parsed) (ha : parsed[i]? = some a) (hb : parsed[j]? = some b)
    (h : i ≤ j) : a.1.vrf ≤ b.1.vrf := by
  have le : sortKey a ≤ sortKey b := by
    by_contra less
    exact absurd (k.lt_of_sortKey hb ha (lt_of_not_ge less)) (Nat.not_lt_of_le h)
  exact Lex.monotone_fst _ _ le

lemma grouped (k : Keyed parsed) :
    Grouped (vrfAt parsed) parsed.length (groupIndicesByVrf parsed) := by
  refine grouped_foldl (fun i j l hij hjl hl same => ?_)
  have ha := getElem?_eq_getElem (l := parsed) (i := i) (by omega)
  have hb := getElem?_eq_getElem (l := parsed) (i := j) (by omega)
  have hc := getElem?_eq_getElem hl
  rw [vrfAt, vrfAt, ha, hc] at same
  rw [vrfAt, vrfAt, hb, hc]
  have low := vrf_le k ha hb hij
  have high := vrf_le k hb hc (Nat.le_of_lt hjl)
  exact congrArg some (le_antisymm high (Option.some.inj same ▸ low))

lemma getElem?_groupPrefixes (inside : ∀ i ∈ group, i < parsed.length) (place : Nat) :
    (groupPrefixes parsed group)[place]? =
      group[place]?.bind (fun i => parsed[i]?.map snd) := by
  induction group generalizing place with
  | nil => rfl
  | cons x rest ih =>
    have small : x < parsed.length := inside x mem_cons_self
    have shape : groupPrefixes parsed (x :: rest) = parsed[x].2 :: groupPrefixes parsed rest := by
      rw [groupPrefixes, filterMap_cons, getElem?_eq_getElem small]
      rfl
    rw [shape]
    cases place with
    | zero =>
      rw [getElem?_cons_zero, getElem?_cons_zero, bind_some, getElem?_eq_getElem small]
      rfl
    | succ place =>
      rw [getElem?_cons_succ, getElem?_cons_succ]
      exact ih (fun i hi => inside i (mem_cons_of_mem x hi)) place

/-- Everything above an entry is a candidate in its group. -/
lemma candidate_of_above (k : Keyed parsed) (member : group ∈ groupIndicesByVrf parsed)
    (hi : group[place]? = some i) (he : parsed[i]? = some e) (ha : parsed[j]? = some a)
    (above : Entry.Above a e) :
    ∃ at_, group[at_]? = some j ∧ (groupPrefixes parsed group)[at_]? = some a.2 ∧ at_ ≠ place := by
  have g := grouped k
  have small : j < parsed.length := (List.getElem?_eq_some_iff.mp ha).1
  have vrf : vrfAt parsed j = vrfAt parsed i := by
    rw [vrfAt, vrfAt, ha, he]
    exact congrArg some above.1
  have inside := (g.gathered group member i (mem_of_getElem? hi) j small).mpr vrf
  obtain ⟨at_, found⟩ := getElem?_of_mem inside
  refine ⟨at_, found, ?_, ?_⟩
  · rw [getElem?_groupPrefixes (fun i hi => g.lt member hi), found, bind_some, ha]
    rfl
  · rintro rfl
    rw [found] at hi
    cases hi
    rw [ha] at he
    cases he
    exact Entry.above_irrefl a above

lemma parent_place (k : Keyed parsed) (member : group ∈ groupIndicesByVrf parsed)
    (hi : group[place]? = some i) (he : parsed[i]? = some e) :
    ParentOf parsed e ((parentIndex (groupPrefixes parsed group) place).bind (group[·]?)) := by
  have g := grouped k
  have prefixes := getElem?_groupPrefixes (fun i hi => g.lt member hi)
  have child : (groupPrefixes parsed group)[place]? = some e.2 := by
    rw [prefixes, hi, bind_some, he]
    rfl
  rw [parentIndex, child, bind_some]
  have longest := innermost_longest (groupPrefixes parsed group) (fun index candidate =>
    index ≠ place && candidate.containsPrefix e.2 && candidate.length < e.2.length)
  generalize innermost (groupPrefixes parsed group) _ = result at longest ⊢
  cases result with
  | none =>
    intro a member' above
    obtain ⟨j, ha⟩ := getElem?_of_mem member'
    obtain ⟨at_, -, found, differ⟩ := candidate_of_above k member hi he ha above
    have rejected := longest at_ a.2 found
    simp [differ, above.2.1, above.2.2] at rejected
  | some chosen =>
    obtain ⟨q, found, eligible, greatest⟩ := longest
    rw [prefixes] at found
    obtain ⟨p, hp, found⟩ := bind_eq_some_iff.mp found
    obtain ⟨a, ha, rfl⟩ := map_eq_some_iff.mp found
    simp only [Bool.and_eq_true, decide_eq_true_eq] at eligible greatest
    have vrf := (g.gathered group member i (mem_of_getElem? hi) p
      (List.getElem?_eq_some_iff.mp ha).1).mp (mem_of_getElem? hp)
    rw [vrfAt, vrfAt, ha, he] at vrf
    have above : Entry.Above a e := ⟨Option.some.inj vrf, eligible.2, eligible.1.2⟩
    have mem_a := mem_toFinset.mpr (mem_of_getElem? ha)
    rw [bind_some, hp]
    refine ⟨a, ha, mem_a, above, fun c mem_c above_c => ?_⟩
    obtain ⟨j, hc⟩ := getElem?_of_mem (mem_toFinset.mp mem_c)
    obtain ⟨at_, -, found', differ⟩ := candidate_of_above k member hi he hc above_c
    have shorter := greatest at_ c.2 found' ⟨⟨differ, above_c.2.2⟩, above_c.2.1⟩
    rcases k.forest.chain mem_c mem_a above_c above with same | higher | lower
    · exact .inl same
    · exact .inr higher
    · exact absurd shorter (Nat.not_le_of_lt lower.2.1)

/-- The links of a group: an index and the index of its parent. -/
def groupPairs (parsed : List Entry) (group : List Nat) : List (Nat × Nat) :=
  group.zipIdx.filterMap (fun (index, place) =>
    ((parentIndex (groupPrefixes parsed group) place).bind (group[·]?)).map (index, ·))

def parentPairs (parsed : List Entry) : List (Nat × Nat) :=
  (groupIndicesByVrf parsed).flatMap (groupPairs parsed)

lemma linkEntries_eq (parsed : List Entry) :
    linkEntries parsed = (parentPairs parsed).foldl
      (fun links pair => links.link parsed pair.1 pair.2) (.new parsed.length) := by
  rw [linkEntries, parentPairs, foldl_flatMap]
  congr 1
  funext links group
  rw [linkGroup, groupPairs, foldl_filterMap]
  congr 1
  funext links entry
  obtain ⟨index, place⟩ := entry
  dsimp only
  cases (parentIndex (groupPrefixes parsed group) place).bind (group[·]?) <;> rfl

section
variable (k : Keyed parsed)
include k

lemma Keyed.index_unique (ha : parsed[i]? = some a) (hb : parsed[j]? = some a) : i = j :=
  (getElem?_inj (List.getElem?_eq_some_iff.mp ha).1 (Nodup.of_map _ k.ids)).mp (ha.trans hb.symm)

lemma ParentOf.unique {r r' : Option Nat} (h : ParentOf parsed e r)
    (h' : ParentOf parsed e r') : r = r' := by
  cases r with
  | none =>
    cases r' with
    | none => rfl
    | some p =>
      obtain ⟨a, ha, parent⟩ := h'
      exact absurd parent.above (h a (mem_of_getElem? ha))
  | some p =>
    obtain ⟨a, ha, parent⟩ := h
    cases r' with
    | none => exact absurd parent.above (h' a (mem_of_getElem? ha))
    | some q =>
      obtain ⟨b, hb, parent'⟩ := h'
      cases parent.unique k.forest parent'
      exact congrArg some (k.index_unique ha hb)

lemma exists_group (he : parsed[i]? = some e) :
    ∃ group ∈ groupIndicesByVrf parsed, ∃ place : Nat, group[place]? = some i := by
  have range : i ∈ List.range parsed.length := mem_range.mpr (List.getElem?_eq_some_iff.mp he).1
  rw [← (grouped k).order] at range
  obtain ⟨group, member, inside⟩ := mem_flatten.mp range
  exact ⟨group, member, getElem?_of_mem inside⟩

lemma exists_parentOf (he : parsed[i]? = some e) : ∃ result, ParentOf parsed e result := by
  obtain ⟨group, member, place, hi⟩ := exists_group k he
  exact ⟨_, parent_place k member hi he⟩

lemma mem_parentPairs (he : parsed[i]? = some e) :
    (i, p) ∈ parentPairs parsed ↔ ParentOf parsed e (some p) := by
  constructor
  · intro pair
    obtain ⟨group, member, pair⟩ := mem_flatMap.mp pair
    obtain ⟨⟨index, place⟩, entry, linked⟩ := mem_filterMap.mp pair
    obtain ⟨parent, result, same⟩ := map_eq_some_iff.mp linked
    cases same
    have hi := mem_zipIdx_iff_getElem?.mp entry
    exact result ▸ parent_place k member hi he
  · intro parent
    obtain ⟨group, member, place, hi⟩ := exists_group k he
    have result := (parent_place k member hi he).unique k parent
    refine mem_flatMap.mpr ⟨group, member, mem_filterMap.mpr ⟨(i, place), ?_, ?_⟩⟩
    · exact mem_zipIdx_iff_getElem?.mpr hi
    · exact congrArg (Option.map (i, ·)) result

end

lemma map_fst_sublist {α : Type*} (f : α × Nat → Option Nat) (l : List (α × Nat)) :
    ((l.filterMap (fun x => (f x).map (x.1, ·))).map fst).Sublist (l.map fst) := by
  induction l with
  | nil => exact Sublist.refl _
  | cons x l ih =>
    rw [filterMap_cons, map_cons]
    cases f x with
    | none => exact ih.cons _
    | some p => exact ih.cons_cons _

lemma parentPairs_sublist (k : Keyed parsed) :
    ((parentPairs parsed).map fst).Sublist (List.range parsed.length) := by
  rw [← (grouped k).order, parentPairs]
  generalize groupIndicesByVrf parsed = groups
  induction groups with
  | nil => exact Sublist.refl _
  | cons group groups ih =>
    rw [flatMap_cons, map_append, flatten_cons]
    refine Sublist.append ?_ ih
    have part := map_fst_sublist (fun x : Nat × Nat =>
      (parentIndex (groupPrefixes parsed group) x.2).bind (group[·]?)) group.zipIdx
    rwa [zipIdx_map_fst] at part

lemma parentPairs_nodup (k : Keyed parsed) : ((parentPairs parsed).map fst).Nodup :=
  nodup_range.sublist (parentPairs_sublist k)

lemma parentIds_eq (parsed : List Entry) :
    (linkEntries parsed).parentIds = (parentPairs parsed).foldl
      (fun cells pair => cells.set pair.1 (parsed[pair.2]?.map (·.1.id)))
      (replicate parsed.length none) := by
  rw [linkEntries_eq]
  exact (foldl_hom Links.parentIds (fun _ _ => rfl)).symm

/-- The number of addresses of the entry at an index. -/
def blockSize (parsed : List Entry) (index : Nat) : Nat :=
  parsed[index]?.elim 0 (·.2.block.size)

lemma ofNat_blockSize (parsed : List Entry) (index : Nat) :
    parsed[index]?.elim 0 (·.2.size) = UInt64.ofNat (blockSize parsed index) := by
  rw [blockSize]
  cases parsed[index]? with
  | none => rfl
  | some e =>
    have size := UInt64.ofNat_toNat (x := e.2.size)
    rw [e.2.size_eq] at size
    exact size.symm

lemma covered_eq (parsed : List Entry) :
    (linkEntries parsed).covered = (parentPairs parsed).foldl
      (fun counters pair => counters.modify pair.2 (· + UInt64.ofNat (blockSize parsed pair.1)))
      (replicate parsed.length 0) := by
  rw [linkEntries_eq]
  refine (foldl_hom Links.covered (fun links pair => ?_)).symm
  rw [Links.link, ofNat_blockSize]

lemma parentIds_of_parent (k : Keyed parsed) (he : parsed[i]? = some e)
    (parent : ParentOf parsed e (some p)) (ha : parsed[p]? = some a) :
    (linkEntries parsed).parentIds[i]? = some (some a.1.id) := by
  have pair := (mem_parentPairs k he).mpr parent
  have inside := (List.getElem?_eq_some_iff.mp he).1
  rw [parentIds_eq]
  have replicated : i < (replicate parsed.length (none : Option (List Char))).length := by
    rwa [length_replicate]
  refine (getElem?_foldl_set (parentPairs_nodup k) pair replicated).trans ?_
  rw [ha]
  rfl

lemma parentIds_of_root (k : Keyed parsed) (he : parsed[i]? = some e)
    (root : ParentOf parsed e none) : (linkEntries parsed).parentIds[i]? = some none := by
  have fresh : i ∉ (parentPairs parsed).map fst := by
    intro member
    obtain ⟨⟨_, p⟩, pair, rfl⟩ := mem_map.mp member
    exact nomatch root.unique k ((mem_parentPairs k he).mp pair)
  have inside := (List.getElem?_eq_some_iff.mp he).1
  rw [parentIds_eq, getElem?_foldl_set_of_not_mem fresh, getElem?_replicate_of_lt inside]

def childIndices (parsed : List Entry) (p : Nat) : List Nat :=
  ((parentPairs parsed).filter (·.2 = p)).map Prod.fst

lemma covered_get (parsed : List Entry) {p : Nat} (inside : p < parsed.length) :
    (linkEntries parsed).covered[p]? =
      some (UInt64.ofNat ((childIndices parsed p).map (blockSize parsed)).sum) := by
  rw [covered_eq, getElem?_foldl_add UInt64.add_zero, getElem?_replicate_of_lt inside,
    map_some, UInt64.zero_add, childIndices, map_map]
  · rfl
  · intro a m n
    rw [UInt64.add_assoc, UInt64.ofNat_add]

section
variable (k : Keyed parsed)
include k

lemma childIndices_nodup (p : Nat) : (childIndices parsed p).Nodup :=
  (parentPairs_nodup k).sublist (filter_sublist.map fst)

lemma mem_childIndices (he : parsed[i]? = some e) :
    i ∈ childIndices parsed p ↔ ParentOf parsed e (some p) := by
  rw [← mem_parentPairs k he, childIndices, mem_map]
  constructor
  · rintro ⟨⟨_, q⟩, member, rfl⟩
    obtain ⟨pair, same⟩ := mem_filter.mp member
    exact of_decide_eq_true same ▸ pair
  · intro pair
    exact ⟨(i, p), mem_filter.mpr ⟨pair, decide_eq_true rfl⟩, rfl⟩

lemma exists_of_child (member : i ∈ childIndices parsed p) : ∃ e, parsed[i]? = some e := by
  have first := (filter_sublist.map fst).subset member
  have small := mem_range.mp ((parentPairs_sublist k).subset first)
  exact ⟨parsed[i], getElem?_eq_getElem small⟩

lemma ParentOf.disjoint (ha : a ∈ parsed) (hb : b ∈ parsed) (differ : a ≠ b)
    (parent_a : ParentOf parsed a (some p)) (parent_b : ParentOf parsed b (some p)) :
    Disjoint a.2.block.points b.2.block.points := by
  obtain ⟨c, hc, above_a⟩ := parent_a
  obtain ⟨c', hc', above_b⟩ := parent_b
  rw [hc] at hc'
  cases hc'
  exact k.disjoint ha hb differ (above_a.above.1.symm.trans above_b.above.1)
    (above_a.not_above_sibling k.forest above_b (mem_toFinset.mpr ha))
    (above_b.not_above_sibling k.forest above_a (mem_toFinset.mpr hb))

lemma total_children_le (ha : parsed[p]? = some a) :
    ((childIndices parsed p).map (blockSize parsed)).sum ≤ a.2.block.size := by
  let block : Nat → Block := fun i => (parsed[i]?.elim a.2 snd).block
  have entry : ∀ i ∈ (childIndices parsed p).toFinset,
      ∃ e, parsed[i]? = some e ∧ ParentOf parsed e (some p) ∧ block i = e.2.block := by
    intro i member
    obtain ⟨e, he⟩ := exists_of_child k (mem_toFinset.mp member)
    have same : block i = e.2.block := by
      change (parsed[i]?.elim a.2 snd).block = e.2.block
      rw [he]
      rfl
    exact ⟨e, he, (mem_childIndices k he).mp (mem_toFinset.mp member), same⟩
  rw [← sum_toFinset _ (childIndices_nodup k p)]
  have sizes : ∀ i ∈ (childIndices parsed p).toFinset, blockSize parsed i = (block i).size := by
    intro i member
    obtain ⟨e, he, -, same⟩ := entry i member
    rw [same, blockSize, he]
    rfl
  rw [Finset.sum_congr rfl sizes]
  refine Block.total_size_le ?_ ?_
  · intro i mem_i j mem_j differ
    obtain ⟨e, he, parent, same⟩ := entry i mem_i
    obtain ⟨e', he', parent', same'⟩ := entry j mem_j
    rw [same, same']
    refine parent.disjoint k (mem_of_getElem? he) (mem_of_getElem? he') ?_ parent'
    rintro rfl
    exact differ (k.index_unique he he')
  · intro i mem_i
    obtain ⟨e, -, ⟨c, hc, parent⟩, same⟩ := entry i mem_i
    rw [ha] at hc
    cases hc
    rw [same]
    exact parent.above.points

lemma indexById_eq (ha : parsed[p]? = some a) : indexById parsed a.1.id = some p := by
  refine keepLast_foldl (List.getElem?_eq_some_iff.mp ha).1 ?_ (fun j _ found => ?_)
  · rw [ha]
    exact decide_eq_true rfl
  · obtain ⟨b, hb, same⟩ := (Option.any_eq_true _ _).mp found
    have equal := inj_on_of_nodup_map k.ids (mem_of_getElem? hb)
      (mem_of_getElem? ha) (of_decide_eq_true same)
    exact k.index_unique hb (equal ▸ ha)

end

def level (parsed : List Entry) (e : Entry) : Nat :=
  (ForestOrder.ancestors Entry.Above parsed.toFinset e).card

lemma level_le (k : Keyed parsed) (e : Entry) : level parsed e ≤ 32 :=
  (k.forest.card_ancestors_le (fun e => e.2.length) (fun above => above.2.1) e).trans e.2.length_le

lemma level_root (root : ParentOf parsed e none) : level parsed e = 0 := by
  rw [level, Finset.card_eq_zero, ForestOrder.ancestors, Finset.filter_eq_empty_iff]
  exact fun a member => root a (mem_toFinset.mp member)

lemma depthFrom_eq (k : Keyed parsed) (bound : Nat) (he : parsed[i]? = some e)
    (enough : level parsed e ≤ bound) :
    depthFrom parsed (linkEntries parsed).parentIds bound
        (linkEntries parsed).parentIds[i]?.join = ofNat (level parsed e) := by
  induction bound generalizing i e with
  | zero =>
    rw [Nat.le_zero.mp enough, depthFrom]
    rfl
  | succ bound ih =>
    obtain ⟨result, parent⟩ := exists_parentOf k he
    cases result with
    | none =>
      rw [parentIds_of_root k he parent, level_root parent]
      rfl
    | some p =>
      obtain ⟨a, ha, above⟩ := parent
      have levels : level parsed e = level parsed a + 1 := above.card_ancestors k.forest
      rw [parentIds_of_parent k he ⟨a, ha, above⟩ ha, join_some, depthFrom, indexById_eq k ha]
      dsimp only
      rw [ih ha (by omega), levels, ofNat_add]
      rfl

end Parents

section Addresses
variable {parsed : List Entry} {record : IpAddressRecord} {a : Entry} {p : Nat}

/-- The prefix contains the address of the record, in the same VRF. -/
def Entry.holds (e : Entry) (record : IpAddressRecord) : Bool :=
  e.1.vrf = record.vrf && (parseAddress record.address).any e.2.containsAddress

/-- The index of the longest entry that holds the record. -/
def PlaceOf (parsed : List Entry) (record : IpAddressRecord) : Option Nat → Prop
  | some p => ∃ a, parsed[p]? = some a ∧ a.holds record = true ∧
      ∀ b ∈ parsed, b.holds record = true → b.2.length ≤ a.2.length
  | none => ∀ a ∈ parsed, a.holds record = false

lemma addressPlace_spec (parsed : List Entry) (record : IpAddressRecord) :
    PlaceOf parsed record (addressPlace parsed record) := by
  rw [addressPlace]
  cases read : parseAddress record.address with
  | none =>
    intro a _
    rw [Entry.holds, read]
    exact Bool.and_false _
  | some value =>
    have entry : ∀ j q, (parsed.map snd)[j]? = some q →
        ∃ b, parsed[j]? = some b ∧ b.2 = q ∧ b.holds record =
          (decide (vrfAt parsed j = some record.vrf) && q.containsAddress value) := by
      intro j q found
      rw [getElem?_map] at found
      obtain ⟨b, hb, rfl⟩ := map_eq_some_iff.mp found
      refine ⟨b, hb, rfl, ?_⟩
      rw [Entry.holds, read, vrfAt, hb]
      simp
    have longest := innermost_longest (parsed.map snd) (fun index p =>
      vrfAt parsed index = some record.vrf && p.containsAddress value)
    rw [bind_some]
    generalize innermost (parsed.map snd) _ = result at longest ⊢
    cases result with
    | none =>
      intro a member
      obtain ⟨j, ha⟩ := getElem?_of_mem member
      have found : (parsed.map snd)[j]? = some a.2 := by rw [getElem?_map, ha]; rfl
      obtain ⟨b, hb, -, same⟩ := entry j a.2 found
      rw [ha] at hb
      cases hb
      exact same.trans (longest j a.2 found)
    | some i =>
      obtain ⟨q, found, good, greatest⟩ := longest
      obtain ⟨a, ha, rfl, same⟩ := entry i q found
      refine ⟨a, ha, same.trans good, fun b member holds => ?_⟩
      obtain ⟨j, hb⟩ := getElem?_of_mem member
      have found' : (parsed.map snd)[j]? = some b.2 := by rw [getElem?_map, hb]; rfl
      obtain ⟨c, hc, -, same'⟩ := entry j b.2 found'
      rw [hb] at hc
      cases hc
      exact greatest j b.2 found' (same'.symm.trans holds)

/-- Two entries of one length that hold the same record are equal. -/
lemma Keyed.eq_of_holds {b : Entry} (k : Keyed parsed) (ha : a ∈ parsed) (hb : b ∈ parsed)
    (holds_a : a.holds record = true) (holds_b : b.holds record = true)
    (length : a.2.length = b.2.length) : a = b := by
  obtain ⟨vrf_a, inside_a⟩ := Bool.and_eq_true_iff.mp holds_a
  obtain ⟨vrf_b, inside_b⟩ := Bool.and_eq_true_iff.mp holds_b
  obtain ⟨value, read, in_a⟩ := (Option.any_eq_true _ _).mp inside_a
  obtain ⟨value', read', in_b⟩ := (Option.any_eq_true _ _).mp inside_b
  rw [read] at read'
  cases read'
  have vrf : a.1.vrf = b.1.vrf := (of_decide_eq_true vrf_a).trans (of_decide_eq_true vrf_b).symm
  rcases Entry.above_of_meet vrf (containsAddress_iff.mp in_a)
    (containsAddress_iff.mp in_b) with same | above | above
  · exact k.eq_of_key ha hb same
  · exact absurd length (Nat.ne_of_lt above.2.1)
  · exact absurd length.symm (Nat.ne_of_lt above.2.1)

lemma PlaceOf.unique (k : Keyed parsed) {r r' : Option Nat} (h : PlaceOf parsed record r)
    (h' : PlaceOf parsed record r') : r = r' := by
  cases r with
  | none =>
    cases r' with
    | none => rfl
    | some q =>
      obtain ⟨b, hb, holds, -⟩ := h'
      rw [h b (mem_of_getElem? hb)] at holds
      cases holds
  | some p =>
    obtain ⟨a, ha, holds, greatest⟩ := h
    have mem_a := mem_of_getElem? ha
    cases r' with
    | none =>
      rw [h' a mem_a] at holds
      cases holds
    | some q =>
      obtain ⟨b, hb, holds', greatest'⟩ := h'
      have mem_b := mem_of_getElem? hb
      have same := k.eq_of_holds mem_a mem_b holds holds'
        (Nat.le_antisymm (greatest' a mem_a holds) (greatest b mem_b holds'))
      subst same
      exact congrArg some (k.index_unique ha hb)

lemma addressCounts_get (parsed : List Entry) (addresses : List IpAddressRecord)
    (inside : p < parsed.length) :
    (addresses.foldl (countAddress parsed) (replicate parsed.length 0))[p]? = some (ofNat
        (addresses.countP (fun record => addressPlace parsed record = some p))) := by
  have counted : addresses.foldl (countAddress parsed) (replicate parsed.length 0) =
      (addresses.filterMap (addressPlace parsed)).foldl
        (fun counters place => counters.modify place (· + ofNat 1))
        (replicate parsed.length 0) := by
    rw [foldl_filterMap]
    congr 1
    funext counts record
    rw [countAddress]
    cases addressPlace parsed record <;> rfl
  rw [counted, getElem?_foldl_add UInt32.add_zero, getElem?_replicate_of_lt inside,
    map_some, UInt32.zero_add]
  · congr 2
    rw [map_const', sum_replicate_nat, ← countP_eq_length_filter, countP_filterMap, Nat.mul_one]
    congr 1
    funext record
    cases addressPlace parsed record <;> simp
  · intro a m n
    rw [UInt32.add_assoc, ofNat_add]

end Addresses

namespace IpPrefix

/-- The row is a strictly shorter prefix of the same VRF that contains the other. -/
def above (row other : IpPrefix) : Bool :=
  row.vrf = other.vrf && (parse row.cidr).any (fun p =>
    (parse other.cidr).any (fun q => p.length < q.length && p.containsPrefix q))

def length (row : IpPrefix) : Nat :=
  (parse row.cidr).elim 0 Prefix.length

def size (row : IpPrefix) : Nat :=
  (parse row.cidr).elim 0 (fun p => 2 ^ (32 - p.length))

def covers (row : IpPrefix) (address : UInt32) : Bool :=
  (parse row.cidr).any (·.containsAddress address)

/-- The row contains the address of the record, in the same VRF. -/
def holds (row : IpPrefix) (record : IpAddressRecord) : Bool :=
  row.vrf = record.vrf && (parseAddress record.address).any row.covers

end IpPrefix

/-- The node is a longest one that holds the record. -/
def IpamPrefixNode.isInnermost (nodes : List IpamPrefixNode) (n : IpamPrefixNode)
    (record : IpAddressRecord) : Bool :=
  n.row.holds record && nodes.all (fun m => !m.row.holds record || m.row.length ≤ n.row.length)

/-- What the tree is for. The count of addresses is a machine word. -/
structure IsPrefixTree (rows : List IpPrefix) (addresses : List IpAddressRecord)
    (nodes : List IpamPrefixNode) : Prop where
  rows : (nodes.map IpamPrefixNode.row).Perm (rows.filter (fun row => (parse row.cidr).isSome))
  ordered : ∀ (i j : Nat) (m n : IpamPrefixNode), nodes[i]? = some m → nodes[j]? = some n →
    n.parentId = some m.row.id → i < j
  parent : ∀ n ∈ nodes, ∀ id, n.parentId = some id ↔
    ∃ m ∈ nodes, m.row.id = id ∧ m.row.above n.row ∧
      ∀ l ∈ nodes, l.row.above n.row → l.row.length ≤ m.row.length
  root : ∀ n ∈ nodes, n.parentId = none ↔ ∀ m ∈ nodes, ¬ m.row.above n.row
  depth : ∀ n ∈ nodes, n.depth.toNat = nodes.countP (fun m => m.row.above n.row)
  depth_le : ∀ n ∈ nodes, n.depth.toNat ≤ 32
  apart : ∀ m ∈ nodes, ∀ n ∈ nodes, m.row ≠ n.row → ∀ id, m.parentId = some id →
    n.parentId = some id → ∀ address, ¬ (m.row.covers address ∧ n.row.covers address)
  covered : ∀ n ∈ nodes, n.row.status = .container → n.used.toNat =
    ((nodes.filter (·.parentId = some n.row.id)).map (·.row.size)).sum
  covered_le : ∀ n ∈ nodes, n.row.status = .container → n.used.toNat ≤ n.row.size
  counted : ∀ n ∈ nodes, n.addressCount =
    UInt32.ofNat (addresses.countP (n.isInnermost nodes))
  one : ∀ record, (nodes.countP (·.isInnermost nodes record) =
    if nodes.any (·.row.holds record) then 1 else 0)

section Tree
variable {rows : List IpPrefix} {addresses : List IpAddressRecord}

lemma sortedEntries_perm (rows : List IpPrefix) : (sortedEntries rows).Perm
    (rows.filterMap (fun row => (parse row.cidr).map (row, ·))) :=
  perm_insertionSort _ _

lemma map_fst_entries (rows : List IpPrefix) :
    (rows.filterMap (fun row => (parse row.cidr).map (row, ·))).map fst =
      rows.filter (fun row => (parse row.cidr).isSome) := by
  induction rows with
  | nil => rfl
  | cons row rows ih =>
    rw [filterMap_cons, filter_cons]
    cases parse row.cidr with
    | none => exact ih
    | some p => exact congrArg (row :: ·) ih

lemma keyed_sortedEntries (ids : (rows.map IpPrefix.id).Nodup)
    (keys : (rows.filterMap (fun row => (parse row.cidr).map (row.vrf, ·))).Nodup) :
    Keyed (sortedEntries rows) := by
  have perm := sortedEntries_perm rows
  have keys' : ((sortedEntries rows).map Entry.key).Nodup := by
    refine (perm.map Entry.key).nodup_iff.mpr ?_
    rw [map_filterMap]
    convert keys using 3 with row
    cases parse row.cidr <;> rfl
  constructor
  · refine (perm.map (·.1.id)).nodup_iff.mpr ?_
    have kept : ((rows.filter (fun row => (parse row.cidr).isSome)).map IpPrefix.id).Nodup :=
      ids.sublist (filter_sublist.map IpPrefix.id)
    rw [← map_fst_entries, map_map] at kept
    exact kept
  · exact keys'
  · have ordered := pairwise_insertionSort (fun a b : Entry => sortKey a ≤ sortKey b)
      (rows.filterMap (fun row => (parse row.cidr).map (row, ·)))
    refine (ordered.and (pairwise_map.mp keys')).imp (fun {a b} both => ?_)
    exact lt_of_le_of_ne both.1 (fun same => both.2 (Entry.key_eq_of_sortKey same))

lemma parse_of_mem {e : Entry} (member : e ∈ sortedEntries rows) :
    parse e.1.cidr = some e.2 := by
  obtain ⟨row, -, made⟩ := mem_filterMap.mp ((sortedEntries_perm rows).subset member)
  obtain ⟨p, read, rfl⟩ := map_eq_some_iff.mp made
  exact read

section Rows
variable {a b e : Entry}

lemma above_row (ha : parse a.1.cidr = some a.2) (hb : parse b.1.cidr = some b.2) :
    a.1.above b.1 = true ↔ Entry.Above a b := by
  rw [IpPrefix.above, ha, hb]
  simp [Entry.Above]

section
variable (he : Prefix.parse e.1.cidr = some e.2)
include he

lemma length_row : e.1.length = e.2.length := by
  rw [IpPrefix.length, he]
  rfl

lemma size_row : e.1.size = e.2.block.size := by
  rw [IpPrefix.size, he]
  rfl

lemma covers_row (address : UInt32) : e.1.covers address = e.2.containsAddress address := by
  rw [IpPrefix.covers, he]
  rfl

lemma holds_row (record : IpAddressRecord) : e.1.holds record = e.holds record := by
  rw [IpPrefix.holds, Entry.holds]
  congr 2
  funext address
  exact covers_row he address

end

end Rows

section Nodes
variable {a e : Entry} {i : Nat} {n : IpamPrefixNode}

def nodeAt (rows : List IpPrefix) (addresses : List IpAddressRecord) (e : Entry) (index : Nat) :
    IpamPrefixNode :=
  prefixNode (sortedEntries rows) (linkEntries (sortedEntries rows))
    (addresses.foldl (countAddress (sortedEntries rows))
      (List.replicate (sortedEntries rows).length 0)) e index

lemma getElem?_nodes (i : Nat) : (buildPrefixNodes rows addresses)[i]? =
    (sortedEntries rows)[i]?.map (fun e => nodeAt rows addresses e i) := by
  rw [buildPrefixNodes, getElem?_map, getElem?_zipIdx, Option.map_map, Nat.zero_add]
  rfl

lemma exists_entry (member : n ∈ buildPrefixNodes rows addresses) :
    ∃ i e, (sortedEntries rows)[i]? = some e ∧ n = nodeAt rows addresses e i := by
  obtain ⟨i, found⟩ := getElem?_of_mem member
  rw [getElem?_nodes] at found
  obtain ⟨e, he, rfl⟩ := map_eq_some_iff.mp found
  exact ⟨i, e, he, rfl⟩

lemma nodeAt_mem (he : (sortedEntries rows)[i]? = some e) :
    nodeAt rows addresses e i ∈ buildPrefixNodes rows addresses := by
  refine mem_of_getElem? (i := i) ?_
  rw [getElem?_nodes, he]
  rfl

lemma rows_nodes : (buildPrefixNodes rows addresses).map IpamPrefixNode.row =
    (sortedEntries rows).map fst := by
  apply ext_getElem?
  intro i
  rw [getElem?_map, getElem?_nodes, Option.map_map, getElem?_map]
  rfl

lemma forall_nodes {P : IpPrefix → Prop} :
    (∀ m ∈ buildPrefixNodes rows addresses, P m.row) ↔ ∀ a ∈ sortedEntries rows, P a.1 := by
  rw [← forall_mem_map, rows_nodes, forall_mem_map]

section
variable (k : Keyed (sortedEntries rows))
include k

section
variable (he : (sortedEntries rows)[i]? = some e)
include he

lemma parentId_of_parent {p : Nat} (parent : ParentOf (sortedEntries rows) e (some p))
    (ha : (sortedEntries rows)[p]? = some a) :
    (nodeAt rows addresses e i).parentId = some a.1.id := by
  change (linkEntries (sortedEntries rows)).parentIds[i]?.join = some a.1.id
  rw [parentIds_of_parent k he parent ha]
  rfl

lemma parentId_of_root (root : ParentOf (sortedEntries rows) e none) :
    (nodeAt rows addresses e i).parentId = none := by
  change (linkEntries (sortedEntries rows)).parentIds[i]?.join = none
  rw [parentIds_of_root k he root]
  rfl

lemma exists_parent {id : List Char} (named : (nodeAt rows addresses e i).parentId = some id) :
    ∃ p a, (sortedEntries rows)[p]? = some a ∧ a.1.id = id ∧
      ParentOf (sortedEntries rows) e (some p) := by
  obtain ⟨result, parent⟩ := exists_parentOf k he
  cases result with
  | none => exact nomatch (parentId_of_root k he parent).symm.trans named
  | some p =>
    have ⟨a, ha, _⟩ := parent
    exact ⟨p, a, ha, Option.some.inj ((parentId_of_parent k he parent ha).symm.trans named), parent⟩

end

end

lemma longest_iff (mem_a : a ∈ sortedEntries rows) (mem_e : e ∈ sortedEntries rows) :
    (∀ l ∈ buildPrefixNodes rows addresses, l.row.above e.1 = true →
        l.row.length ≤ a.1.length) ↔
      ∀ b ∈ sortedEntries rows, Entry.Above b e → b.2.length ≤ a.2.length := by
  rw [forall_nodes (P := fun row => row.above e.1 = true → row.length ≤ a.1.length)]
  refine forall₂_congr (fun b mem_b => ?_)
  rw [above_row (parse_of_mem mem_b) (parse_of_mem mem_e), length_row (parse_of_mem mem_b),
    length_row (parse_of_mem mem_a)]

section
variable (k : Keyed (sortedEntries rows))
include k

section
variable (he : (sortedEntries rows)[i]? = some e)
include he

lemma parent_iff (id : List Char) :
    (nodeAt rows addresses e i).parentId = some id ↔
      ∃ a ∈ sortedEntries rows, a.1.id = id ∧ Entry.Above a e ∧
        ∀ b ∈ sortedEntries rows, Entry.Above b e → b.2.length ≤ a.2.length := by
  constructor
  · intro named
    obtain ⟨p, a, ha, same, ⟨a', ha', parent⟩⟩ := exists_parent k he named
    rw [ha] at ha'
    cases ha'
    refine ⟨a, mem_of_getElem? ha, same, parent.above, fun b member above => ?_⟩
    rcases parent.lowest b (mem_toFinset.mpr member) above with rfl | higher
    · omega
    · exact Nat.le_of_lt higher.2.1
  · rintro ⟨a, member, rfl, above, longest⟩
    obtain ⟨result, parent⟩ := exists_parentOf k he
    cases result with
    | none => exact absurd above (parent a member)
    | some p =>
      have ⟨b, hb, lowest⟩ := parent
      have mem_b := mem_of_getElem? hb
      rcases lowest.lowest a (mem_toFinset.mpr member) above with rfl | higher
      · exact parentId_of_parent k he parent hb
      · exact absurd (longest b mem_b lowest.above) (Nat.not_le_of_lt higher.2.1)

lemma root_iff :
    (nodeAt rows addresses e i).parentId = none ↔
      ∀ a ∈ sortedEntries rows, ¬ Entry.Above a e := by
  obtain ⟨result, parent⟩ := exists_parentOf k he
  cases result with
  | none => exact iff_of_true (parentId_of_root k he parent) parent
  | some p =>
    have ⟨a, ha, lowest⟩ := parent
    refine iff_of_false ?_ (fun root => root a (mem_of_getElem? ha) lowest.above)
    rw [parentId_of_parent k he parent ha]
    exact some_ne_none a.1.id

lemma parentId_iff {p : Nat} (ha : (sortedEntries rows)[p]? = some a) :
    (nodeAt rows addresses e i).parentId = some a.1.id ↔
      ParentOf (sortedEntries rows) e (some p) := by
  constructor
  · intro named
    obtain ⟨q, b, hb, same, parent⟩ := exists_parent k he named
    have equal := inj_on_of_nodup_map k.ids (mem_of_getElem? hb) (mem_of_getElem? ha) same
    exact k.index_unique ha (equal ▸ hb) ▸ parent
  · intro parent
    exact parentId_of_parent k he parent ha

lemma depth_nodeAt : (nodeAt rows addresses e i).depth.toNat = level (sortedEntries rows) e := by
  have bounded := level_le k e
  have depth : (nodeAt rows addresses e i).depth = ofNat (level (sortedEntries rows) e) :=
    depthFrom_eq k 33 he (by omega)
  rw [depth, toNat_ofNat']
  exact Nat.mod_eq_of_lt (by omega)

end

lemma level_eq_countP (member : e ∈ sortedEntries rows) :
    level (sortedEntries rows) e =
      (buildPrefixNodes rows addresses).countP (fun m => m.row.above e.1) := by
  have distinct : (sortedEntries rows).Nodup := Nodup.of_map _ k.ids
  have over_rows : (buildPrefixNodes rows addresses).countP (fun m => m.row.above e.1) =
      (sortedEntries rows).countP (fun a => a.1.above e.1) := by
    have same : (buildPrefixNodes rows addresses).map IpamPrefixNode.row =
        (sortedEntries rows).map fst := rows_nodes
    have counted := congrArg (countP (fun row => row.above e.1)) same
    rwa [countP_map, countP_map] at counted
  have same : ∀ a ∈ sortedEntries rows, a.1.above e.1 = true ↔ decide (Entry.Above a e) = true :=
    fun a mem_a => (above_row (parse_of_mem mem_a) (parse_of_mem member)).trans
      decide_eq_true_iff.symm
  rw [over_rows, countP_congr same, countP_eq_length_filter, level,
    ForestOrder.ancestors, ← toFinset_card_of_nodup (distinct.filter _), toFinset_filter]
  simp

end

lemma used_container (container : e.1.status = .container)
    (he : (sortedEntries rows)[i]? = some e) : (nodeAt rows addresses e i).used =
      UInt64.ofNat ((childIndices (sortedEntries rows) i).map
        (blockSize (sortedEntries rows))).sum := by
  have inside := (List.getElem?_eq_some_iff.mp he).1
  have used : (nodeAt rows addresses e i).used = if e.1.status = .container
      then (linkEntries (sortedEntries rows)).covered[i]?.getD 0
      else (nodeAt rows addresses e i).addressCount.toUInt64 := rfl
  rw [used, if_pos container, covered_get _ inside]
  rfl

lemma toNat_used (k : Keyed (sortedEntries rows)) (container : e.1.status = .container)
    (he : (sortedEntries rows)[i]? = some e) : (nodeAt rows addresses e i).used.toNat =
      ((childIndices (sortedEntries rows) i).map (blockSize (sortedEntries rows))).sum := by
  have bounded := total_children_le k he
  have small : e.2.block.size ≤ 2 ^ 32 := Nat.pow_le_pow_right (by omega) (Nat.sub_le 32 e.2.length)
  rw [used_container container he, UInt64.toNat_ofNat']
  exact Nat.mod_eq_of_lt (by omega)

lemma children_perm (k : Keyed (sortedEntries rows)) {p : Nat}
    (ha : (sortedEntries rows)[p]? = some a) :
    (((buildPrefixNodes rows addresses).filter (·.parentId = some a.1.id)).map (·.row.size)).Perm
      ((childIndices (sortedEntries rows) p).map (blockSize (sortedEntries rows))) := by
  let children := (sortedEntries rows).zipIdx.filter
    (fun x => (nodeAt rows addresses x.1 x.2).parentId = some a.1.id)
  have nodes : (buildPrefixNodes rows addresses).filter (·.parentId = some a.1.id) =
      children.map (fun x => nodeAt rows addresses x.1 x.2) := filter_map
  have indices : (children.map snd).Perm (childIndices (sortedEntries rows) p) := by
    rw [perm_ext_iff_of_nodup _ (childIndices_nodup k p)]
    · intro i
      constructor
      · intro member
        obtain ⟨⟨e, _⟩, child, rfl⟩ := mem_map.mp member
        obtain ⟨entry, named⟩ := mem_filter.mp child
        have he := mem_zipIdx_iff_getElem?.mp entry
        exact (mem_childIndices k he).mpr ((parentId_iff k he ha).mp (of_decide_eq_true named))
      · intro member
        obtain ⟨e, he⟩ := exists_of_child k member
        have named : (nodeAt rows addresses e i).parentId = some a.1.id :=
          (parentId_iff k he ha).mpr ((mem_childIndices k he).mp member)
        refine mem_map.mpr ⟨(e, i), mem_filter.mpr ⟨?_, decide_eq_true named⟩, rfl⟩
        exact mem_zipIdx_iff_getElem?.mpr he
    · have distinct : ((sortedEntries rows).zipIdx.map snd).Nodup := by
        rw [zipIdx_map_snd]
        exact nodup_range'
      exact distinct.sublist (filter_sublist.map snd)
  have sizes : children.map (fun x => (nodeAt rows addresses x.1 x.2).row.size) =
      (children.map snd).map (blockSize (sortedEntries rows)) := by
    rw [map_map]
    refine map_congr_left (fun x child => ?_)
    have he := mem_zipIdx_iff_getElem?.mp (mem_filter.mp child).1
    have size := size_row (parse_of_mem (mem_of_getElem? he))
    rw [Function.comp_apply, blockSize, he]
    exact size
  rw [nodes, map_map]
  exact (Perm.of_eq sizes).trans (indices.map _)

lemma isInnermost_nodeAt (k : Keyed (sortedEntries rows)) (record : IpAddressRecord)
    (he : (sortedEntries rows)[i]? = some e) :
    (nodeAt rows addresses e i).isInnermost (buildPrefixNodes rows addresses) record = true ↔
      addressPlace (sortedEntries rows) record = some i := by
  have mem_e := mem_of_getElem? he
  have place : addressPlace (sortedEntries rows) record = some i ↔
      PlaceOf (sortedEntries rows) record (some i) := by
    constructor
    · intro result
      exact result ▸ addressPlace_spec (sortedEntries rows) record
    · exact (addressPlace_spec (sortedEntries rows) record).unique k
  have longest : (∀ m ∈ buildPrefixNodes rows addresses,
        (!m.row.holds record || decide (m.row.length ≤ e.1.length)) = true) ↔
      ∀ b ∈ sortedEntries rows, b.holds record = true → b.2.length ≤ e.2.length := by
    rw [forall_nodes (P := fun row => (!row.holds record ||
      decide (row.length ≤ e.1.length)) = true)]
    refine forall₂_congr (fun b mem_b => ?_)
    rw [holds_row (parse_of_mem mem_b), length_row (parse_of_mem mem_b),
      length_row (parse_of_mem mem_e)]
    cases b.holds record <;> simp
  rw [place, IpamPrefixNode.isInnermost, Bool.and_eq_true, all_eq_true]
  have row : (nodeAt rows addresses e i).row = e.1 := rfl
  rw [row, longest, holds_row (parse_of_mem mem_e)]
  constructor
  · rintro ⟨holds, greatest⟩
    exact ⟨e, he, holds, greatest⟩
  · rintro ⟨a, ha, holds, greatest⟩
    rw [he] at ha
    cases ha
    exact ⟨holds, greatest⟩

lemma addressCount_nodeAt (k : Keyed (sortedEntries rows))
    (he : (sortedEntries rows)[i]? = some e) : (nodeAt rows addresses e i).addressCount =
      ofNat (addresses.countP
        ((nodeAt rows addresses e i).isInnermost (buildPrefixNodes rows addresses))) := by
  have counted := addressCounts_get (sortedEntries rows) addresses
    (List.getElem?_eq_some_iff.mp he).1
  have count : (nodeAt rows addresses e i).addressCount =
      (addresses.foldl (countAddress (sortedEntries rows))
        (replicate (sortedEntries rows).length 0))[i]?.getD 0 := rfl
  rw [count, counted, getD_some]
  congr 1
  refine countP_congr (fun record _ => ?_)
  rw [isInnermost_nodeAt k record he, decide_eq_true_iff]

lemma countP_isInnermost (k : Keyed (sortedEntries rows)) (record : IpAddressRecord) :
    (buildPrefixNodes rows addresses).countP
        (·.isInnermost (buildPrefixNodes rows addresses) record) =
      if (buildPrefixNodes rows addresses).any (·.row.holds record) then 1 else 0 := by
  have spec := addressPlace_spec (sortedEntries rows) record
  cases place : addressPlace (sortedEntries rows) record with
  | none =>
    rw [place] at spec
    have unheld : ∀ m ∈ buildPrefixNodes rows addresses, m.row.holds record = false :=
      (forall_nodes (P := fun row => row.holds record = false)).mpr
        (fun a member => (holds_row (parse_of_mem member) record).trans (spec a member))
    rw [if_neg, countP_eq_zero]
    · intro m member innermost
      have holds := (Bool.and_eq_true_iff.mp innermost).1
      rw [unheld m member] at holds
      cases holds
    · rw [any_eq_true]
      rintro ⟨m, member, holds⟩
      rw [unheld m member] at holds
      cases holds
  | some p =>
    rw [place] at spec
    obtain ⟨a, ha, holds, -⟩ := spec
    rw [if_pos]
    · have counted : (buildPrefixNodes rows addresses).countP
          (·.isInnermost (buildPrefixNodes rows addresses) record) =
          (sortedEntries rows).zipIdx.countP (fun x => decide (p = x.2)) := by
        have nodes : buildPrefixNodes rows addresses =
            (sortedEntries rows).zipIdx.map (fun x => nodeAt rows addresses x.1 x.2) := rfl
        conv_lhs => rw [nodes, countP_map]
        refine countP_congr (fun x member => ?_)
        have he := mem_zipIdx_iff_getElem?.mp member
        rw [Function.comp_apply, ← nodes, isInnermost_nodeAt k record he, place,
          decide_eq_true_iff, some_inj]
      have place_once : ((sortedEntries rows).zipIdx.map snd).countP
          (fun i => decide (p = i)) = 1 := by
        have inside := (List.getElem?_eq_some_iff.mp ha).1
        rw [zipIdx_map_snd]
        refine (countP_congr (fun i _ => ?_)).trans
          (count_eq_one_of_mem nodup_range' (mem_range'_1.mpr ⟨Nat.zero_le p, ?_⟩))
        · rw [decide_eq_true_iff, beq_iff_eq, eq_comm]
        · rwa [Nat.zero_add]
      rw [counted, ← place_once, countP_map]
      rfl
    · rw [any_eq_true]
      exact ⟨nodeAt rows addresses a p, nodeAt_mem ha,
        (holds_row (parse_of_mem (mem_of_getElem? ha)) record).trans holds⟩

end Nodes

end Tree

/-- For rows with unique ids and prefixes that are unique in their VRF, the nodes are
the tree of the rows. -/
theorem buildPrefixNodes_tree (rows : List IpPrefix) (addresses : List IpAddressRecord)
    (ids : (rows.map IpPrefix.id).Nodup)
    (keys : (rows.filterMap (fun row => (Prefix.parse row.cidr).map (row.vrf, ·))).Nodup) :
    IsPrefixTree rows addresses (buildPrefixNodes rows addresses) := by
  have k := keyed_sortedEntries ids keys
  constructor
  · rw [rows_nodes, ← map_fst_entries]
    exact (sortedEntries_perm rows).map fst
  · intro i j m n hm hn named
    rw [getElem?_nodes] at hm hn
    obtain ⟨a, ha, rfl⟩ := map_eq_some_iff.mp hm
    obtain ⟨e, he, rfl⟩ := map_eq_some_iff.mp hn
    obtain ⟨a', ha', parent⟩ := (parentId_iff k he ha).mp named
    rw [ha] at ha'
    cases ha'
    exact k.lt_of_sortKey ha he parent.above.sortKey_lt
  · intro n member id
    obtain ⟨i, e, he, rfl⟩ := exists_entry member
    have mem_e := mem_of_getElem? he
    refine (parent_iff k he id).trans ?_
    constructor
    · rintro ⟨a, mem_a, same, above, longest⟩
      obtain ⟨p, ha⟩ := getElem?_of_mem mem_a
      exact ⟨nodeAt rows addresses a p, nodeAt_mem ha, same,
        (above_row (parse_of_mem mem_a) (parse_of_mem mem_e)).mpr above,
        (longest_iff mem_a mem_e).mpr longest⟩
    · rintro ⟨m, mem_m, same, above, longest⟩
      obtain ⟨p, a, ha, rfl⟩ := exists_entry mem_m
      have mem_a := mem_of_getElem? ha
      exact ⟨a, mem_a, same, (above_row (parse_of_mem mem_a) (parse_of_mem mem_e)).mp above,
        (longest_iff mem_a mem_e).mp longest⟩
  · intro n member
    obtain ⟨i, e, he, rfl⟩ := exists_entry member
    have mem_e := mem_of_getElem? he
    refine (root_iff k he).trans (Iff.trans ?_
      (forall_nodes (P := fun row => ¬ row.above e.1 = true)).symm)
    refine forall₂_congr (fun a mem_a => not_congr ?_)
    exact (above_row (parse_of_mem mem_a) (parse_of_mem mem_e)).symm
  · intro n member
    obtain ⟨i, e, he, rfl⟩ := exists_entry member
    exact (depth_nodeAt k he).trans (level_eq_countP k (mem_of_getElem? he))
  · intro n member
    obtain ⟨i, e, he, rfl⟩ := exists_entry member
    exact (depth_nodeAt k he).trans_le (level_le k e)
  · intro m mem_m n mem_n differ id named_m named_n address
    obtain ⟨i, a, ha, rfl⟩ := exists_entry mem_m
    obtain ⟨j, b, hb, rfl⟩ := exists_entry mem_n
    obtain ⟨p, c, hc, rfl, parent_a⟩ := exists_parent k ha named_m
    have parent_b := (parentId_iff k hb hc).mp named_n
    have mem_a := mem_of_getElem? ha
    have mem_b := mem_of_getElem? hb
    have apart := parent_a.disjoint k mem_a mem_b
      (fun same => differ (congrArg fst same)) parent_b
    rintro ⟨covers_a, covers_b⟩
    have in_a := (covers_row (parse_of_mem mem_a) address).symm.trans covers_a
    have in_b := (covers_row (parse_of_mem mem_b) address).symm.trans covers_b
    exact Finset.disjoint_left.mp apart (containsAddress_iff.mp in_a)
      (containsAddress_iff.mp in_b)
  · intro n member container
    obtain ⟨i, e, he, rfl⟩ := exists_entry member
    exact (toNat_used k container he).trans (children_perm k he).sum_eq.symm
  · intro n member container
    obtain ⟨i, e, he, rfl⟩ := exists_entry member
    refine (toNat_used k container he).trans_le ((total_children_le k he).trans_eq ?_)
    exact (size_row (parse_of_mem (mem_of_getElem? he))).symm
  · intro n member
    obtain ⟨i, e, he, rfl⟩ := exists_entry member
    exact addressCount_nodeAt k he
  · exact countP_isInnermost k

/-- Three nested prefixes, and one of them in another VRF. -/
def nestedRows : List IpPrefix :=
  [{ id := ['b'], cidr := "10.1.0.0/16".toList, status := .container },
   { id := ['a'], cidr := "10.0.0.0/8".toList, status := .container },
   { id := ['d'], cidr := "10.1.2.0/24".toList, vrf := ['x'] },
   { id := ['c'], cidr := "10.1.2.0/24".toList }]

theorem nestedRows_tree : IsPrefixTree nestedRows [] (buildPrefixNodes nestedRows []) :=
  buildPrefixNodes_tree nestedRows [] (by decide) (by decide +kernel)

example : (buildPrefixNodes nestedRows []).map (fun n => (n.row.id, n.parentId, n.depth)) =
    [(['a'], none, 0), (['b'], some ['a'], 1), (['c'], some ['b'], 2), (['d'], none, 0)] := by
  decide +kernel

end Ipam
