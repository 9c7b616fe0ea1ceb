import KKTerm.ItOps.SiteStorage
import Mathlib.Data.List.Nodup
import Mathlib.Data.List.Pairwise

/-!
# The layout of a rack

Every device lies inside its cabinet or is the one package on top, and no two
devices on a face share a quarter of a U. The calls keep this in every run that
places no span whose top wraps around.
-/

namespace ItOps

open Fallible List

def InCabinet (heightU : UInt32) (i : RackItem) : Prop :=
  1 ≤ i.startU.toNat ∧ 1 ≤ i.heightU.toNat ∧
    i.startU.toNat + i.heightU.toNat - 1 ≤ heightU.toNat

def OnTop (heightU : UInt32) (i : RackItem) : Prop :=
  i.kind = .kuaiguai ∧ i.startU.toNat = heightU.toNat + 1

instance (heightU : UInt32) (i : RackItem) : Decidable (InCabinet heightU i) :=
  inferInstanceAs (Decidable (_ ∧ _))

instance (heightU : UInt32) (i : RackItem) : Decidable (OnTop heightU i) :=
  inferInstanceAs (Decidable (_ ∧ _))

def Compatible (heightU : UInt32) (i j : RackItem) : Prop :=
  ¬ (OnTop heightU i ∧ OnTop heightU j) ∧
    (InCabinet heightU i → InCabinet heightU j → i.mountFace = j.mountFace →
      Apart i.span j.span)

structure Layout (heightU : UInt32) (items : List RackItem) : Prop where
  placed : ∀ i ∈ items, InCabinet heightU i ∨ OnTop heightU i
  compatible : ∀ i ∈ items, ∀ j ∈ items, i.id ≠ j.id → Compatible heightU i j

def Stable (i : RackItem) : Prop :=
  normalizeItemMetadata i.kind i.metadata = i.metadata

structure Store.Valid (s : Store) : Prop where
  rackIds : (s.racks.map Rack.id).Nodup
  itemIds : (s.items.map RackItem.id).Nodup
  homes : ∀ i ∈ s.items, ∃ rack ∈ s.racks, rack.id = i.rackId
  stable : ∀ i ∈ s.items, Stable i
  heights : ∀ rack ∈ s.racks, rack.heightU.toNat ≤ 100
  layouts : ∀ rack ∈ s.racks, Layout rack.heightU (s.items.filter (·.rackId = rack.id))

section Layouts
variable {h : UInt32} {i j : RackItem} {items : List RackItem}

lemma Compatible.symm (c : Compatible h i j) : Compatible h j i :=
  ⟨fun both => c.1 both.symm, fun ci cj face => (c.2 cj ci face.symm).symm⟩

instance (heightU : UInt32) : Std.Symm (Compatible heightU) :=
  ⟨fun _ _ c => c.symm⟩

lemma Layout.subset (l : Layout h items) {fewer : List RackItem}
    (sub : ∀ i ∈ fewer, i ∈ items) : Layout h fewer where
  placed i hi := l.placed i (sub i hi)
  compatible i hi j hj := l.compatible i (sub i hi) j (sub j hj)

lemma Layout.nil (h : UInt32) : Layout h [] where
  placed i hi := by cases hi
  compatible i hi := by cases hi

/-- A device joins a layout, in place of the one with its id. -/
lemma Layout.insert (l : Layout h items) {new : RackItem}
    (placed : InCabinet h new ∨ OnTop h new)
    (compatible : ∀ j ∈ items, j.id ≠ new.id → Compatible h new j) {more : List RackItem}
    (either : ∀ i ∈ more, i = new ∨ i ∈ items) : Layout h more where
  placed i hi := by
    rcases either i hi with rfl | old
    · exact placed
    · exact l.placed i old
  compatible i hi j hj differ := by
    rcases either i hi with rfl | old_i
    · rcases either j hj with rfl | old_j
      · exact absurd rfl differ
      · exact compatible j old_j (Ne.symm differ)
    · rcases either j hj with rfl | old_j
      · exact (compatible i old_i differ).symm
      · exact l.compatible i old_i j old_j differ

lemma succ_toNat (small : h.toNat ≤ 100) : (h + 1).toNat = h.toNat + 1 := by
  rw [UInt32.toNat_add]
  simp
  omega

lemma onTopOf_iff (small : h.toNat ≤ 100) : i.onTopOf h ↔ OnTop h i := by
  rw [RackItem.onTopOf, OnTop, ← UInt32.toNat_inj, succ_toNat small]

lemma OnTop.not_inCabinet (top : OnTop h i) : ¬ InCabinet h i := by
  rintro ⟨_, tall, fits⟩
  have := top.2
  omega

lemma RackItem.span_wide (i : RackItem) : i.span.xStart.toNat + i.span.xQuarters.toNat ≤ 4 :=
  metadataXSpan_le i.metadata

lemma InCabinet.span_end (c : InCabinet h i) (small : h.toNat ≤ 100) :
    i.span.startU.toNat + i.span.heightU.toNat < 2 ^ 32 := by
  have fits := c.2.2
  have : i.startU.toNat + i.heightU.toNat ≤ 101 := by omega
  simp only [RackItem.span]
  omega

lemma InCabinet.top_toNat (c : InCabinet h i) (small : h.toNat ≤ 100) :
    (i.startU + i.heightU - 1).toNat = i.startU.toNat + i.heightU.toNat - 1 := by
  obtain ⟨start_pos, height_pos, fits⟩ := c
  rw [UInt32.toNat_sub, UInt32.toNat_add]
  simp
  omega

lemma not_wraps_of_placed (small : h.toNat ≤ 100) (placed : InCabinet h i ∨ OnTop h i) :
    ¬ Wraps h i.startU i.heightU := by
  rintro ⟨off_top, beyond, _⟩
  rcases placed with inside | top
  · have fits := inside.2.2
    omega
  · exact off_top ((onTopOf_iff small).mpr top).2

end Layouts

lemma validated {h : UInt32} (small : h.toNat ≤ 100) {existing : List (Id × Span)}
    {ignoreId : Option Id} {new : RackItem}
    (valid : validateItemPlacement new.kind h existing ignoreId new.span = .ok ())
    (fits : ¬ Wraps h new.startU new.heightU) :
    (InCabinet h new ∨ OnTop h new) ∧
      ∀ j, (j.mountFace = new.mountFace ∨ j.startU = h + 1 → (j.id, j.span) ∈ existing) →
        ignoreId ≠ some j.id → Compatible h new j := by
  rw [validateItemPlacement] at valid
  by_cases off_top : new.span.startU ≠ h + 1
  · rw [if_pos off_top, validatePlacement_eq_ok] at valid
    obtain ⟨start_pos, height_pos, checked, free⟩ := valid
    have inside : InCabinet h new :=
      ⟨start_pos, height_pos, top_le_of_not_wraps off_top fits start_pos height_pos checked⟩
    refine ⟨.inl inside, fun j listed other => ⟨fun both => both.1.not_inCabinet inside, ?_⟩⟩
    intro _ inside_j face
    have free_j := free _ (listed (.inl face.symm)) other
    exact apart_of_not_overlap (inside.span_end small) (inside_j.span_end small) new.span_wide
      j.span_wide free_j
  · rw [if_neg off_top, reject_bind_ok, reject_bind_ok, reject_eq_ok] at valid
    obtain ⟨kind, _, alone⟩ := valid
    have start : new.startU = h + 1 := not_not.mp off_top
    have top : OnTop h new := (onTopOf_iff small).mp ⟨not_not.mp kind, start⟩
    refine ⟨.inr top, fun j listed other => ⟨?_, fun inside => absurd inside top.not_inCabinet⟩⟩
    rintro ⟨_, top_j⟩
    have start_j := ((onTopOf_iff small).mpr top_j).2
    exact alone ⟨_, listed (.inr start_j), other, start_j⟩

section Tables
variable {s s' : Store}

variable {heightU : UInt32} {rack : Rack} {α : Type} {key : α → Id} {id : Id}

lemma validateHeight_le {heightU' : UInt32} (h : validateHeight heightU = .ok heightU') :
    heightU' = heightU ∧ heightU.toNat ≤ 100 := by
  rw [validateHeight, reject_bind_ok, not_or, UInt32.not_lt, UInt32.not_lt] at h
  obtain ⟨⟨_, small⟩, done⟩ := h
  cases done
  exact ⟨rfl, UInt32.le_iff_toNat_le.mp small⟩

lemma insertRack_eq_ok (h : s.insertRack rack = .ok s') :
    rack.id ∉ s.racks.map Rack.id ∧ s' = { s with racks := s.racks ++ [rack] } := by
  rw [Store.insertRack, reject_bind_ok, reject_bind_ok] at h
  obtain ⟨fresh, _, done⟩ := h
  cases done
  exact ⟨fresh, rfl⟩

lemma insertItem_eq_ok {item : RackItem} (h : s.insertItem item = .ok s') :
    item.id ∉ s.items.map RackItem.id ∧ s' = { s with items := s.items ++ [item] } := by
  rw [Store.insertItem, reject_bind_ok, reject_bind_ok] at h
  obtain ⟨fresh, _, done⟩ := h
  cases done
  exact ⟨fresh, rfl⟩

/-- A row with a fresh key keeps the keys distinct. -/
lemma nodup_concat {rows : List α} {row : α} (keys : (rows.map key).Nodup)
    (fresh : key row ∉ rows.map key) : ((rows ++ [row]).map key).Nodup := by
  rw [map_append, nodup_append]
  refine ⟨keys, nodup_singleton _, ?_⟩
  intro id member other added same
  exact fresh (mem_singleton.mp added ▸ same ▸ member)

lemma map_map_key {f : α → α} (kept : ∀ row, key (f row) = key row) (rows : List α) :
    (rows.map f).map key = rows.map key := by
  rw [map_map]
  exact map_congr_left (fun row _ => kept row)

lemma fetchRow_eq_ok (h : s.fetchRow id = .ok rack) : rack ∈ s.racks ∧ rack.id = id := by
  rw [Store.fetchRow] at h
  split at h
  · rename_i found
    cases h
    exact ⟨mem_of_find?_eq_some found, by simpa using find?_some found⟩
  · cases h

lemma fetchRackHeight_eq_ok (h : s.fetchRackHeight id = .ok heightU) :
    ∃ rack ∈ s.racks, rack.id = id ∧ rack.heightU = heightU := by
  obtain ⟨rack, found, done⟩ := bind_eq_ok.mp h
  obtain ⟨member, same⟩ := fetchRow_eq_ok found
  cases done
  exact ⟨rack, member, same, rfl⟩

namespace Store.Valid
variable (v : s.Valid)
include v

lemma same_rack {rack other : Rack} (h : rack ∈ s.racks) (h' : other ∈ s.racks)
    (same : rack.id = other.id) : rack = other :=
  inj_on_of_nodup_map v.rackIds h h' same

lemma rowToItem_eq {i : RackItem} (h : i ∈ s.items) : rowToItem i = i := by
  have stable := v.stable i h
  cases i
  simp only [Stable] at stable
  simp only [rowToItem, stable]

lemma fetchItem_eq_ok {id : Id} {item : RackItem} (h : s.fetchItem id = .ok item) :
    item ∈ s.items ∧ item.id = id := by
  rw [Store.fetchItem] at h
  split at h
  · rename_i found
    have member := mem_of_find?_eq_some found
    cases h
    rw [v.rowToItem_eq member]
    exact ⟨member, by simpa using find?_some found⟩
  · cases h

lemma mem_listItemsForRack {rackId : Id} {i : RackItem} :
    i ∈ s.listItemsForRack rackId ↔ i ∈ s.items.filter (·.rackId = rackId) := by
  rw [listItemsForRack, mem_map]
  constructor
  · rintro ⟨row, member, rfl⟩
    rw [mem_mergeSort] at member
    rwa [v.rowToItem_eq (mem_of_mem_filter member)]
  · intro member
    exact ⟨i, mem_mergeSort.mpr member, v.rowToItem_eq (mem_of_mem_filter member)⟩

lemma mem_existingSpans {rackId : Id} {mountFace : RackMountFace} {heightU : UInt32}
    {j : RackItem} (h : j ∈ s.items.filter (·.rackId = rackId))
    (near : j.mountFace = mountFace ∨ j.startU = heightU + 1) :
    (j.id, j.span) ∈ s.existingSpans rackId mountFace heightU := by
  rw [existingSpans, mem_map]
  exact ⟨j, mem_filter.mpr ⟨v.mem_listItemsForRack.mpr h, by simpa using near⟩, rfl⟩

lemma congr (racks : s'.racks = s.racks) (items : s'.items = s.items) : s'.Valid where
  rackIds := by rw [racks]; exact v.rackIds
  itemIds := by rw [items]; exact v.itemIds
  homes := by rw [racks, items]; exact v.homes
  stable := by rw [items]; exact v.stable
  heights := by rw [racks]; exact v.heights
  layouts := by rw [racks, items]; exact v.layouts

lemma addItem {new : RackItem} {rack : Rack} (fresh : new.id ∉ s.items.map RackItem.id)
    (home : rack ∈ s.racks) (home_id : rack.id = new.rackId) (stable : Stable new)
    (placed : InCabinet rack.heightU new ∨ OnTop rack.heightU new)
    (compatible : ∀ j ∈ s.items.filter (·.rackId = rack.id), j.id ≠ new.id →
      Compatible rack.heightU new j) : { s with items := s.items ++ [new] }.Valid where
  rackIds := v.rackIds
  itemIds := nodup_concat v.itemIds fresh
  homes := by
    intro i hi
    rcases mem_append.mp hi with old | new_
    · exact v.homes i old
    · cases mem_singleton.mp new_
      exact ⟨rack, home, home_id⟩
  stable := by
    intro i hi
    rcases mem_append.mp hi with old | new_
    · exact v.stable i old
    · cases mem_singleton.mp new_
      exact stable
  heights := v.heights
  layouts := by
    intro other hother
    by_cases same : other.id = new.rackId
    · cases v.same_rack hother home (same.trans home_id.symm)
      refine (v.layouts rack home).insert placed compatible (fun i hi => ?_)
      obtain ⟨member, here⟩ := mem_filter.mp hi
      rcases mem_append.mp member with old | new_
      · exact .inr (mem_filter.mpr ⟨old, here⟩)
      · exact .inl (mem_singleton.mp new_)
    · refine (v.layouts other hother).subset (fun i hi => ?_)
      obtain ⟨member, here⟩ := mem_filter.mp hi
      rcases mem_append.mp member with old | new_
      · exact mem_filter.mpr ⟨old, here⟩
      · cases mem_singleton.mp new_
        exact absurd (of_decide_eq_true here).symm same

lemma overwriteItem {new : RackItem} {rack : Rack} (home : rack ∈ s.racks)
    (home_id : rack.id = new.rackId) (stable : Stable new)
    (placed : InCabinet rack.heightU new ∨ OnTop rack.heightU new)
    (compatible : ∀ j ∈ s.items.filter (·.rackId = rack.id), j.id ≠ new.id →
      Compatible rack.heightU new j) :
    { s with items := overwrite new s.items }.Valid := by
  have either : ∀ i ∈ overwrite new s.items, i = new ∨ i ∈ s.items := by
    intro i hi
    obtain ⟨old, member, rfl⟩ := mem_map.mp hi
    split
    · exact .inl rfl
    · exact .inr member
  constructor
  · exact v.rackIds
  · have ids : (overwrite new s.items).map RackItem.id = s.items.map RackItem.id := by
      rw [overwrite, map_map]
      refine map_congr_left (fun other _ => ?_)
      simp only [Function.comp]
      split
      · rename_i same
        exact same.symm
      · rfl
    rw [ids]
    exact v.itemIds
  · intro i hi
    rcases either i hi with rfl | old
    · exact ⟨rack, home, home_id⟩
    · exact v.homes i old
  · intro i hi
    rcases either i hi with rfl | old
    · exact stable
    · exact v.stable i old
  · exact v.heights
  · intro other hother
    by_cases same : other.id = new.rackId
    · cases v.same_rack hother home (same.trans home_id.symm)
      refine (v.layouts rack home).insert placed compatible (fun i hi => ?_)
      obtain ⟨member, here⟩ := mem_filter.mp hi
      exact (either i member).imp_right (fun old => mem_filter.mpr ⟨old, here⟩)
    · refine (v.layouts other hother).subset (fun i hi => ?_)
      obtain ⟨member, here⟩ := mem_filter.mp hi
      rcases either i member with rfl | old
      · exact absurd (of_decide_eq_true here).symm same
      · exact mem_filter.mpr ⟨old, here⟩

end Store.Valid
end Tables

section Devices
variable {s s' : Store} {item : RackItem}

lemma Stable.normalized (h : Stable item) : normalizeMetadata item.metadata = item.metadata := by
  rw [← h, normalizeMetadata_item]

lemma slideSlot_stable (h : Stable item) (slot : Option UInt32) :
    normalizeItemMetadata item.kind (slideSlot item.metadata slot) =
      slideSlot item.metadata slot := by
  rw [slideSlot]
  split
  · rename_i moved
    cases fractional : item.kind.fractional
    · -- Only a fractional device has a width to slide.
      rw [Stable, normalizeItemMetadata, fractional] at h
      rw [← h] at moved
      simp at moved
    · simp [normalizeItemMetadata, fractional, normalizeMetadata_idem]
  · exact h

lemma replaceItem_eq_ok {result : RackItem} (stable : Stable item)
    (h : s.replaceItem item = .ok (result, s')) :
    s' = { s with items := overwrite item s.items } := by
  rw [Store.replaceItem, stable.normalized] at h
  obtain ⟨_, _, done⟩ := bind_eq_ok.mp h
  cases done
  rfl

namespace Store.Valid
variable (v : s.Valid)
include v

variable {id rackId : Id} {fields : ItemFields} {startU heightU : UInt32}
  {mountFace : Option RackMountFace}

lemma placeRackItemOnFace {mountFace : RackMountFace}
    (fits : ∀ rack ∈ s.racks, rack.id = rackId → ¬ Wraps rack.heightU startU heightU)
    (h : placeRackItemOnFace s id rackId fields startU heightU mountFace = .ok (item, s')) :
    s'.Valid := by
  obtain ⟨connectionId, _, h⟩ := bind_eq_ok.mp h
  obtain ⟨rackHeight, found, h⟩ := bind_eq_ok.mp h
  obtain ⟨⟨⟩, checked, h⟩ := bind_eq_ok.mp h
  obtain ⟨s₁, inserted, done⟩ := bind_eq_ok.mp h
  cases done
  obtain ⟨rack, home, rfl, rfl⟩ := fetchRackHeight_eq_ok found
  have stable := normalizeItemMetadata_idem fields.kind fields.metadata
  obtain ⟨placed, compatible⟩ := validated (v.heights rack home) checked (fits rack home rfl)
  obtain ⟨fresh, rfl⟩ := insertItem_eq_ok inserted
  simp only [normalizeMetadata_item]
  exact v.addItem fresh home rfl stable placed
    (fun j hj _ => compatible j (v.mem_existingSpans hj) (Option.some_ne_none _).symm)

/-- A device that passed the validation of its rack replaces the one with its id. -/
lemma replaceItem {result : RackItem} (h : s.replaceItem item = .ok (result, s')) {rack : Rack}
    (checked : validateItemPlacement item.kind rack.heightU
      (s.existingSpans item.rackId item.mountFace rack.heightU) (some item.id) item.span = .ok ())
    (home : rack ∈ s.racks) (home_id : rack.id = item.rackId) (stable : Stable item)
    (fits : ¬ Wraps rack.heightU item.startU item.heightU) : s'.Valid := by
  obtain ⟨placed, compatible⟩ := validated (v.heights rack home) checked fits
  rw [replaceItem_eq_ok stable h]
  refine v.overwriteItem home home_id stable placed (fun j hj other => ?_)
  refine compatible j (fun near => ?_) (fun same => other (Option.some.inj same).symm)
  rw [← home_id]
  exact v.mem_existingSpans hj near

lemma updateRackItemOnFace {placement : Option (UInt32 × UInt32)}
    (fits : ∀ current ∈ s.items, current.id = id → ∀ rack ∈ s.racks, rack.id = current.rackId →
      ∀ span, placement = some span → ¬ Wraps rack.heightU span.1 span.2)
    (h : updateRackItemOnFace s id fields placement mountFace = .ok (item, s')) : s'.Valid := by
  obtain ⟨current, fetched, h⟩ := bind_eq_ok.mp h
  obtain ⟨rackHeight, found, h⟩ := bind_eq_ok.mp h
  obtain ⟨kind, h⟩ := reject_bind_ok.mp h
  obtain ⟨connectionId, _, h⟩ := bind_eq_ok.mp h
  rcases span : placement.getD (current.startU, current.heightU) with ⟨startU, heightU⟩
  simp only [span] at h
  obtain ⟨⟨⟩, checked, written⟩ := bind_eq_ok.mp h
  obtain ⟨member, rfl⟩ := v.fetchItem_eq_ok fetched
  obtain ⟨rack, home, home_id, rfl⟩ := fetchRackHeight_eq_ok found
  refine v.replaceItem written checked home home_id (normalizeItemMetadata_idem _ _) ?_
  cases placement with
  | some requested =>
    cases span
    exact fits current member rfl rack home home_id _ rfl
  | none =>
    cases span
    have here : current ∈ s.items.filter (·.rackId = rack.id) := by simp [member, home_id]
    have settled :=
      not_wraps_of_placed (v.heights rack home) ((v.layouts rack home).placed current here)
    exact settled

lemma moveRackItemToFace {slot : Option UInt32}
    (fits : ∀ rack ∈ s.racks, rack.id = rackId → ¬ Wraps rack.heightU startU heightU)
    (h : moveRackItemToFace s id rackId startU heightU slot mountFace = .ok (item, s')) :
    s'.Valid := by
  obtain ⟨current, fetched, h⟩ := bind_eq_ok.mp h
  obtain ⟨rackHeight, found, h⟩ := bind_eq_ok.mp h
  obtain ⟨⟨⟩, checked, written⟩ := bind_eq_ok.mp h
  obtain ⟨member, rfl⟩ := v.fetchItem_eq_ok fetched
  obtain ⟨rack, home, rfl, rfl⟩ := fetchRackHeight_eq_ok found
  exact v.replaceItem written checked home rfl (slideSlot_stable (v.stable current member) slot)
    (fits rack home rfl)

lemma removeRackItem (h : removeRackItem s id = .ok s') : s'.Valid := by
  obtain ⟨_, done⟩ := reject_bind_ok.mp h
  cases done
  have sub : ∀ i ∈ s.items.filter (·.id ≠ id), i ∈ s.items := fun i hi => mem_of_mem_filter hi
  constructor
  · exact v.rackIds
  · exact v.itemIds.sublist (filter_sublist.map RackItem.id)
  · exact fun i hi => v.homes i (sub i hi)
  · exact fun i hi => v.stable i (sub i hi)
  · exact v.heights
  · intro rack hrack
    refine (v.layouts rack hrack).subset (fun i hi => ?_)
    obtain ⟨member, here⟩ := mem_filter.mp hi
    exact mem_filter.mpr ⟨sub i member, here⟩

end Store.Valid
end Devices

section Racks
variable {s s' : Store}

lemma RackItem.followHeight_id (h h' : UInt32) (i : RackItem) : (i.followHeight h h').id = i.id := by
  rw [RackItem.followHeight]
  split <;> rfl

lemma RackItem.followHeight_rackId (h h' : UInt32) (i : RackItem) :
    (i.followHeight h h').rackId = i.rackId := by
  rw [RackItem.followHeight]
  split <;> rfl

variable {h : UInt32} {items : List RackItem} {rackId : Id}

lemma RackItem.followHeight_stable {h' : UInt32} {i : RackItem} (stable : Stable i) :
    Stable (i.followHeight h h') := by
  rw [RackItem.followHeight]
  split <;> exact stable

lemma RackItem.followHeight_self (h : UInt32) (i : RackItem) : i.followHeight h h = i := by
  rw [RackItem.followHeight]
  split
  · rename_i top
    rw [← top.2]
  · rfl

/-- The devices of a rack keep a layout when its height changes. -/
lemma Layout.follow {h' : UInt32} (l : Layout h items) (small : h.toNat ≤ 100)
    (small' : h'.toNat ≤ 100) (shrink : validateShrink h h' items = .ok ()) :
    Layout h' (items.map (RackItem.followHeight h h')) := by
  rw [validateShrink, forM_eq_ok] at shrink
  -- A device on top goes with the height, one in the cabinet stays and fits.
  have moved : ∀ i ∈ items, (OnTop h i ∧ OnTop h' (i.followHeight h h')) ∨
      (InCabinet h i ∧ i.followHeight h h' = i ∧ InCabinet h' i) := by
    intro i hi
    rcases l.placed i hi with inside | top
    · have off_top : ¬ i.onTopOf h := fun top => ((onTopOf_iff small).mp top).not_inCabinet inside
      have fits := shrink i hi
      rw [reject_eq_ok, not_and, gt_iff_lt, UInt32.not_lt, UInt32.le_iff_toNat_le,
        inside.top_toNat small] at fits
      exact .inr ⟨inside, if_neg off_top, inside.1, inside.2.1, fits off_top⟩
    · have on_top := (onTopOf_iff small).mpr top
      refine Or.inl ⟨top, ?_⟩
      rw [RackItem.followHeight, if_pos on_top, OnTop, succ_toNat small']
      exact ⟨top.1, rfl⟩
  constructor
  · intro i' hi'
    obtain ⟨i, hi, rfl⟩ := mem_map.mp hi'
    rcases moved i hi with ⟨_, top⟩ | ⟨_, same, inside⟩
    · exact .inr top
    · rw [same]
      exact .inl inside
  · intro i' hi' j' hj' differ
    obtain ⟨i, hi, rfl⟩ := mem_map.mp hi'
    obtain ⟨j, hj, rfl⟩ := mem_map.mp hj'
    rw [RackItem.followHeight_id, RackItem.followHeight_id] at differ
    have before := l.compatible i hi j hj differ
    rcases moved i hi with ⟨top_i, new_i⟩ | ⟨in_i, same_i, new_i⟩
    · refine ⟨?_, fun inside => absurd inside new_i.not_inCabinet⟩
      rintro ⟨_, new_top⟩
      rcases moved j hj with ⟨top_j, _⟩ | ⟨_, same_j, new_j⟩
      · exact before.1 ⟨top_i, top_j⟩
      · rw [same_j] at new_top
        exact new_top.not_inCabinet new_j
    · rw [same_i]
      refine ⟨fun both => both.1.not_inCabinet new_i, fun _ inside face => ?_⟩
      rcases moved j hj with ⟨_, new_j⟩ | ⟨in_j, same_j, _⟩
      · exact absurd inside new_j.not_inCabinet
      · rw [same_j] at face ⊢
        exact before.2 in_i in_j face

/-- A copy differs in its id and its rack. -/
def Copy (rackId : Id) (i copy : RackItem) : Prop :=
  copy = { i with id := copy.id, rackId }

lemma Copy.compatible {i j i' j' : RackItem} (ci : Copy rackId i i') (cj : Copy rackId j j')
    (c : Compatible h i j) : Compatible h i' j' := by
  rw [ci, cj]
  exact c

lemma Copy.of_mem {copies : List RackItem} (copied : Forall₂ (Copy rackId) items copies)
    {copy : RackItem} (h : copy ∈ copies) : ∃ i ∈ items, Copy rackId i copy := by
  induction copied with
  | nil => cases h
  | cons first rest ih =>
    rcases mem_cons.mp h with rfl | later
    · exact ⟨_, mem_cons_self, first⟩
    · obtain ⟨i, member, copy_i⟩ := ih later
      exact ⟨i, mem_cons_of_mem _ member, copy_i⟩

lemma Layout.pairwise (l : Layout h items) (ids : (items.map RackItem.id).Nodup) :
    items.Pairwise (Compatible h) :=
  (pairwise_map.mp ids).imp_of_mem (fun hi hj differ => l.compatible _ hi _ hj differ)

lemma Layout.copies {copies : List RackItem} (l : Layout h items)
    (ids : (items.map RackItem.id).Nodup) (copied : Forall₂ (Copy rackId) items copies) :
    Layout h copies := by
  constructor
  · intro copy hcopy
    obtain ⟨i, member, same⟩ := Copy.of_mem copied hcopy
    rw [same]
    exact l.placed i member
  · have pairs : copies.Pairwise (Compatible h) := by
      have source := l.pairwise ids
      clear l ids
      induction copied with
      | nil => exact .nil
      | cons first rest ih =>
        obtain ⟨head, tail⟩ := pairwise_cons.mp source
        refine pairwise_cons.mpr ⟨fun copy hcopy => ?_, ih tail⟩
        obtain ⟨i, member, same⟩ := Copy.of_mem rest hcopy
        exact first.compatible same (head i member)
    intro i hi j hj differ
    exact pairs.forall hi hj (fun same => differ (congrArg RackItem.id same))

lemma cloneItems_eq_ok {newIds : Nat → Id} {n n' : Nat} (stable : ∀ i ∈ items, Stable i)
    (h : cloneItems newIds rackId items s n = .ok (s', n')) (ids : (s.items.map RackItem.id).Nodup) :
    ∃ copies, s' = { s with items := s.items ++ copies } ∧
      Forall₂ (Copy rackId) items copies ∧ ((s.items ++ copies).map RackItem.id).Nodup := by
  induction items generalizing s n with
  | nil =>
    cases h
    exact ⟨[], by simp, .nil, by simpa using ids⟩
  | cons i items ih =>
    rw [cloneItems, foldlM_cons] at h
    obtain ⟨⟨s₁, n₁⟩, first, rest⟩ := bind_eq_ok.mp h
    obtain ⟨s₂, inserted, done⟩ := bind_eq_ok.mp first
    cases done
    obtain ⟨fresh, rfl⟩ := insertItem_eq_ok inserted
    have longer : ((s.items ++ [i.copyTo (newIds n) rackId]).map RackItem.id).Nodup :=
      nodup_concat ids fresh
    obtain ⟨copies, whole, copied, nodup⟩ :=
      ih (fun j hj => stable j (mem_cons_of_mem i hj)) rest longer
    refine ⟨i.copyTo (newIds n) rackId :: copies, ?_, .cons ?_ copied, ?_⟩
    · rw [whole]
      simp only [append_assoc, singleton_append]
    · rw [Copy, RackItem.copyTo, (stable i mem_cons_self).normalized]
    · rwa [append_assoc, singleton_append] at nodup

namespace Store.Valid
variable (v : s.Valid)
include v

lemma listLayout {rack : Rack} (home : rack ∈ s.racks) :
    Layout rack.heightU (s.listItemsForRack rack.id) :=
  (v.layouts rack home).subset (fun _ hi => v.mem_listItemsForRack.mp hi)

lemma listStable {rackId : Id} {i : RackItem} (h : i ∈ s.listItemsForRack rackId) : Stable i :=
  v.stable i (mem_of_mem_filter (v.mem_listItemsForRack.mp h))

lemma listNodup (rackId : Id) : ((s.listItemsForRack rackId).map RackItem.id).Nodup := by
  have sorted := mergeSort_perm (s.items.filter (·.rackId = rackId))
    (fun a b => decide (a.startU ≤ b.startU))
  have ids : (s.listItemsForRack rackId).map RackItem.id =
      ((s.items.filter (·.rackId = rackId)).mergeSort (fun a b => a.startU ≤ b.startU)).map
        RackItem.id := by
    rw [listItemsForRack, map_map]
    rfl
  rw [ids, (sorted.map RackItem.id).nodup_iff]
  exact v.itemIds.sublist (filter_sublist.map RackItem.id)

lemma insertServerRoom {room : ServerRoom} (h : s.insertServerRoom room = .ok s') : s'.Valid := by
  obtain ⟨_, h⟩ := reject_bind_ok.mp h
  obtain ⟨_, h⟩ := reject_bind_ok.mp h
  obtain ⟨_, h⟩ := reject_bind_ok.mp h
  cases h
  exact v.congr rfl rfl

lemma createServerRoom {id siteId : Id} {name floorColor : List Char} {room : ServerRoom}
    (h : createServerRoom s id siteId name floorColor = .ok (room, s')) : s'.Valid := by
  obtain ⟨_, h⟩ := reject_bind_ok.mp h
  obtain ⟨_, _, h⟩ := bind_eq_ok.mp h
  obtain ⟨s₁, inserted, done⟩ := bind_eq_ok.mp h
  cases done
  exact v.insertServerRoom inserted

/-- A new rack, with the devices that are put into it at once. -/
lemma addRack {rack : Rack} (items : List RackItem) (fresh : rack.id ∉ s.racks.map Rack.id)
    (small : rack.heightU.toNat ≤ 100) (layout : Layout rack.heightU items)
    (stable : ∀ i ∈ items, Stable i) (home : ∀ i ∈ items, i.rackId = rack.id)
    (ids : ((s.items ++ items).map RackItem.id).Nodup) :
    { s with racks := s.racks ++ [rack], items := s.items ++ items }.Valid := by
  have others : ∀ i ∈ s.items, i.rackId ≠ rack.id := by
    intro i hi same
    obtain ⟨old, member, old_id⟩ := v.homes i hi
    exact fresh (mem_map.mpr ⟨old, member, old_id.trans same⟩)
  constructor
  · exact nodup_concat v.rackIds fresh
  · exact ids
  · intro i hi
    rcases mem_append.mp hi with old | new
    · obtain ⟨rack', member, same⟩ := v.homes i old
      exact ⟨rack', mem_append_left _ member, same⟩
    · exact ⟨rack, mem_append_right _ mem_cons_self, (home i new).symm⟩
  · intro i hi
    exact (mem_append.mp hi).elim (v.stable i) (stable i)
  · intro other hother
    rcases mem_append.mp hother with old | new
    · exact v.heights other old
    · cases mem_singleton.mp new
      exact small
  · intro other hother
    rcases mem_append.mp hother with old | new
    · have differ : rack.id ≠ other.id := fun same => fresh (mem_map.mpr ⟨other, old, same.symm⟩)
      refine (v.layouts other old).subset (fun i hi => ?_)
      obtain ⟨member, here⟩ := mem_filter.mp hi
      rcases mem_append.mp member with old_i | new_i
      · exact mem_filter.mpr ⟨old_i, here⟩
      · exact absurd ((home i new_i).symm.trans (of_decide_eq_true here)) differ
    · cases mem_singleton.mp new
      refine layout.subset (fun i hi => ?_)
      obtain ⟨member, here⟩ := mem_filter.mp hi
      rcases mem_append.mp member with old_i | new_i
      · exact absurd (of_decide_eq_true here) (others i old_i)
      · exact new_i

lemma createRack {id siteId : Id} {fields : RackFields} {rack : Rack}
    (h : createRack s id siteId fields = .ok (rack, s')) : s'.Valid := by
  obtain ⟨name, _, h⟩ := bind_eq_ok.mp h
  obtain ⟨serverRoom, _, h⟩ := bind_eq_ok.mp h
  obtain ⟨heightU, height, h⟩ := bind_eq_ok.mp h
  obtain ⟨depthMm, _, h⟩ := bind_eq_ok.mp h
  obtain ⟨powerCapacityW, _, h⟩ := bind_eq_ok.mp h
  obtain ⟨s₁, inserted, done⟩ := bind_eq_ok.mp h
  cases done
  obtain ⟨rfl, small⟩ := validateHeight_le height
  obtain ⟨fresh, rfl⟩ := insertRack_eq_ok inserted
  have added := v.addRack [] fresh small (Layout.nil _) (by simp) (by simp)
    (by simpa using v.itemIds)
  exact added.congr rfl (append_nil _).symm

/-- Racks change, but neither their ids nor their heights. -/
lemma mapRacks {f : Rack → Rack} (f_id : ∀ rack, (f rack).id = rack.id)
    (f_height : ∀ rack, (f rack).heightU = rack.heightU) :
    { s with racks := s.racks.map f }.Valid := by
  constructor
  · rw [map_map_key f_id]
    exact v.rackIds
  · exact v.itemIds
  · intro i hi
    obtain ⟨rack, home, same⟩ := v.homes i hi
    exact ⟨f rack, mem_map_of_mem home, (f_id rack).trans same⟩
  · exact v.stable
  · intro rack' hrack
    obtain ⟨rack, home, rfl⟩ := mem_map.mp hrack
    rw [f_height]
    exact v.heights rack home
  · intro rack' hrack
    obtain ⟨rack, home, rfl⟩ := mem_map.mp hrack
    rw [f_height, f_id]
    exact v.layouts rack home

lemma resize {rack : Rack} (home : rack ∈ s.racks) {heightU : UInt32}
    (small : heightU.toNat ≤ 100) {f : Rack → Rack} (f_id : ∀ other, (f other).id = other.id)
    (f_height : ∀ other, (f other).heightU = if other.id = rack.id then heightU else other.heightU)
    (shrink : validateShrink rack.heightU heightU (s.listItemsForRack rack.id) = .ok ()) :
    { s with
      racks := s.racks.map f
      items := followRack rack.id rack.heightU heightU s.items }.Valid := by
  have followed := (v.listLayout home).follow (v.heights rack home) small shrink
  let g : RackItem → RackItem := fun item =>
    if item.rackId = rack.id then item.followHeight rack.heightU heightU else item
  have g_id : ∀ i, (g i).id = i.id := by
    intro i
    by_cases here : i.rackId = rack.id
    · rw [show g i = _ from if_pos here, RackItem.followHeight_id]
    · rw [show g i = i from if_neg here]
  have g_rackId : ∀ i, (g i).rackId = i.rackId := by
    intro i
    by_cases here : i.rackId = rack.id
    · rw [show g i = _ from if_pos here, RackItem.followHeight_rackId]
    · rw [show g i = i from if_neg here]
  constructor
  · rw [map_map_key f_id]
    exact v.rackIds
  · exact (map_map_key g_id s.items).symm ▸ v.itemIds
  · intro i' hi'
    obtain ⟨i, hi, rfl⟩ := mem_map.mp hi'
    obtain ⟨other, member, same⟩ := v.homes i hi
    exact ⟨f other, mem_map_of_mem member, (f_id other).trans (same.trans (g_rackId i).symm)⟩
  · intro i' hi'
    obtain ⟨i, hi, rfl⟩ := mem_map.mp hi'
    split
    · exact RackItem.followHeight_stable (v.stable i hi)
    · exact v.stable i hi
  · intro other' hother
    obtain ⟨other, member, rfl⟩ := mem_map.mp hother
    rw [f_height]
    split
    · exact small
    · exact v.heights other member
  · intro other' hother
    obtain ⟨other, member, rfl⟩ := mem_map.mp hother
    rw [f_height, f_id]
    by_cases same : other.id = rack.id
    · rw [if_pos same, same]
      refine followed.subset (fun i' hi' => ?_)
      obtain ⟨mapped, here⟩ := mem_filter.mp hi'
      obtain ⟨i, hi, rfl⟩ := mem_map.mp mapped
      have inside : i.rackId = rack.id := (g_rackId i).symm.trans (of_decide_eq_true here)
      rw [if_pos inside]
      refine mem_map_of_mem (v.mem_listItemsForRack.mpr ?_)
      exact mem_filter.mpr ⟨hi, by simp [inside]⟩
    · rw [if_neg same]
      refine (v.layouts other member).subset (fun i' hi' => ?_)
      obtain ⟨mapped, here⟩ := mem_filter.mp hi'
      obtain ⟨i, hi, rfl⟩ := mem_map.mp mapped
      have outside : i.rackId = other.id := (g_rackId i).symm.trans (of_decide_eq_true here)
      rw [if_neg (fun inside => same (outside.symm.trans inside))]
      exact mem_filter.mpr ⟨hi, by simp [outside]⟩

lemma updateRack {id : Id} {fields : RackFields} {result : Rack × List RackItem}
    (h : updateRack s id fields = .ok (result, s')) : s'.Valid := by
  obtain ⟨name, _, h⟩ := bind_eq_ok.mp h
  obtain ⟨heightU, height, h⟩ := bind_eq_ok.mp h
  obtain ⟨depthMm, _, h⟩ := bind_eq_ok.mp h
  obtain ⟨powerCapacityW, _, h⟩ := bind_eq_ok.mp h
  obtain ⟨old, found, h⟩ := bind_eq_ok.mp h
  obtain ⟨serverRoom, _, h⟩ := bind_eq_ok.mp h
  obtain ⟨⟨⟩, shrink, h⟩ := bind_eq_ok.mp h
  obtain ⟨_, _, done⟩ := bind_eq_ok.mp h
  cases done
  obtain ⟨rfl, small⟩ := validateHeight_le height
  obtain ⟨home, rfl⟩ := fetchRow_eq_ok found
  have resized := @resize _ v old home _ small
    (fun rack =>
      if rack.id = old.id then
        { rack with
          name, serverRoom, rackGroup := Text.trim fields.rackGroup
          shell := normalizeShell fields.shell, heightU := fields.heightU, depthMm, powerCapacityW }
      else rack)
    (fun other => by split <;> rfl) (fun other => by split <;> rfl) shrink
  refine resized.congr rfl ?_
  by_cases same : old.heightU = fields.heightU
  · simp [same, followRack, RackItem.followHeight_self]
  · exact if_pos same

lemma insertRackClone {newIds : Nat → Id} {source : Rack} {items : List RackItem}
    {duplicateId : Id} {duplicateName serverRoom : List Char} {preservePlacement : Bool}
    {n n' : Nat} (small : source.heightU.toNat ≤ 100) (layout : Layout source.heightU items)
    (stable : ∀ i ∈ items, Stable i) (ids : (items.map RackItem.id).Nodup)
    (h : insertRackClone newIds source items duplicateId duplicateName serverRoom
      preservePlacement s n = .ok (s', n')) : s'.Valid := by
  obtain ⟨s₁, inserted, cloned⟩ := bind_eq_ok.mp h
  obtain ⟨fresh, rfl⟩ := insertRack_eq_ok inserted
  obtain ⟨copies, rfl, copied, nodup⟩ := cloneItems_eq_ok stable cloned v.itemIds
  refine v.addRack copies fresh small (layout.copies ids copied) ?_ ?_ nodup
  · intro copy hcopy
    obtain ⟨i, member, same⟩ := Copy.of_mem copied hcopy
    rw [same]
    exact stable i member
  · intro copy hcopy
    obtain ⟨i, member, same⟩ := Copy.of_mem copied hcopy
    rw [same]

lemma duplicateRack {id : Id} {fields : RackFields} {gridX gridY facing : Option Int}
    {newIds : Nat → Id} {result : Rack × List RackItem}
    (h : duplicateRack s id fields gridX gridY facing newIds = .ok (result, s')) : s'.Valid := by
  obtain ⟨placement, _, h⟩ := bind_eq_ok.mp h
  obtain ⟨⟨old, items⟩, fetched, h⟩ := bind_eq_ok.mp h
  obtain ⟨name, _, h⟩ := bind_eq_ok.mp h
  obtain ⟨serverRoom, _, h⟩ := bind_eq_ok.mp h
  obtain ⟨heightU, height, h⟩ := bind_eq_ok.mp h
  obtain ⟨depthMm, _, h⟩ := bind_eq_ok.mp h
  obtain ⟨powerCapacityW, _, h⟩ := bind_eq_ok.mp h
  obtain ⟨⟨⟩, shrink, h⟩ := bind_eq_ok.mp h
  obtain ⟨⟨s₁, n₁⟩, cloned, h⟩ := bind_eq_ok.mp h
  obtain ⟨_, _, done⟩ := bind_eq_ok.mp h
  cases done
  obtain ⟨rack, found, same⟩ := bind_eq_ok.mp fetched
  cases same
  obtain ⟨rfl, small⟩ := validateHeight_le height
  obtain ⟨home, rfl⟩ := fetchRow_eq_ok found
  have followed := (v.listLayout home).follow (v.heights old home) small shrink
  have copied := v.insertRackClone small followed ?_ ?_ cloned
  · cases placement with
    | none => exact copied
    | some placement =>
      exact copied.mapRacks (fun rack => by split <;> rfl) (fun rack => by split <;> rfl)
  · intro i' hi'
    obtain ⟨i, hi, rfl⟩ := mem_map.mp hi'
    exact RackItem.followHeight_stable (v.listStable hi)
  · rw [map_map_key (RackItem.followHeight_id old.heightU fields.heightU)]
    exact v.listNodup old.id

lemma duplicateServerRoom {id : Id} {name floorColor : List Char} {newIds : Nat → Id}
    {room : ServerRoom} (h : duplicateServerRoom s id name floorColor newIds = .ok (room, s')) :
    s'.Valid := by
  rw [ItOps.duplicateServerRoom] at h
  split at h
  · cases h
  · obtain ⟨_, h⟩ := reject_bind_ok.mp h
    obtain ⟨_, h⟩ := reject_bind_ok.mp h
    obtain ⟨_, _, h⟩ := bind_eq_ok.mp h
    obtain ⟨s₁, inserted, h⟩ := bind_eq_ok.mp h
    obtain ⟨⟨s₂, n₂⟩, cloned, done⟩ := bind_eq_ok.mp h
    cases done
    refine @foldlM_invariant _ _ _ (fun state => state.1.Valid) _ _ _ _ ?_ cloned
      (v.insertServerRoom inserted)
    rintro ⟨before, n⟩ ⟨rack, items⟩ ⟨after, n'⟩ listed cloned valid
    obtain ⟨source, member, same⟩ := mem_map.mp (mem_of_mem_filter listed)
    obtain ⟨rfl, rfl⟩ := Prod.mk.inj same
    have home := mem_of_mem_filter (mem_mergeSort.mp member)
    exact valid.insertRackClone (v.heights source home) (v.listLayout home)
      (fun i hi => v.listStable hi) (v.listNodup source.id) cloned

end Store.Valid
end Racks

lemma valid_empty (sites : List Id) : (Store.empty sites).Valid where
  rackIds := .nil
  itemIds := .nil
  homes i hi := by cases hi
  stable i hi := by cases hi
  heights rack hrack := by cases hrack
  layouts rack hrack := by cases hrack

/-- The call places a span whose top wraps around to below the height of its rack. -/
def Call.Wraps (s : Store) : Call → Prop
  | placeRackItemOnFace _ rackId _ startU heightU _ =>
    ∃ rack ∈ s.racks, rack.id = rackId ∧ ItOps.Wraps rack.heightU startU heightU
  | updateRackItemOnFace id _ placement _ =>
    ∃ current ∈ s.items, current.id = id ∧ ∃ rack ∈ s.racks, rack.id = current.rackId ∧
      ∃ span ∈ placement, ItOps.Wraps rack.heightU span.1 span.2
  | moveRackItemToFace _ rackId startU heightU _ _ =>
    ∃ rack ∈ s.racks, rack.id = rackId ∧ ItOps.Wraps rack.heightU startU heightU
  | _ => False

instance (s : Store) : (call : Call) → Decidable (call.Wraps s)
  | .placeRackItemOnFace .. => inferInstanceAs (Decidable (∃ rack ∈ s.racks, _ ∧ _))
  | .updateRackItemOnFace .. =>
    inferInstanceAs (Decidable (∃ current ∈ s.items, _ ∧ ∃ rack ∈ s.racks, _ ∧ ∃ span ∈ _, _))
  | .moveRackItemToFace .. => inferInstanceAs (Decidable (∃ rack ∈ s.racks, _ ∧ _))
  | .createServerRoom .. | .createRack .. | .updateRack .. | .duplicateRack ..
  | .duplicateServerRoom .. | .removeRackItem .. => inferInstanceAs (Decidable False)

/-- No call of the run wraps in the state that it meets. -/
def Store.Fits (s : Store) : List Call → Prop
  | [] => True
  | call :: calls => ¬ call.Wraps s ∧ (s.step call).Fits calls

instance Store.decidableFits : (s : Store) → (calls : List Call) → Decidable (s.Fits calls)
  | _, [] => .isTrue trivial
  | s, call :: calls =>
    have := Store.decidableFits (s.step call) calls
    inferInstanceAs (Decidable (¬ call.Wraps s ∧ (s.step call).Fits calls))

lemma map_snd_eq_ok {α : Type} {x : Except StorageError (α × Store)} {s' : Store}
    (h : Prod.snd <$> x = .ok s') : ∃ a, x = .ok (a, s') := by
  cases x with
  | error e => cases h
  | ok result =>
    cases h
    exact ⟨result.1, rfl⟩

lemma Store.Valid.apply {s s' : Store} (v : s.Valid) {call : Call} (fits : ¬ call.Wraps s)
    (h : call.apply s = .ok s') : s'.Valid := by
  cases call with
  | createServerRoom =>
    obtain ⟨_, h⟩ := map_snd_eq_ok h
    exact v.createServerRoom h
  | createRack =>
    obtain ⟨_, h⟩ := map_snd_eq_ok h
    exact v.createRack h
  | updateRack =>
    obtain ⟨_, h⟩ := map_snd_eq_ok h
    exact v.updateRack h
  | duplicateRack =>
    obtain ⟨_, h⟩ := map_snd_eq_ok h
    exact v.duplicateRack h
  | duplicateServerRoom =>
    obtain ⟨_, h⟩ := map_snd_eq_ok h
    exact v.duplicateServerRoom h
  | placeRackItemOnFace id rackId fields startU heightU =>
    obtain ⟨_, h⟩ := map_snd_eq_ok h
    exact v.placeRackItemOnFace (fun rack home same wraps => fits ⟨rack, home, same, wraps⟩) h
  | updateRackItemOnFace =>
    obtain ⟨_, h⟩ := map_snd_eq_ok h
    exact v.updateRackItemOnFace (fun current member id rack home same span given wraps =>
      fits ⟨current, member, id, rack, home, same, span, given, wraps⟩) h
  | moveRackItemToFace =>
    obtain ⟨_, h⟩ := map_snd_eq_ok h
    exact v.moveRackItemToFace (fun rack home same wraps => fits ⟨rack, home, same, wraps⟩) h
  | removeRackItem => exact v.removeRackItem h

lemma Store.Valid.step {s : Store} (v : s.Valid) {call : Call} (fits : ¬ call.Wraps s) :
    (s.step call).Valid := by
  rw [Store.step]
  split
  · rename_i applied
    exact v.apply fits applied
  · exact v

lemma Store.Valid.run {s : Store} (v : s.Valid) {calls reached : List Call}
    (fits : s.Fits calls) (cut : reached <+: calls) : (s.run reached).Valid := by
  induction calls generalizing s reached with
  | nil =>
    cases prefix_nil.mp cut
    exact v
  | cons call calls ih =>
    cases reached with
    | nil => exact v
    | cons first reached =>
      obtain ⟨rfl, rest⟩ := cons_prefix_cons.mp cut
      exact ih (v.step fits.1) fits.2 rest

/-- In every run that places no wrapping span, in every state it reaches, every
rack has a layout: each device is inside the cabinet or is the one package on
top, and no two devices on a face overlap. -/
theorem rack_placement (sites : List Id) (calls : List Call)
    (fits : (Store.empty sites).Fits calls) :
    ∀ reached, reached <+: calls →
      ∀ rack ∈ ((Store.empty sites).run reached).racks,
        let items := ((Store.empty sites).run reached).listItemsForRack rack.id
        (items.map RackItem.id).Nodup ∧ Layout rack.heightU items := by
  intro reached cut rack home
  have v := (valid_empty sites).run fits cut
  exact ⟨v.listNodup rack.id, v.listLayout home⟩

/-- A 42U rack in a room, where a device then goes to `startU`. -/
def placeInNewRack (startU heightU : UInt32) : List Call :=
  [.createServerRoom ['r'] ['s'] ['M', 'D', 'F'] "default".toList,
    .createRack ['k'] ['s']
      { name := ['K'], serverRoom := ['M', 'D', 'F'], rackGroup := [], shell := none
        heightU := 42, depthMm := 1000, powerCapacityW := none },
    .placeRackItemOnFace ['i'] ['k']
      { kind := .server, connectionId := none, label := [], metadata := ⟨none, none⟩ }
      startU heightU .front]

theorem rack_placement_server :
    let s := (Store.empty [['s']]).run (placeInNewRack 2 4)
    s.items.map RackItem.id = [['i']] ∧
      ∀ rack ∈ s.racks, ((s.listItemsForRack rack.id).map RackItem.id).Nodup ∧
        Layout rack.heightU (s.listItemsForRack rack.id) :=
  ⟨by decide +kernel, rack_placement [['s']] (placeInNewRack 2 4) (by decide +kernel)
    (placeInNewRack 2 4) (prefix_refl _)⟩

/-- U2 and 2 ^ 32 - 1 units: the top wraps around to U0. -/
theorem wrapping_span_placed :
    let s := (Store.empty [['s']]).run (placeInNewRack 2 4294967295)
    ¬ ∀ rack ∈ s.racks, ∀ i ∈ s.listItemsForRack rack.id,
      InCabinet rack.heightU i ∨ OnTop rack.heightU i := by
  decide +kernel

end ItOps
