import KKTerm.Library.Fallible
import KKTerm.Library.Text

/-!
# Rack placement

The pure validators of a rack layout, on the code's 32-bit words. Sums wrap: a
span that wraps around to below the rack's height passes the bounds test.
-/

namespace ItOps

open Fallible UInt32

inductive StorageError where
  | validation (reason : String)
  | notFound
  | constraint

/-- Rack items are devices of these kinds; a Kuai Kuai package may stand on top. -/
inductive RackItemKind where
  | connection
  | switch
  | pdu
  | patchPanel
  | blank
  | label
  | server
  | storage
  | router
  | firewall
  | ups
  | kvm
  | genericDevice
  | kuaiguai
  deriving DecidableEq

inductive RackMountFace where
  | front
  | rear
  deriving DecidableEq

/-- The part of the metadata that decides where a device sits. -/
structure RackItemMetadata where
  widthFraction : Option (List Char)
  slot : Option UInt32
  deriving DecidableEq

def half : List Char := ['h', 'a', 'l', 'f']

def quarter : List Char := ['q', 'u', 'a', 'r', 't', 'e', 'r']

def trimString (value : Option (List Char)) : Option (List Char) :=
  (value.map Text.trim).filter (fun value => !value.isEmpty)

def normalizeMetadata (m : RackItemMetadata) : RackItemMetadata :=
  let widthFraction := (trimString m.widthFraction).filter (fun value => value = half ∨ value = quarter)
  { widthFraction
    slot :=
      if widthFraction = some half then some (min (m.slot.getD 0) 1)
      else if widthFraction = some quarter then some (min (m.slot.getD 0) 3)
      else none }

/-- Only these devices come in fractions of the rack's width. -/
def RackItemKind.fractional : RackItemKind → Bool
  | .switch | .router | .genericDevice => true
  | _ => false

def normalizeItemMetadata (kind : RackItemKind) (m : RackItemMetadata) : RackItemMetadata :=
  let m := normalizeMetadata m
  if !kind.fractional then { m with widthFraction := none, slot := none } else m

/-- A U span with the horizontal quarters that the face occupies. -/
structure Span where
  startU : UInt32
  heightU : UInt32
  xStart : UInt32
  xQuarters : UInt32
  deriving DecidableEq

def Span.endExclusive (a : Span) : UInt32 :=
  a.startU + a.heightU

def metadataXSpan (m : RackItemMetadata) : UInt32 × UInt32 :=
  if m.widthFraction = some half then (min (m.slot.getD 0) 1 * 2, 2)
  else if m.widthFraction = some quarter then (min (m.slot.getD 0) 3 * 1, 1)
  else (0, 4)

def spansOverlap (a b : Span) : Bool :=
  a.startU < b.endExclusive && b.startU < a.endExclusive &&
    a.xStart < b.xStart + b.xQuarters && b.xStart < a.xStart + a.xQuarters

def validatePlacement (rackHeightU : UInt32) (existing : List (List Char × Span))
    (ignoreId : Option (List Char)) (candidate : Span) : Except StorageError Unit := do
  reject (candidate.startU < 1 ∨ candidate.heightU < 1)
    (.validation "rack item must start at U1 or higher and be at least 1U tall")
  let top := candidate.startU + candidate.heightU - 1
  reject (top > rackHeightU) (.validation
    s!"rack item does not fit: it would occupy up to U{top} in a {rackHeightU}U rack")
  forM existing (fun (id, span) =>
    reject (ignoreId ≠ some id ∧ spansOverlap candidate span)
      (.validation s!"rack item overlaps an existing device at U{span.startU}"))

/-- Only a Kuai Kuai package may stand right above the cabinet. -/
def validateItemPlacement (kind : RackItemKind) (rackHeightU : UInt32)
    (existing : List (List Char × Span)) (ignoreId : Option (List Char)) (candidate : Span) :
    Except StorageError Unit :=
  if candidate.startU ≠ rackHeightU + 1 then
    validatePlacement rackHeightU existing ignoreId candidate
  else do
    reject (kind ≠ .kuaiguai)
      (.validation "only a Kuai Kuai package may be placed on top of a rack")
    reject (candidate.heightU < 1)
      (.validation "a rack-top Kuai Kuai package must be at least 1U tall")
    reject (∃ entry ∈ existing, ignoreId ≠ some entry.1 ∧ entry.2.startU = rackHeightU + 1)
      (.validation "the rack top already holds a Kuai Kuai package")

variable (x b : UInt32) (m : RackItemMetadata) (kind : RackItemKind) {h : UInt32} {a : Span}

lemma min_idem : min (min x b) b = min x b := by
  by_cases h : x ≤ b
  · simp only [UInt32.min_def, if_pos h]
  · simp [UInt32.min_def, if_neg h]

lemma trimString_half : trimString (some half) = some half := by decide

lemma trimString_quarter : trimString (some quarter) = some quarter := by decide

/-- Normalized metadata is full width without a slot, or a fraction with a valid one. -/
lemma normalizeMetadata_cases :
    normalizeMetadata m = ⟨none, none⟩ ∨
      normalizeMetadata m = ⟨some half, some (min (m.slot.getD 0) 1)⟩ ∨
      normalizeMetadata m = ⟨some quarter, some (min (m.slot.getD 0) 3)⟩ := by
  have differ : some quarter ≠ some half := by decide
  rw [normalizeMetadata]
  rcases width : (trimString m.widthFraction).filter
    (fun value => value = half ∨ value = quarter) with _ | value
  · exact .inl rfl
  · obtain ⟨_, kept⟩ := Option.filter_eq_some_iff.mp width
    rcases of_decide_eq_true kept with rfl | rfl
    · exact .inr (.inl rfl)
    · exact .inr (.inr (by simp only [if_neg differ, if_pos]))

lemma normalizeMetadata_idem : normalizeMetadata (normalizeMetadata m) = normalizeMetadata m := by
  rcases normalizeMetadata_cases m with full | halved | quartered
  · rw [full]
    rfl
  · rw [halved, normalizeMetadata, trimString_half]
    simp [min_idem]
  · rw [quartered, normalizeMetadata, trimString_quarter]
    simp [min_idem, show quarter ≠ half by decide]

lemma normalizeMetadata_item (m : RackItemMetadata) :
    normalizeMetadata (normalizeItemMetadata kind m) = normalizeItemMetadata kind m := by
  cases fractional : kind.fractional
  · simp only [normalizeItemMetadata, fractional]
    rfl
  · simp [normalizeItemMetadata, fractional, normalizeMetadata_idem]

/-- Reading a stored device gives back the metadata that was validated. -/
lemma normalizeItemMetadata_idem (m : RackItemMetadata) :
    normalizeItemMetadata kind (normalizeItemMetadata kind m) = normalizeItemMetadata kind m := by
  cases fractional : kind.fractional
  · simp [normalizeItemMetadata, fractional]
  · simp [normalizeItemMetadata, fractional, normalizeMetadata_idem]

lemma one_le_toNat {n : UInt32} : ¬ n < 1 ↔ 1 ≤ n.toNat := by
  rw [UInt32.not_lt]
  exact le_iff_toNat_le

lemma validatePlacement_eq_ok {existing : List (List Char × Span)} {ignoreId : Option (List Char)}
    {c : Span} :
    validatePlacement h existing ignoreId c = .ok () ↔
      1 ≤ c.startU.toNat ∧ 1 ≤ c.heightU.toNat ∧ (c.startU + c.heightU - 1).toNat ≤ h.toNat ∧
      ∀ entry ∈ existing, ignoreId ≠ some entry.1 → spansOverlap c entry.2 = false := by
  rw [validatePlacement, reject_bind_ok, not_or, one_le_toNat, one_le_toNat, and_assoc]
  refine and_congr_right (fun _ => and_congr_right (fun _ => ?_))
  rw [reject_bind_ok, forM_eq_ok]
  refine and_congr ?_ (forall₂_congr (fun entry _ => ?_))
  · rw [UInt32.not_lt]
    exact le_iff_toNat_le
  · rw [reject_eq_ok, not_and, Bool.not_eq_true]

/-- Off the top, but its 32-bit top falls back to within the rack. -/
def Wraps (rackHeightU startU heightU : UInt32) : Prop :=
  startU ≠ rackHeightU + 1 ∧ 2 ^ 32 ≤ startU.toNat + heightU.toNat - 1 ∧
    startU.toNat + heightU.toNat - 1 - 2 ^ 32 ≤ rackHeightU.toNat

instance (rackHeightU startU heightU : UInt32) : Decidable (Wraps rackHeightU startU heightU) :=
  inferInstanceAs (Decidable (_ ∧ _))

/-- A span that does not wrap and passes the bounds test lies inside the cabinet. -/
lemma top_le_of_not_wraps {startU heightU : UInt32} (off_top : startU ≠ h + 1)
    (fits : ¬ Wraps h startU heightU) (start_pos : 1 ≤ startU.toNat)
    (height_pos : 1 ≤ heightU.toNat) (checked : (startU + heightU - 1).toNat ≤ h.toNat) :
    startU.toNat + heightU.toNat - 1 ≤ h.toNat := by
  have wrapped : (startU + heightU - 1).toNat = (startU.toNat + heightU.toNat - 1) % 2 ^ 32 := by
    rw [UInt32.toNat_sub, UInt32.toNat_add]
    simp
    omega
  have start_lt := startU.toNat_lt
  have height_lt := heightU.toNat_lt
  by_contra beyond
  refine fits ⟨off_top, ?_, ?_⟩ <;> omega

lemma metadataXSpan_le : (metadataXSpan m).1.toNat + (metadataXSpan m).2.toNat ≤ 4 := by
  have le_right : ∀ x b : UInt32, (min x b).toNat ≤ b.toNat := by
    intro x b
    by_cases h : x ≤ b
    · simpa only [UInt32.min_def, if_pos h] using le_iff_toNat_le.mp h
    · simp only [UInt32.min_def, if_neg h, Nat.le_refl]
  rw [metadataXSpan]
  split
  · have slot := le_right (m.slot.getD 0) 1
    simp only [UInt32.toNat_mul, reduceToNat] at slot ⊢
    omega
  · split
    · have slot := le_right (m.slot.getD 0) 3
      simp only [UInt32.toNat_mul, reduceToNat] at slot ⊢
      omega
    · decide

/-- Two faces share no quarter of a U, in unbounded integers. -/
def Apart (a b : Span) : Prop :=
  a.startU.toNat + a.heightU.toNat ≤ b.startU.toNat ∨
    b.startU.toNat + b.heightU.toNat ≤ a.startU.toNat ∨
    a.xStart.toNat + a.xQuarters.toNat ≤ b.xStart.toNat ∨
    b.xStart.toNat + b.xQuarters.toNat ≤ a.xStart.toNat

lemma Apart.symm {b : Span} (h : Apart a b) : Apart b a := by
  rcases h with h | h | h | h
  · exact .inr (.inl h)
  · exact .inl h
  · exact .inr (.inr (.inr h))
  · exact .inr (.inr (.inl h))

/-- The code's overlap test is exact where none of its sums wraps. -/
lemma apart_of_not_overlap {b : Span} (a_end : a.startU.toNat + a.heightU.toNat < 2 ^ 32)
    (b_end : b.startU.toNat + b.heightU.toNat < 2 ^ 32)
    (a_wide : a.xStart.toNat + a.xQuarters.toNat ≤ 4)
    (b_wide : b.xStart.toNat + b.xQuarters.toNat ≤ 4) (h : spansOverlap a b = false) :
    Apart a b := by
  by_contra together
  rw [Apart, not_or, not_or, not_or] at together
  have overlap : spansOverlap a b = true := by
    simp only [spansOverlap, Span.endExclusive, Bool.and_eq_true, decide_eq_true_eq,
      lt_iff_toNat_lt, UInt32.toNat_add]
    omega
  rw [overlap] at h
  cases h

end ItOps

/-!
# Server rooms, racks and rack devices

The tables as lists of rows in the order of insertion, and the statements that
read and write them. A failed call leaves the tables unchanged. Room objects
and room and rack backgrounds, which no placement rule reads, are left out.
-/

namespace ItOps

open Fallible Text

abbrev Id := List Char

structure ServerRoom where
  id : Id
  siteId : Id
  name : List Char
  floorColor : List Char
  sortOrder : Int

structure Rack where
  id : Id
  siteId : Id
  name : List Char
  serverRoom : List Char
  rackGroup : List Char
  shell : Option (List Char)
  heightU : UInt32
  depthMm : UInt32
  powerCapacityW : Option UInt32
  gridX : Option Int
  gridY : Option Int
  facing : Option Int
  sortOrder : Int

structure RackItem where
  id : Id
  rackId : Id
  connectionId : Option Id
  kind : RackItemKind
  label : List Char
  startU : UInt32
  heightU : UInt32
  mountFace : RackMountFace
  metadata : RackItemMetadata

def RackItem.span (i : RackItem) : Span :=
  { startU := i.startU, heightU := i.heightU
    xStart := (metadataXSpan i.metadata).1, xQuarters := (metadataXSpan i.metadata).2 }

structure Store where
  sites : List Id
  rooms : List ServerRoom
  racks : List Rack
  items : List RackItem

namespace Store

def empty (sites : List Id) : Store :=
  { sites, rooms := [], racks := [], items := [] }

def insertServerRoom (s : Store) (room : ServerRoom) : Except StorageError Store := do
  reject (room.id ∈ s.rooms.map ServerRoom.id) .constraint
  reject (∃ other ∈ s.rooms, other.siteId = room.siteId ∧ other.name = room.name) .constraint
  reject (room.siteId ∉ s.sites) .constraint
  pure { s with rooms := s.rooms ++ [room] }

def insertRack (s : Store) (rack : Rack) : Except StorageError Store := do
  reject (rack.id ∈ s.racks.map Rack.id) .constraint
  reject (rack.siteId ∉ s.sites) .constraint
  pure { s with racks := s.racks ++ [rack] }

def insertItem (s : Store) (item : RackItem) : Except StorageError Store := do
  reject (item.id ∈ s.items.map RackItem.id) .constraint
  reject (item.rackId ∉ s.racks.map Rack.id) .constraint
  pure { s with items := s.items ++ [item] }

/-- `COALESCE(MAX(sort_order), -1) + 1`. -/
def nextSort (orders : List Int) : Int :=
  orders.max?.getD (-1) + 1

def nextRoomSort (s : Store) (siteId : Id) : Int :=
  nextSort ((s.rooms.filter (·.siteId = siteId)).map ServerRoom.sortOrder)

def nextRackSort (s : Store) (siteId : Id) : Int :=
  nextSort ((s.racks.filter (·.siteId = siteId)).map Rack.sortOrder)

/-- A stored device comes back with the metadata its kind allows. -/
def rowToItem (i : RackItem) : RackItem :=
  { i with metadata := normalizeItemMetadata i.kind i.metadata }

def listItemsForRack (s : Store) (rackId : Id) : List RackItem :=
  ((s.items.filter (·.rackId = rackId)).mergeSort (fun a b => a.startU ≤ b.startU)).map rowToItem

/-- A rack-top package is in the way on both faces. -/
def existingSpans (s : Store) (rackId : Id) (mountFace : RackMountFace) (rackHeightU : UInt32) :
    List (Id × Span) :=
  ((s.listItemsForRack rackId).filter
    (fun i => i.mountFace = mountFace ∨ i.startU = rackHeightU + 1)).map (fun i => (i.id, i.span))

def fetchRow (s : Store) (id : Id) : Except StorageError Rack :=
  match s.racks.find? (·.id = id) with
  | some rack => .ok rack
  | none => .error .notFound

def fetchRackHeight (s : Store) (rackId : Id) : Except StorageError UInt32 :=
  return (← s.fetchRow rackId).heightU

def fetchRack (s : Store) (id : Id) : Except StorageError (Rack × List RackItem) :=
  return (← s.fetchRow id, s.listItemsForRack id)

def fetchItem (s : Store) (id : Id) : Except StorageError RackItem :=
  match s.items.find? (·.id = id) with
  | some item => .ok (rowToItem item)
  | none => .error .notFound

def listRacks (s : Store) (siteId : Id) : List (Rack × List RackItem) :=
  ((s.racks.filter (·.siteId = siteId)).mergeSort (fun a b => a.sortOrder ≤ b.sortOrder)).map
    (fun rack => (rack, s.listItemsForRack rack.id))

end Store

def maxRackHeightU : UInt32 := 100
def maxRackDepthMm : UInt32 := 5000
def maxRackPowerW : UInt32 := 1000000

def isoFloorColors : List (List Char) :=
  ["default".toList, "concrete".toList, "graphite".toList, "green".toList, "blue".toList]

def validateName (name : List Char) : Except StorageError (List Char) := do
  reject (trim name = []) (.validation "rack name must not be empty")
  pure (trim name)

def validateHeight (heightU : UInt32) : Except StorageError UInt32 := do
  reject (heightU < 1 ∨ maxRackHeightU < heightU)
    (.validation s!"rack height must be between 1 and {maxRackHeightU}U")
  pure heightU

def validateDepth (depthMm : UInt32) : Except StorageError UInt32 := do
  reject (depthMm < 1 ∨ maxRackDepthMm < depthMm)
    (.validation s!"rack depth must be between 1 and {maxRackDepthMm} mm")
  pure depthMm

def validatePowerCapacity (powerCapacityW : Option UInt32) : Except StorageError (Option UInt32) :=
  match powerCapacityW with
  | none => pure none
  | some watts =>
    if watts = 0 then pure none
    else do
      reject (maxRackPowerW < watts)
        (.validation s!"rack power capacity must be at most {maxRackPowerW} W")
      pure (some watts)

def validateFloorColor (value : List Char) : Except StorageError (List Char) := do
  reject (trim value ∉ isoFloorColors) (.validation "invalid server room floor color")
  pure (trim value)

def normalizeShell (shell : Option (List Char)) : Option (List Char) :=
  (shell.map trim).filter (fun value => value ≠ [] ∧ value ≠ "black".toList)

/-- `COLLATE NOCASE` folds the ASCII letters. -/
def sameNoCase (a b : List Char) : Bool :=
  a.map Char.toLower == b.map Char.toLower

def validateServerRoom (s : Store) (siteId : Id) (name : List Char) :
    Except StorageError (List Char) := do
  reject (trim name = []) (.validation "rack must belong to a server room")
  reject (¬ ∃ room ∈ s.rooms, room.siteId = siteId ∧ sameNoCase room.name (trim name))
    (.validation "server room does not belong to this site")
  pure (trim name)

def normalizeItemConnection (kind : RackItemKind) (connectionId : Option Id) :
    Except StorageError (Option Id) :=
  if kind = .connection then
    match connectionId with
    | some id =>
      if trim id = [] then
        .error (.validation "a connection rack item requires a connectionId")
      else .ok (some id)
    | none => .error (.validation "a connection rack item requires a connectionId")
  else .ok none

def createServerRoom (s : Store) (id siteId : Id) (name floorColor : List Char) :
    Except StorageError (ServerRoom × Store) := do
  reject (trim name = []) (.validation "server room name must not be empty")
  let floorColor ← validateFloorColor floorColor
  let room : ServerRoom :=
    { id, siteId, name := trim name, floorColor, sortOrder := s.nextRoomSort siteId }
  pure (room, ← s.insertServerRoom room)

structure RackFields where
  name : List Char
  serverRoom : List Char
  rackGroup : List Char
  shell : Option (List Char)
  heightU : UInt32
  depthMm : UInt32
  powerCapacityW : Option UInt32

def createRack (s : Store) (id siteId : Id) (fields : RackFields) :
    Except StorageError (Rack × Store) := do
  let name ← validateName fields.name
  let serverRoom ← validateServerRoom s siteId fields.serverRoom
  let heightU ← validateHeight fields.heightU
  let depthMm ← validateDepth fields.depthMm
  let powerCapacityW ← validatePowerCapacity fields.powerCapacityW
  let rack : Rack :=
    { id, siteId, name, serverRoom, rackGroup := trim fields.rackGroup
      shell := normalizeShell fields.shell, heightU, depthMm, powerCapacityW
      gridX := none, gridY := none, facing := none, sortOrder := s.nextRackSort siteId }
  pure (rack, ← s.insertRack rack)

/-- The package on top of a rack of this height. -/
def RackItem.onTopOf (i : RackItem) (heightU : UInt32) : Prop :=
  i.kind = .kuaiguai ∧ i.startU = heightU + 1

instance (i : RackItem) (heightU : UInt32) : Decidable (i.onTopOf heightU) :=
  inferInstanceAs (Decidable (_ ∧ _))

/-- A rack may not shrink below a device, the package on top apart. -/
def validateShrink (oldHeightU heightU : UInt32) (items : List RackItem) :
    Except StorageError Unit :=
  forM items (fun item =>
    let top := item.startU + item.heightU - 1
    reject (¬ item.onTopOf oldHeightU ∧ top > heightU)
      (.validation s!"cannot shrink to {heightU}U: an item occupies U{top}"))

/-- The package on top follows the rack's height. -/
def RackItem.followHeight (oldHeightU heightU : UInt32) (item : RackItem) : RackItem :=
  if item.onTopOf oldHeightU then { item with startU := heightU + 1 } else item

def followRack (rackId : Id) (oldHeightU heightU : UInt32) (items : List RackItem) :
    List RackItem :=
  items.map (fun item =>
    if item.rackId = rackId then item.followHeight oldHeightU heightU else item)

def updateRack (s : Store) (id : Id) (fields : RackFields) :
    Except StorageError ((Rack × List RackItem) × Store) := do
  let name ← validateName fields.name
  let heightU ← validateHeight fields.heightU
  let depthMm ← validateDepth fields.depthMm
  let powerCapacityW ← validatePowerCapacity fields.powerCapacityW
  let old ← s.fetchRow id
  let serverRoom ← validateServerRoom s old.siteId fields.serverRoom
  validateShrink old.heightU heightU (s.listItemsForRack id)
  let s : Store :=
    { s with
      racks := s.racks.map (fun rack =>
        if rack.id = id then
          { rack with
            name, serverRoom, rackGroup := trim fields.rackGroup
            shell := normalizeShell fields.shell, heightU, depthMm, powerCapacityW }
        else rack)
      items := if old.heightU ≠ heightU then followRack id old.heightU heightU s.items else s.items }
  pure (← s.fetchRack id, s)

def RackItem.copyTo (item : RackItem) (id rackId : Id) : RackItem :=
  { item with id, rackId, metadata := normalizeMetadata item.metadata }

/-- Copies of the devices of a rack; `newIds` continues at `n`. -/
def cloneItems (newIds : Nat → Id) (rackId : Id) (items : List RackItem) (s : Store) (n : Nat) :
    Except StorageError (Store × Nat) :=
  items.foldlM (fun (s, n) item => do
    pure (← s.insertItem (item.copyTo (newIds n) rackId), n + 1)) (s, n)

def insertRackClone (newIds : Nat → Id) (source : Rack) (items : List RackItem)
    (duplicateId : Id) (duplicateName serverRoom : List Char) (preservePlacement : Bool)
    (s : Store) (n : Nat) : Except StorageError (Store × Nat) := do
  let kept (x : Option Int) : Option Int := if preservePlacement then x else none
  let s ← s.insertRack
    { source with
      id := duplicateId, name := duplicateName, serverRoom
      gridX := kept source.gridX, gridY := kept source.gridY, facing := kept source.facing
      sortOrder := s.nextRackSort source.siteId }
  cloneItems newIds duplicateId items s n

def clonePlacement (gridX gridY facing : Option Int) :
    Except StorageError (Option (Int × Int × Int)) :=
  match gridX, gridY, facing with
  | none, none, none => pure none
  | some x, some y, some facing => do
    reject (facing < 0 ∨ 3 < facing) (.validation s!"rack facing must be 0..=3, got {facing}")
    reject (x < 0 ∨ y < 0)
      (.validation s!"rack grid coordinates must be non-negative, got ({x}, {y})")
    pure (some (x, y, facing))
  | _, _, _ =>
    .error (.validation "rack clone placement requires grid_x, grid_y, and facing together")

def Store.setGrid (s : Store) (id : Id) (placement : Option (Int × Int × Int)) : Store :=
  match placement with
  | none => s
  | some (x, y, facing) =>
    { s with racks := s.racks.map (fun rack =>
        if rack.id = id then { rack with gridX := x, gridY := y, facing := facing } else rack) }

def duplicateRack (s : Store) (id : Id) (fields : RackFields) (gridX gridY facing : Option Int)
    (newIds : Nat → Id) : Except StorageError ((Rack × List RackItem) × Store) := do
  let placement ← clonePlacement gridX gridY facing
  let (old, items) ← s.fetchRack id
  let name ← validateName fields.name
  let serverRoom ← validateServerRoom s old.siteId fields.serverRoom
  let heightU ← validateHeight fields.heightU
  let depthMm ← validateDepth fields.depthMm
  let powerCapacityW ← validatePowerCapacity fields.powerCapacityW
  let source : Rack :=
    { old with
      name, serverRoom, rackGroup := trim fields.rackGroup
      shell := normalizeShell fields.shell, heightU, depthMm, powerCapacityW }
  validateShrink old.heightU heightU items
  let duplicateId := newIds 0
  let (s, _) ← insertRackClone newIds source (items.map (RackItem.followHeight old.heightU heightU))
    duplicateId name serverRoom false s 1
  let s := s.setGrid duplicateId placement
  pure (← s.fetchRack duplicateId, s)

def duplicateServerRoom (s : Store) (id : Id) (name floorColor : List Char) (newIds : Nat → Id) :
    Except StorageError (ServerRoom × Store) :=
  match s.rooms.find? (·.id = id) with
  | none => .error .notFound
  | some source => do
    let duplicateName := trim name
    reject (duplicateName = []) (.validation "server room name must not be empty")
    reject (∃ room ∈ s.rooms, room.siteId = source.siteId ∧ sameNoCase room.name duplicateName)
      (.validation "a server room with that name already exists")
    let floorColor ← validateFloorColor floorColor
    let sourceRacks := (s.listRacks source.siteId).filter (fun rack => rack.1.serverRoom = source.name)
    let room : ServerRoom :=
      { id := newIds 0, siteId := source.siteId, name := duplicateName, floorColor
        sortOrder := s.nextRoomSort source.siteId }
    let s ← s.insertServerRoom room
    let (s, _) ← sourceRacks.foldlM (fun (s, n) rack =>
      insertRackClone newIds rack.1 rack.2 (newIds n) rack.1.name duplicateName true s (n + 1))
      (s, 1)
    pure (room, s)

structure ItemFields where
  kind : RackItemKind
  connectionId : Option Id
  label : List Char
  metadata : RackItemMetadata

def placeRackItemOnFace (s : Store) (id rackId : Id) (fields : ItemFields)
    (startU heightU : UInt32) (mountFace : RackMountFace) :
    Except StorageError (RackItem × Store) := do
  let connectionId ← normalizeItemConnection fields.kind fields.connectionId
  let item : RackItem :=
    { id, rackId, connectionId, kind := fields.kind, label := trim fields.label
      startU, heightU, mountFace, metadata := normalizeItemMetadata fields.kind fields.metadata }
  let rackHeight ← s.fetchRackHeight rackId
  validateItemPlacement fields.kind rackHeight (s.existingSpans rackId mountFace rackHeight) none
    item.span
  pure (item, ← s.insertItem { item with metadata := normalizeMetadata item.metadata })

/-- The rows after one of them is overwritten. -/
def overwrite (row : RackItem) (items : List RackItem) : List RackItem :=
  items.map (fun other => if other.id = row.id then row else other)

/-- Overwrite a device and read it back. -/
def Store.replaceItem (s : Store) (item : RackItem) : Except StorageError (RackItem × Store) := do
  let row := { item with metadata := normalizeMetadata item.metadata }
  let s := { s with items := overwrite row s.items }
  pure (← s.fetchItem item.id, s)

def updateRackItemOnFace (s : Store) (id : Id) (fields : ItemFields)
    (placement : Option (UInt32 × UInt32)) (mountFace : Option RackMountFace) :
    Except StorageError (RackItem × Store) := do
  let current ← s.fetchItem id
  let mountFace := mountFace.getD current.mountFace
  let rackHeight ← s.fetchRackHeight current.rackId
  reject (current.startU = rackHeight + 1 ∧ fields.kind ≠ .kuaiguai) (.validation
    "move a rack-top Kuai Kuai package inside the cabinet before changing its type")
  let connectionId ← normalizeItemConnection fields.kind fields.connectionId
  let (startU, heightU) := placement.getD (current.startU, current.heightU)
  let item : RackItem :=
    { current with
      connectionId, kind := fields.kind, label := trim fields.label
      startU, heightU, mountFace, metadata := normalizeItemMetadata fields.kind fields.metadata }
  validateItemPlacement fields.kind rackHeight
    (s.existingSpans current.rackId mountFace rackHeight) (some id) item.span
  s.replaceItem item

/-- A slot moves a fractional device sideways; a full-width one ignores it. -/
def slideSlot (m : RackItemMetadata) (slot : Option UInt32) : RackItemMetadata :=
  if slot.isSome ∧ m.widthFraction.isSome then normalizeMetadata { m with slot } else m

def moveRackItemToFace (s : Store) (id rackId : Id) (startU heightU : UInt32)
    (slot : Option UInt32) (mountFace : Option RackMountFace) :
    Except StorageError (RackItem × Store) := do
  let current ← s.fetchItem id
  let mountFace := mountFace.getD current.mountFace
  let item : RackItem :=
    { current with
      rackId, startU, heightU, mountFace, metadata := slideSlot current.metadata slot }
  let rackHeight ← s.fetchRackHeight rackId
  validateItemPlacement current.kind rackHeight (s.existingSpans rackId mountFace rackHeight)
    (some id) item.span
  s.replaceItem item

def removeRackItem (s : Store) (id : Id) : Except StorageError Store := do
  reject (id ∉ s.items.map RackItem.id) .notFound
  pure { s with items := s.items.filter (·.id ≠ id) }

inductive Call where
  | createServerRoom (id siteId : Id) (name floorColor : List Char)
  | createRack (id siteId : Id) (fields : RackFields)
  | updateRack (id : Id) (fields : RackFields)
  | duplicateRack (id : Id) (fields : RackFields) (gridX gridY facing : Option Int)
      (newIds : Nat → Id)
  | duplicateServerRoom (id : Id) (name floorColor : List Char) (newIds : Nat → Id)
  | placeRackItemOnFace (id rackId : Id) (fields : ItemFields) (startU heightU : UInt32)
      (mountFace : RackMountFace)
  | updateRackItemOnFace (id : Id) (fields : ItemFields) (placement : Option (UInt32 × UInt32))
      (mountFace : Option RackMountFace)
  | moveRackItemToFace (id rackId : Id) (startU heightU : UInt32) (slot : Option UInt32)
      (mountFace : Option RackMountFace)
  | removeRackItem (id : Id)

def Call.apply (s : Store) : Call → Except StorageError Store
  | createServerRoom id siteId name floorColor =>
    Prod.snd <$> ItOps.createServerRoom s id siteId name floorColor
  | createRack id siteId fields => Prod.snd <$> ItOps.createRack s id siteId fields
  | updateRack id fields => Prod.snd <$> ItOps.updateRack s id fields
  | duplicateRack id fields gridX gridY facing newIds =>
    Prod.snd <$> ItOps.duplicateRack s id fields gridX gridY facing newIds
  | duplicateServerRoom id name floorColor newIds =>
    Prod.snd <$> ItOps.duplicateServerRoom s id name floorColor newIds
  | placeRackItemOnFace id rackId fields startU heightU mountFace =>
    Prod.snd <$> ItOps.placeRackItemOnFace s id rackId fields startU heightU mountFace
  | updateRackItemOnFace id fields placement mountFace =>
    Prod.snd <$> ItOps.updateRackItemOnFace s id fields placement mountFace
  | moveRackItemToFace id rackId startU heightU slot mountFace =>
    Prod.snd <$> ItOps.moveRackItemToFace s id rackId startU heightU slot mountFace
  | removeRackItem id => ItOps.removeRackItem s id

def Store.step (s : Store) (call : Call) : Store :=
  match call.apply s with
  | .ok s' => s'
  | .error _ => s

def Store.run (s : Store) (calls : List Call) : Store :=
  calls.foldl Store.step s

end ItOps
