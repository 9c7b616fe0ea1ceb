import KKTerm.ItOps.RackInvariant
import KKTerm.Library.Rounding
import Mathlib.Data.Rat.Floor

/-!
# The drop preview of a rack

Where a device that follows the pointer would land, and whether something is in the way,
next to what the storage says to a new device there. Pointer and rectangles are in rounded
arithmetic; units and quarters are whole numbers.
-/

namespace ItOps.Preview

open Fallible List UInt32

structure ClientRectLike where
  left : ℚ
  right : ℚ
  top : ℚ
  bottom : ℚ
  width : ℚ
  height : ℚ

inductive Zone where
  | inside
  | top
  deriving DecidableEq

structure RackPlacementSnap where
  startU : ℤ
  blocked : Bool
  zone : Zone
  slot : ℤ
  deriving DecidableEq

def widthFractionQuarters (widthFraction : Option (List Char)) : ℤ :=
  if widthFraction = some half then 2 else if widthFraction = some quarter then 1 else 4

/-- The units and quarters that a device occupies. -/
structure PlaceSpan where
  startU : ℤ
  heightU : ℤ
  xStart : ℤ
  xQuarters : ℤ

/-- The first quarter and the number of quarters. -/
def rackItemXSpan (metadata : RackItemMetadata) : ℤ × ℤ :=
  let xQuarters := widthFractionQuarters metadata.widthFraction
  if xQuarters = 4 then (0, xQuarters)
  else
    let slots := 4 / xQuarters
    let slot := max 0 (min (slots - 1) ((metadata.slot.getD 0).toNat : ℤ))
    (slot * xQuarters, xQuarters)

def rackItemsCollide (a b : PlaceSpan) : Bool :=
  a.startU < b.startU + b.heightU && b.startU < a.startU + a.heightU &&
    a.xStart < b.xStart + b.xQuarters && b.xStart < a.xStart + a.xQuarters

def itemSpan (item : RackItem) : PlaceSpan :=
  { startU := item.startU.toNat, heightU := item.heightU.toNat
    xStart := (rackItemXSpan item.metadata).1, xQuarters := (rackItemXSpan item.metadata).2 }

def isRackTopItem (item : RackItem) (rackHeightU : ℤ) : Bool :=
  item.kind = .kuaiguai ∧ (item.startU.toNat : ℤ) = rackHeightU + 1

/-- `Math.hypot` is rounded as the implementation likes. -/
structure Numbers extends Rounding where
  hypot : ℚ → ℚ → ℚ
  hypot_zero : hypot 0 0 = 0

section Snap
variable (num : Numbers)

def horizontalDistance (x : ℚ) (rect : ClientRectLike) : ℚ :=
  if x < rect.left then num.round (rect.left - x)
  else if x > rect.right then num.round (x - rect.right) else 0

def distanceToRect (x y : ℚ) (rect : ClientRectLike) : ℚ :=
  let dx := horizontalDistance num x rect
  let dy := if y < rect.top then num.round (rect.top - y)
    else if y > rect.bottom then num.round (y - rect.bottom) else 0
  num.hypot dx dy

def snapPlacementSlot (x : ℚ) (bayRect : ClientRectLike) (widthFraction : Option (List Char)) :
    ℤ :=
  let slots := 4 / widthFractionQuarters widthFraction
  if slots ≤ 1 then 0
  else
    let relativeX := max 0 (min (num.round (999 / 1000))
      (num.round (num.round (x - bayRect.left) / max 1 bayRect.width)))
    min (slots - 1) ⌊num.round (relativeX * slots)⌋

def magneticDistance : ℚ := 68

def snapRackPlacement (x y : ℚ) (bayRect : ClientRectLike) (rackHeightU placeHeightU : ℤ)
    (placeWidthFraction : Option (List Char)) (items : List RackItem) (allowTop : Bool)
    (snapDistance : ℚ) : Option RackPlacementSnap :=
  let heightU := max 1 (min placeHeightU rackHeightU)
  let rowHeight := num.round (bayRect.height / (max 1 rackHeightU : ℤ))
  if allowTop ∧ y < bayRect.top ∧
      y ≥ num.round (num.round (bayRect.top - num.round (heightU * rowHeight)) - snapDistance) ∧
      horizontalDistance num x bayRect ≤ snapDistance then
    some { startU := rackHeightU + 1, blocked := items.any (isRackTopItem · rackHeightU)
           zone := .top, slot := 0 }
  else if distanceToRect num x y bayRect > snapDistance then none
  else
    let relativeY := max 0
      (min (num.round (bayRect.height - num.round (1 / 1000))) (num.round (y - bayRect.top)))
    let hoveredU := rackHeightU - ⌊num.round (relativeY / rowHeight)⌋
    let startU := max 1 (min hoveredU (rackHeightU - heightU + 1))
    let slot := snapPlacementSlot num x bayRect placeWidthFraction
    let xQuarters := widthFractionQuarters placeWidthFraction
    let placeSpan : PlaceSpan := { startU, heightU, xStart := slot * xQuarters, xQuarters }
    some { startU
           blocked := items.any fun item =>
             !isRackTopItem item rackHeightU && rackItemsCollide placeSpan (itemSpan item)
           zone := .inside, slot }

end Snap

/-- What the elevation passes: the devices of the face, and a package on top on either. -/
def shownItems (rackHeightU : ℤ) (face : RackMountFace) (items : List RackItem) :
    List RackItem :=
  items.filter fun item => isRackTopItem item rackHeightU || item.mountFace = face

def faceItems (face : RackMountFace) (items : List RackItem) : List RackItem :=
  items.filter (·.mountFace = face)

/-- A new device as the snap places it. -/
def newSpan (snap : RackPlacementSnap) (placeHeightU : UInt32)
    (widthFraction : Option (List Char)) : Span :=
  let strip := metadataXSpan ⟨widthFraction, some (UInt32.ofNat snap.slot.toNat)⟩
  { startU := UInt32.ofNat snap.startU.toNat, heightU := placeHeightU
    xStart := strip.1, xQuarters := strip.2 }

structure Draft where
  kind : RackItemKind
  heightU : UInt32
  widthFraction : Option (List Char)
  face : RackMountFace

def Accepts (s : Store) (rack : Rack) (draft : Draft) (snap : RackPlacementSnap) : Prop :=
  validateItemPlacement draft.kind rack.heightU (s.existingSpans rack.id draft.face rack.heightU)
    none (newSpan snap draft.heightU draft.widthFraction) = .ok ()

/-- Over every bay the preview of the draft and the storage agree. -/
def Agree (num : Numbers) (s : Store) (rack : Rack) (draft : Draft) (items : List RackItem) :
    Prop :=
  ∀ (x y : ℚ) (bayRect : ClientRectLike) (snapDistance : ℚ) (snap : RackPlacementSnap),
    0 < bayRect.width → 0 < bayRect.height →
    snapRackPlacement num x y bayRect rack.heightU.toNat draft.heightU.toNat draft.widthFraction
      items (draft.kind = .kuaiguai) snapDistance = some snap →
    (snap.blocked = false → Accepts s rack draft snap) ∧
      (snap.blocked = true → snap.zone = .inside → ¬ Accepts s rack draft snap)

lemma quarters_cases (widthFraction : Option (List Char)) :
    widthFraction = some half ∧ widthFractionQuarters widthFraction = 2 ∨
      widthFraction ≠ some half ∧ widthFraction = some quarter ∧
        widthFractionQuarters widthFraction = 1 ∨
      widthFraction ≠ some half ∧ widthFraction ≠ some quarter ∧
        widthFractionQuarters widthFraction = 4 := by
  by_cases halved : widthFraction = some half
  · simp [widthFractionQuarters, halved]
  · by_cases quartered : widthFraction = some quarter
    · simp [widthFractionQuarters, quartered, show quarter ≠ half by decide]
    · simp [widthFractionQuarters, halved, quartered]

lemma rackItemXSpan_eq (m : RackItemMetadata) :
    rackItemXSpan m = (((metadataXSpan m).1.toNat : ℤ), ((metadataXSpan m).2.toNat : ℤ)) := by
  rcases quarters_cases m.widthFraction with ⟨h, q⟩ | ⟨h, h', q⟩ | ⟨h, h', q⟩
  · simp only [rackItemXSpan, metadataXSpan, q, if_pos h]
    have slot : (min (m.slot.getD 0) 1 * 2).toNat = min (m.slot.getD 0).toNat 1 * 2 := by
      rw [UInt32.toNat_mul, toNat_min]
      simp only [reduceToNat]
      omega
    rw [slot]
    simp
    omega
  · simp only [rackItemXSpan, metadataXSpan, q, if_neg h, if_pos h']
    have slot : (min (m.slot.getD 0) 3 * 1).toNat = min (m.slot.getD 0).toNat 3 := by
      rw [UInt32.toNat_mul, toNat_min]
      simp only [reduceToNat]
      omega
    rw [slot]
    simp
    omega
  · simp [rackItemXSpan, metadataXSpan, q, h, h']

lemma strip_of_slot {widthFraction : Option (List Char)} {slot : ℤ} (low : 0 ≤ slot)
    (high : slot < 4 / widthFractionQuarters widthFraction) :
    rackItemXSpan ⟨widthFraction, some (ofNat slot.toNat)⟩ =
      (slot * widthFractionQuarters widthFraction, widthFractionQuarters widthFraction) := by
  have word : slot.toNat < 2 ^ 32 → (ofNat slot.toNat).toNat = slot.toNat := by
    intro small
    simpa using Nat.mod_eq_of_lt small
  rcases quarters_cases widthFraction with ⟨_, q⟩ | ⟨_, _, q⟩ | ⟨_, _, q⟩ <;>
    rw [q] at high <;> simp only [rackItemXSpan, q, Option.getD_some] <;>
    rw [word (by omega)] <;> simp <;> omega

section Snap
variable {num : Numbers} {x y : ℚ} {bayRect : ClientRectLike} {rackHeightU placeHeightU : ℤ}
variable {widthFraction : Option (List Char)} {items : List RackItem} {allowTop : Bool}
variable {snapDistance : ℚ} {snap : RackPlacementSnap}

lemma snapPlacementSlot_mem (num : Numbers) (x : ℚ) (bayRect : ClientRectLike)
    (widthFraction : Option (List Char)) :
    0 ≤ snapPlacementSlot num x bayRect widthFraction ∧
      snapPlacementSlot num x bayRect widthFraction < 4 / widthFractionQuarters widthFraction := by
  have inside : ∀ slots : ℤ, 1 < slots → ∀ u : ℚ,
      0 ≤ min (slots - 1) ⌊num.round (max 0 u * slots)⌋ ∧
        min (slots - 1) ⌊num.round (max 0 u * slots)⌋ < slots := by
    intro slots many u
    have many' : (0 : ℚ) ≤ slots := Int.cast_nonneg (by omega)
    have product : 0 ≤ max 0 u * slots := mul_nonneg (le_max_left 0 u) many'
    have floor : 0 ≤ ⌊num.round (max 0 u * slots)⌋ :=
      Int.floor_nonneg.mpr (num.round_nonneg product)
    omega
  simp only [snapPlacementSlot]
  rcases quarters_cases widthFraction with ⟨_, q⟩ | ⟨_, _, q⟩ | ⟨_, _, q⟩
  · rw [q, if_neg (by decide)]
    exact inside (4 / 2) (by decide) _
  · rw [q, if_neg (by decide)]
    exact inside (4 / 1) (by decide) _
  · simp [q]

/-- The units and quarters that the device takes in the preview. -/
def placed (rackHeightU placeHeightU : ℤ) (widthFraction : Option (List Char))
    (startU slot : ℤ) : PlaceSpan :=
  { startU, heightU := max 1 (min placeHeightU rackHeightU)
    xStart := slot * widthFractionQuarters widthFraction
    xQuarters := widthFractionQuarters widthFraction }

/-- Whether a device of the cabinet is in the way. -/
def taken (rackHeightU : ℤ) (items : List RackItem) (span : PlaceSpan) : Bool :=
  items.any fun item => !isRackTopItem item rackHeightU && rackItemsCollide span (itemSpan item)

/-- A snap is on top, or it lies in the cabinet and in one of the slots. -/
lemma snap_cases
    (found : snapRackPlacement num x y bayRect rackHeightU placeHeightU widthFraction items
      allowTop snapDistance = some snap) :
    (allowTop = true ∧ snap.zone = .top ∧ snap.startU = rackHeightU + 1 ∧
      snap.blocked = items.any (isRackTopItem · rackHeightU)) ∨
    (snap.zone = .inside ∧ 1 ≤ snap.startU ∧
      snap.startU ≤ max 1 (rackHeightU - max 1 (min placeHeightU rackHeightU) + 1) ∧
      0 ≤ snap.slot ∧ snap.slot < 4 / widthFractionQuarters widthFraction ∧
      snap.blocked = taken rackHeightU items
        (placed rackHeightU placeHeightU widthFraction snap.startU snap.slot)) := by
  simp only [snapRackPlacement] at found
  split_ifs at found with top far
  · cases found
    exact .inl ⟨top.1, rfl, rfl, rfl⟩
  · cases found
    obtain ⟨low, high⟩ := snapPlacementSlot_mem num x bayRect widthFraction
    refine Or.inr ⟨rfl, ?_, ?_, low, high, rfl⟩
    · exact le_max_left 1 _
    · simp only
      omega

end Snap

/-- Neither sum of a span reaches the end of its word. -/
def NoWrap (a : Span) : Prop :=
  a.startU.toNat + a.heightU.toNat < 2 ^ 32 ∧ a.xStart.toNat + a.xQuarters.toNat ≤ 4

def wholeSpan (a : Span) : PlaceSpan :=
  { startU := a.startU.toNat, heightU := a.heightU.toNat
    xStart := a.xStart.toNat, xQuarters := a.xQuarters.toNat }

lemma rackItemsCollide_eq {a b : Span} (ha : NoWrap a) (hb : NoWrap b) :
    rackItemsCollide (wholeSpan a) (wholeSpan b) = spansOverlap a b := by
  obtain ⟨a_end, a_wide⟩ := ha
  obtain ⟨b_end, b_wide⟩ := hb
  rw [Bool.eq_iff_iff]
  simp only [rackItemsCollide, spansOverlap, Span.endExclusive, Bool.and_eq_true,
    decide_eq_true_eq, lt_iff_toNat_lt, UInt32.toNat_add]
  simp only [wholeSpan]
  omega

lemma itemSpan_eq (item : RackItem) : itemSpan item = wholeSpan item.span := by
  simp [itemSpan, wholeSpan, RackItem.span, rackItemXSpan_eq]

lemma isRackTopItem_iff {h : UInt32} {item : RackItem} :
    isRackTopItem item h.toNat = true ↔ OnTop h item := by
  simp only [isRackTopItem, OnTop, decide_eq_true_eq]
  refine and_congr_right (fun _ => ?_)
  omega

section Answers
variable {s : Store} {rack : Rack} {draft : Draft} {snap : RackPlacementSnap}

lemma newSpan_start (small : snap.startU ≤ 101) (low : 0 ≤ snap.startU) :
    ((newSpan snap draft.heightU draft.widthFraction).startU.toNat : ℤ) = snap.startU := by
  have small' : snap.startU.toNat < 2 ^ 32 := by omega
  simp only [newSpan, toNat_ofNat']
  rw [Nat.mod_eq_of_lt small']
  omega

/-- The span of a new device is the one that the preview tests. -/
lemma wholeSpan_newSpan (small : snap.startU ≤ 101) (low : 0 ≤ snap.startU)
    (slot_low : 0 ≤ snap.slot)
    (slot_high : snap.slot < 4 / widthFractionQuarters draft.widthFraction) :
    wholeSpan (newSpan snap draft.heightU draft.widthFraction) =
      { startU := snap.startU, heightU := draft.heightU.toNat
        xStart := snap.slot * widthFractionQuarters draft.widthFraction
        xQuarters := widthFractionQuarters draft.widthFraction } := by
  have strip := strip_of_slot slot_low slot_high
  rw [rackItemXSpan_eq] at strip
  obtain ⟨start, quarters⟩ := Prod.mk.inj strip
  simp only [wholeSpan, newSpan_start small low, PlaceSpan.mk.injEq, true_and]
  exact ⟨rfl, start, quarters⟩

lemma mem_existingSpans {rackId : Id} {face : RackMountFace} {h : UInt32} {entry : Id × Span} :
    entry ∈ s.existingSpans rackId face h ↔
      ∃ i ∈ s.listItemsForRack rackId, (i.mountFace = face ∨ i.startU = h + 1) ∧
        (i.id, i.span) = entry := by
  simp [Store.existingSpans, and_assoc]

section Valid
variable (valid : s.Valid) (stored : rack ∈ s.racks)
include valid stored

/-- A listed device is in the cabinet unless it stands on top. -/
lemma listed_inCabinet {i : RackItem} (member : i ∈ s.listItemsForRack rack.id)
    (below : isRackTopItem i rack.heightU.toNat = false) : InCabinet rack.heightU i := by
  have off_top : ¬ OnTop rack.heightU i := by
    rw [← isRackTopItem_iff, below]
    simp
  have either := (valid.layouts rack stored).placed i (valid.mem_listItemsForRack.mp member)
  exact either.resolve_right off_top

lemma listed_start {i : RackItem} (member : i ∈ s.listItemsForRack rack.id) :
    i.startU = rack.heightU + 1 ↔ isRackTopItem i rack.heightU.toNat = true := by
  have small := valid.heights rack stored
  rw [isRackTopItem_iff, ← onTopOf_iff small, RackItem.onTopOf]
  constructor
  · intro start
    rw [← UInt32.toNat_inj, succ_toNat small] at start
    by_contra off_top
    have below : isRackTopItem i rack.heightU.toNat = false := by
      rw [Bool.eq_false_iff, ne_eq, isRackTopItem_iff, OnTop]
      rintro ⟨kind, -⟩
      rw [← UInt32.toNat_inj, succ_toNat small] at off_top
      exact off_top ⟨kind, start⟩
    obtain ⟨-, tall, fits⟩ := listed_inCabinet valid stored member below
    omega
  · exact And.right

/-- The storage takes a device off the top if it is not too tall and nothing is in the way. -/
lemma accepts_inside (height : 1 ≤ rack.heightU.toNat) (tall : 1 ≤ draft.heightU.toNat)
    (low : 1 ≤ snap.startU)
    (high : snap.startU ≤
      max 1 (rack.heightU.toNat - max 1 (min (draft.heightU.toNat : ℤ) rack.heightU.toNat) + 1))
    (slot_low : 0 ≤ snap.slot)
    (slot_high : snap.slot < 4 / widthFractionQuarters draft.widthFraction) :
    Accepts s rack draft snap ↔
      draft.heightU.toNat ≤ rack.heightU.toNat ∧
        ∀ i ∈ s.listItemsForRack rack.id, i.mountFace = draft.face →
          isRackTopItem i rack.heightU.toNat = false →
          rackItemsCollide (placed rack.heightU.toNat draft.heightU.toNat draft.widthFraction
            snap.startU snap.slot) (itemSpan i) = false := by
  have small := valid.heights rack stored
  have start : ((newSpan snap draft.heightU draft.widthFraction).startU.toNat : ℤ) =
      snap.startU := newSpan_start (by omega) (by omega)
  have off_top : (newSpan snap draft.heightU draft.widthFraction).startU ≠ rack.heightU + 1 := by
    rw [ne_eq, ← UInt32.toNat_inj, succ_toNat small]
    omega
  have whole : wholeSpan (newSpan snap draft.heightU draft.widthFraction) = _ :=
    wholeSpan_newSpan (by omega) (by omega) slot_low slot_high
  have new_wide := metadataXSpan_le ⟨draft.widthFraction, some (ofNat snap.slot.toNat)⟩
  have new_height : (newSpan snap draft.heightU draft.widthFraction).heightU = draft.heightU := rfl
  change (newSpan snap draft.heightU draft.widthFraction).xStart.toNat +
    (newSpan snap draft.heightU draft.widthFraction).xQuarters.toNat ≤ 4 at new_wide
  rw [Accepts, validateItemPlacement, if_pos off_top, validatePlacement_eq_ok, new_height]
  generalize newSpan snap draft.heightU draft.widthFraction = new at *
  -- a device that is too tall starts at the bottom, and its top does not wrap around
  have fits : (new.startU + draft.heightU - 1).toNat ≤ rack.heightU.toNat ↔
      draft.heightU.toNat ≤ rack.heightU.toNat := by
    rw [UInt32.toNat_sub, UInt32.toNat_add]
    simp only [reduceToNat]
    have bound := draft.heightU.toNat_lt
    omega
  have same : draft.heightU.toNat ≤ rack.heightU.toNat → ∀ i ∈ s.listItemsForRack rack.id,
      isRackTopItem i rack.heightU.toNat = false →
      rackItemsCollide (placed rack.heightU.toNat draft.heightU.toNat draft.widthFraction
        snap.startU snap.slot) (itemSpan i) = spansOverlap new i.span := by
    intro fits i member below
    have inside := listed_inCabinet valid stored member below
    have span : placed rack.heightU.toNat draft.heightU.toNat draft.widthFraction snap.startU
        snap.slot = wholeSpan new := by
      rw [whole, placed]
      simp only [PlaceSpan.mk.injEq, true_and, and_true]
      omega
    have new_end : new.startU.toNat + new.heightU.toNat < 2 ^ 32 := by
      rw [new_height]
      omega
    rw [span, itemSpan_eq]
    exact rackItemsCollide_eq ⟨new_end, new_wide⟩ ⟨inside.span_end small, i.span_wide⟩
  rw [fits]
  constructor
  · rintro ⟨-, -, fits, free⟩
    refine ⟨fits, fun i member face below => ?_⟩
    rw [same fits i member below]
    have listed : (i.id, i.span) ∈ s.existingSpans rack.id draft.face rack.heightU :=
      mem_existingSpans.mpr ⟨i, member, .inl face, rfl⟩
    exact free (i.id, i.span) listed (by simp)
  · rintro ⟨fits, free⟩
    refine ⟨by omega, tall, fits, fun entry listed _ => ?_⟩
    obtain ⟨i, member, near, rfl⟩ := mem_existingSpans.mp listed
    cases top : isRackTopItem i rack.heightU.toNat
    · have off : i.startU ≠ rack.heightU + 1 := by
        rw [ne_eq, listed_start valid stored member, top]
        simp
      rw [← same fits i member top]
      exact free i member (near.resolve_right off) top
    · -- the package on top starts above the new device
      have start_i := (listed_start valid stored member).mpr top
      rw [← UInt32.toNat_inj, succ_toNat small] at start_i
      have above : ¬ i.startU < new.endExclusive := by
        rw [lt_iff_toNat_lt, Span.endExclusive, new_height, UInt32.toNat_add]
        omega
      simp [spansOverlap, RackItem.span, above]

lemma accepts_top (tall : 1 ≤ draft.heightU.toNat) (kind : draft.kind = .kuaiguai)
    (start : snap.startU = rack.heightU.toNat + 1) :
    Accepts s rack draft snap ↔
      ∀ i ∈ s.listItemsForRack rack.id, isRackTopItem i rack.heightU.toNat = false := by
  have small := valid.heights rack stored
  have start' : (newSpan snap draft.heightU draft.widthFraction).startU = rack.heightU + 1 := by
    have word : ((newSpan snap draft.heightU draft.widthFraction).startU.toNat : ℤ) =
        snap.startU := newSpan_start (by omega) (by omega)
    rw [← UInt32.toNat_inj, succ_toNat small]
    omega
  have height : ¬ (newSpan snap draft.heightU draft.widthFraction).heightU < 1 :=
    one_le_toNat.mpr tall
  rw [Accepts, validateItemPlacement, if_neg (not_not.mpr start'), reject_bind_ok,
    reject_bind_ok, reject_eq_ok]
  constructor
  · rintro ⟨-, -, alone⟩ i member
    by_contra top
    rw [Bool.not_eq_false] at top
    have start_i := (listed_start valid stored member).mpr top
    exact alone ⟨_, mem_existingSpans.mpr ⟨i, member, .inr start_i, rfl⟩, by simp, start_i⟩
  · intro alone
    refine ⟨not_not.mpr kind, height, ?_⟩
    rintro ⟨entry, listed, -, start_i⟩
    obtain ⟨i, member, -, rfl⟩ := mem_existingSpans.mp listed
    have top := (listed_start valid stored member).mp start_i
    rw [alone i member] at top
    cases top

end Valid

end Answers

/-- A list for the preview: of the cabinet it has the devices of the face. -/
structure Shows (rackHeightU : ℤ) (face : RackMountFace) (listed items : List RackItem) :
    Prop where
  sub : ∀ i ∈ items, i ∈ listed
  cabinet : ∀ i ∈ listed, isRackTopItem i rackHeightU = false → (i ∈ items ↔ i.mountFace = face)

variable (rackHeightU : ℤ) (face : RackMountFace) (listed : List RackItem) (num : Numbers)
  {slot : ℤ}

lemma shows_shownItems : Shows rackHeightU face listed (shownItems rackHeightU face listed) where
  sub i member := mem_of_mem_filter member
  cabinet i member below := by simp [shownItems, member, below]

lemma shows_faceItems : Shows rackHeightU face listed (faceItems face listed) where
  sub i member := mem_of_mem_filter member
  cabinet i member _ := by simp [faceItems, member]

lemma taken_eq_false {rackHeightU : ℤ} {face : RackMountFace} {listed items : List RackItem}
    (shows_ : Shows rackHeightU face listed items) {span : PlaceSpan} :
    taken rackHeightU items span = false ↔
      ∀ i ∈ listed, i.mountFace = face → isRackTopItem i rackHeightU = false →
        rackItemsCollide span (itemSpan i) = false := by
  simp only [taken, any_eq_false, Bool.and_eq_true, not_and, Bool.not_eq_true, Bool.not_eq_true']
  constructor
  · intro free i member face below
    exact free i (((shows_.cabinet i member below).mpr face)) below
  · intro free i member below
    have listed_i := shows_.sub i member
    exact free i listed_i ((shows_.cabinet i listed_i below).mp member) below

/-- No slot of the draft's width is free from the bottom of the cabinet to its top. -/
def NoFreeSlot (s : Store) (rack : Rack) (draft : Draft) : Prop :=
  ∀ slot : ℤ, 0 ≤ slot → slot < 4 / widthFractionQuarters draft.widthFraction →
    ∃ i ∈ s.listItemsForRack rack.id, i.mountFace = draft.face ∧
      isRackTopItem i rack.heightU.toNat = false ∧
      slot * widthFractionQuarters draft.widthFraction <
        (rackItemXSpan i.metadata).1 + (rackItemXSpan i.metadata).2 ∧
      (rackItemXSpan i.metadata).1 <
        slot * widthFractionQuarters draft.widthFraction +
          widthFractionQuarters draft.widthFraction

def plainBay : ClientRectLike :=
  { left := 0, right := 4, top := 0, bottom := 100, width := 4, height := 100 }

/-- The middle part of the slot computation, at the left edge of a slot. -/
lemma relative_slot {q slots : ℤ} (narrow : 0 < q) (product : q * slots = 4) (low : 0 ≤ slot)
    (high : slot < slots) :
    num.round (max 0 (min (num.round (999 / 1000)) (num.round
      (num.round (((slot * q : ℤ) : ℚ) - 0) / max 1 4))) * slots) = slot := by
  have quarters : slot * q ≤ 3 := by nlinarith
  have quarters' : 0 ≤ slot * q := by positivity
  have upper : ((slot * q : ℤ) : ℚ) ≤ 3 := by exact_mod_cast quarters
  have lower : (0 : ℚ) ≤ ((slot * q : ℤ) : ℚ) := by exact_mod_cast quarters'
  have whole : (q : ℚ) * slots = 4 := by exact_mod_cast product
  have offset : num.round (((slot * q : ℤ) : ℚ) - 0) = ((slot * q : ℤ) : ℚ) := by
    rw [sub_zero]
    exact num.round_int (by omega)
  have share : num.round (((slot * q : ℤ) : ℚ) / max 1 4) = ((slot * q : ℤ) : ℚ) / 4 := by
    have exact := num.exact (slot * q) 2 (by omega) (by omega)
    norm_num at exact ⊢
    exact exact
  have bound : (3 / 4 : ℚ) ≤ num.round (999 / 1000) := by
    have exact := num.exact 3 2 (by omega) (by omega)
    have mono := num.mono (show (3 / 4 : ℚ) ≤ 999 / 1000 by norm_num)
    norm_num at exact
    rwa [exact] at mono
  have product' : ((slot * q : ℤ) : ℚ) / 4 * slots = slot := by
    calc ((slot * q : ℤ) : ℚ) / 4 * slots = slot * (q * slots) / 4 := by
          push_cast
          ring
      _ = slot := by
          rw [whole]
          ring
  have small : slot.natAbs ≤ 2 ^ 53 := by
    have : slot * 1 ≤ slot * q := by nlinarith
    omega
  rw [offset, share, min_eq_right (by linarith), max_eq_right (by linarith), product',
    num.round_int small]

lemma snapPlacementSlot_plainBay {widthFraction : Option (List Char)} (low : 0 ≤ slot)
    (high : slot < 4 / widthFractionQuarters widthFraction) :
    snapPlacementSlot num (slot * widthFractionQuarters widthFraction : ℤ) plainBay
      widthFraction = slot := by
  simp only [snapPlacementSlot, plainBay]
  rcases quarters_cases widthFraction with ⟨_, q⟩ | ⟨_, _, q⟩ | ⟨_, _, q⟩
  · rw [q] at high ⊢
    rw [if_neg (by decide), relative_slot num (by decide) (by decide) low high, Int.floor_intCast]
    omega
  · rw [q] at high ⊢
    rw [if_neg (by decide), relative_slot num (by decide) (by decide) low high, Int.floor_intCast]
    omega
  · rw [q] at high ⊢
    rw [if_pos (by decide)]
    omega

section PlainBay
variable (num : Numbers) {rackHeightU : ℤ} (placeHeightU : ℤ)
variable (widthFraction : Option (List Char)) (items : List RackItem)

/-- A device that is too tall is held at the bottom, at any slot. -/
lemma inside_snap (allowTop : Bool) (height : 1 ≤ rackHeightU)
    (tall : rackHeightU < placeHeightU) {slot : ℤ} (low : 0 ≤ slot)
    (high : slot < 4 / widthFractionQuarters widthFraction) :
    snapRackPlacement num (slot * widthFractionQuarters widthFraction : ℤ) 50 plainBay rackHeightU
        placeHeightU widthFraction items allowTop magneticDistance =
      some { startU := 1
             blocked := taken rackHeightU items
               (placed rackHeightU placeHeightU widthFraction 1 slot)
             zone := .inside, slot } := by
  have left : (0 : ℚ) ≤ (slot * widthFractionQuarters widthFraction : ℤ) ∧
      ((slot * widthFractionQuarters widthFraction : ℤ) : ℚ) ≤ 4 := by
    have bounds : 0 ≤ slot * widthFractionQuarters widthFraction ∧
        slot * widthFractionQuarters widthFraction ≤ 4 := by
      rcases quarters_cases widthFraction with ⟨_, q⟩ | ⟨_, _, q⟩ | ⟨_, _, q⟩ <;>
        rw [q] at high ⊢ <;> omega
    exact ⟨by exact_mod_cast bounds.1, by exact_mod_cast bounds.2⟩
  have near : distanceToRect num (slot * widthFractionQuarters widthFraction : ℤ) 50 plainBay =
      0 := by
    have dx : horizontalDistance num (slot * widthFractionQuarters widthFraction : ℤ) plainBay =
        0 := by
      simp only [horizontalDistance, plainBay, gt_iff_lt]
      rw [if_neg (not_lt.mpr left.1), if_neg (not_lt.mpr left.2)]
    have dy : (if (50 : ℚ) < plainBay.top then num.round (plainBay.top - 50)
        else if 50 > plainBay.bottom then num.round (50 - plainBay.bottom) else 0) = 0 := by
      norm_num [plainBay]
    simp only [distanceToRect, dx, dy, num.hypot_zero]
  have bottom : ∀ hoveredU : ℤ, max 1 (min hoveredU
      (rackHeightU - max 1 (min placeHeightU rackHeightU) + 1)) = 1 := by
    intro hoveredU
    omega
  have below_top : ¬ (50 : ℚ) < plainBay.top := by norm_num [plainBay]
  simp only [snapRackPlacement, near, below_top, bottom, snapPlacementSlot_plainBay num low high]
  rw [if_neg (by simp), if_neg (by norm_num [magneticDistance])]
  rfl

lemma top_snap (height : 1 ≤ rackHeightU) :
    snapRackPlacement num 0 (-1) plainBay rackHeightU placeHeightU widthFraction items true
        magneticDistance =
      some { startU := rackHeightU + 1, blocked := items.any (isRackTopItem · rackHeightU)
             zone := .top, slot := 0 } := by
  have near : horizontalDistance num 0 plainBay ≤ magneticDistance := by
    norm_num [horizontalDistance, plainBay, magneticDistance]
  have row : 0 ≤ num.round (plainBay.height / (max 1 rackHeightU : ℤ)) := by
    have positive : 0 ≤ max 1 rackHeightU := by omega
    have rows : (0 : ℚ) ≤ (max 1 rackHeightU : ℤ) := Int.cast_nonneg positive
    exact num.round_nonneg (div_nonneg (by norm_num [plainBay]) rows)
  have reach : num.round (num.round (plainBay.top - num.round
      ((max 1 (min placeHeightU rackHeightU) : ℤ) *
        num.round (plainBay.height / (max 1 rackHeightU : ℤ)))) - magneticDistance) ≤ -1 := by
    have positive : 0 ≤ max 1 (min placeHeightU rackHeightU) := by omega
    have tall : (0 : ℚ) ≤ (max 1 (min placeHeightU rackHeightU) : ℤ) := Int.cast_nonneg positive
    have package := num.round_nonneg (mul_nonneg tall row)
    have above := num.round_nonpos (sub_nonpos.mpr package)
    have distance : num.round (-68) = -68 := by
      have exact : num.round ((-68 : ℤ) : ℚ) = _ := num.round_int (by simp)
      simpa using exact
    have approach := num.mono (show _ ≤ (-68 : ℚ) from
      (sub_le_sub_right above magneticDistance).trans (by norm_num [magneticDistance]))
    exact approach.trans (by rw [distance]; norm_num)
  simp only [snapRackPlacement]
  rw [if_pos ⟨trivial, by norm_num [plainBay], reach, near⟩]

end PlainBay

section Agreement
variable (num : Numbers) {s : Store} (valid : s.Valid) {rack : Rack} (stored : rack ∈ s.racks)
variable {draft : Draft} {items : List RackItem}

lemma not_collide_of_strips {a b : PlaceSpan}
    (apart : ¬ (a.xStart < b.xStart + b.xQuarters ∧ b.xStart < a.xStart + a.xQuarters)) :
    rackItemsCollide a b = false := by
  rw [Bool.eq_false_iff]
  simp only [rackItemsCollide, ne_eq, Bool.and_eq_true, decide_eq_true_eq]
  omega

include valid stored

/-- A slot that is free from bottom to top shows a device that is too tall as free. -/
lemma noFreeSlot_of_agree (height : 1 ≤ rack.heightU.toNat) (tall : 1 ≤ draft.heightU.toNat)
    (shows_ : Shows rack.heightU.toNat draft.face (s.listItemsForRack rack.id) items)
    (agree : Agree num s rack draft items) (large : rack.heightU.toNat < draft.heightU.toNat) :
    NoFreeSlot s rack draft := by
  intro slot low high
  by_contra free
  have snapped := inside_snap num draft.heightU.toNat draft.widthFraction items
    (draft.kind = .kuaiguai)
    (by omega : (1 : ℤ) ≤ rack.heightU.toNat)
    (by omega : (rack.heightU.toNat : ℤ) < draft.heightU.toNat) low high
  have open_ : taken rack.heightU.toNat items (placed rack.heightU.toNat draft.heightU.toNat
      draft.widthFraction 1 slot) = false := by
    rw [taken_eq_false shows_]
    intro i member face below
    apply not_collide_of_strips
    intro meet
    exact free ⟨i, member, face, below, meet⟩
  have answer := (agree _ _ plainBay _ _ (by norm_num [plainBay]) (by norm_num [plainBay])
    snapped).1 open_
  rw [accepts_inside valid stored height tall (le_refl 1) (le_max_left 1 _) low high] at answer
  omega

/-- The preview that shows a list agrees with the storage exactly where this holds. -/
lemma agree_iff (height : 1 ≤ rack.heightU.toNat) (tall : 1 ≤ draft.heightU.toNat)
    (shows_ : Shows rack.heightU.toNat draft.face (s.listItemsForRack rack.id) items) :
    Agree num s rack draft items ↔
      (draft.heightU.toNat ≤ rack.heightU.toNat ∨ NoFreeSlot s rack draft) ∧
        (draft.kind = .kuaiguai →
          (∃ i ∈ s.listItemsForRack rack.id, isRackTopItem i rack.heightU.toNat = true) →
            ∃ i ∈ items, isRackTopItem i rack.heightU.toNat = true) := by
  constructor
  · intro agree
    constructor
    · by_contra neither
      rw [not_or] at neither
      exact neither.2 (noFreeSlot_of_agree num valid stored height tall shows_ agree (by omega))
    · rintro kind ⟨i, member, top⟩
      by_contra bare
      have snapped := top_snap num draft.heightU.toNat draft.widthFraction items
        (by omega : (1 : ℤ) ≤ rack.heightU.toNat)
      have open_ : items.any (isRackTopItem · rack.heightU.toNat) = false := by
        rw [any_eq_false]
        exact fun j shown top_j => bare ⟨j, shown, top_j⟩
      have answer := (agree _ _ plainBay _ _ (by norm_num [plainBay]) (by norm_num [plainBay])
        (by simpa only [kind, decide_true] using snapped)).1 open_
      rw [accepts_top valid stored tall kind rfl] at answer
      rw [answer i member] at top
      cases top
  · rintro ⟨room, onTop⟩ x y bayRect snapDistance snap - - found
    rcases snap_cases found with ⟨allowed, zone, start, blocked⟩ |
      ⟨_, low, high, slot_low, slot_high, blocked⟩
    · have kind : draft.kind = .kuaiguai := of_decide_eq_true allowed
      refine ⟨fun open_ => ?_, fun _ inside => by rw [zone] at inside; cases inside⟩
      rw [accepts_top valid stored tall kind start]
      intro i member
      by_contra top
      rw [Bool.not_eq_false] at top
      obtain ⟨j, shown, top_j⟩ := onTop kind ⟨i, member, top⟩
      rw [blocked, any_eq_false] at open_
      exact open_ j shown top_j
    · have answer := accepts_inside valid stored height tall low high slot_low slot_high
      rw [← taken_eq_false shows_, ← blocked] at answer
      refine ⟨fun open_ => answer.mpr ⟨?_, open_⟩, fun closed _ accepted => ?_⟩
      · rcases room with fits | full
        · exact fits
        · by_contra large
          obtain ⟨i, member, face, below, meet⟩ := full snap.slot slot_low slot_high
          have inside := listed_inCabinet valid stored member below
          rw [blocked, taken_eq_false shows_] at open_
          have apart := open_ i member face below
          rw [Bool.eq_false_iff] at apart
          apply apart
          obtain ⟨start_i, tall_i, fits_i⟩ := inside
          simp only [rackItemsCollide, Bool.and_eq_true, decide_eq_true_eq]
          simp only [placed, itemSpan]
          omega
      · rw [(answer.mp accepted).2] at closed
        cases closed

lemma only_top {i j : RackItem} (hi : i ∈ s.listItemsForRack rack.id)
    (hj : j ∈ s.listItemsForRack rack.id) (top_i : OnTop rack.heightU i)
    (top_j : OnTop rack.heightU j) : i = j := by
  have hi' := valid.mem_listItemsForRack.mp hi
  have hj' := valid.mem_listItemsForRack.mp hj
  by_contra differ
  have ids : i.id ≠ j.id := fun same => differ (inj_on_of_nodup_map valid.itemIds
    (mem_of_mem_filter hi') (mem_of_mem_filter hj') same)
  exact ((valid.layouts rack stored).compatible i hi' j hj' ids).1 ⟨top_i, top_j⟩

/-- Over the list that the elevation passes, preview and storage agree for the devices that
fit, and over the devices of the face alone also no package may stand on the other face. -/
theorem preview_agrees (height : validateHeight rack.heightU = .ok rack.heightU)
    (tall : 1 ≤ draft.heightU.toNat) :
    (Agree num s rack draft
        (shownItems rack.heightU.toNat draft.face (s.listItemsForRack rack.id)) ↔
      draft.heightU.toNat ≤ rack.heightU.toNat ∨ NoFreeSlot s rack draft) ∧
    (Agree num s rack draft (faceItems draft.face (s.listItemsForRack rack.id)) ↔
      (draft.heightU.toNat ≤ rack.heightU.toNat ∨ NoFreeSlot s rack draft) ∧
        (draft.kind = .kuaiguai → ∀ i ∈ s.listItemsForRack rack.id,
          OnTop rack.heightU i → i.mountFace = draft.face)) := by
  have height' : 1 ≤ rack.heightU.toNat := by
    rw [validateHeight, reject_bind_ok, not_or, one_le_toNat] at height
    exact height.1.1
  constructor
  · rw [agree_iff num valid stored height' tall (shows_shownItems _ _ _), and_iff_left]
    rintro - ⟨i, member, top⟩
    exact ⟨i, mem_filter.mpr ⟨member, by simp [top]⟩, top⟩
  · rw [agree_iff num valid stored height' tall (shows_faceItems _ _ _)]
    refine and_congr_right (fun _ => imp_congr_right (fun _ => ?_))
    constructor
    · intro both i member top
      obtain ⟨j, shown, top_j⟩ := both ⟨i, member, isRackTopItem_iff.mpr top⟩
      obtain ⟨member_j, face⟩ := mem_filter.mp shown
      rw [only_top valid stored member member_j top (isRackTopItem_iff.mp top_j)]
      exact of_decide_eq_true face
    · rintro same ⟨i, member, top⟩
      have face := same i member (isRackTopItem_iff.mp top)
      exact ⟨i, mem_filter.mpr ⟨member, by simp [face]⟩, top⟩

end Agreement

/-- Exact sums, and a square root cut off after twenty binary places. -/
def plainNumbers : Numbers :=
  { Rounding.none with
    hypot := fun dx dy => (Nat.sqrt ⌊(dx ^ 2 + dy ^ 2) * 4 ^ 20⌋₊ : ℚ) / 2 ^ 20
    hypot_zero := by simp }

def smallRack : Rack :=
  { id := ['r'], siteId := ['s'], name := ['A'], serverRoom := ['A'], rackGroup := [], shell := none
    heightU := 2, depthMm := 1000, powerCapacityW := none, gridX := none, gridY := none
    facing := none, sortOrder := 0 }

def rearServer : RackItem :=
  { id := ['i'], rackId := ['r'], connectionId := none, kind := .server, label := [], startU := 1
    heightU := 1, mountFace := .rear, metadata := ⟨none, none⟩ }

def smallStore : Store :=
  { sites := [['s']], rooms := [], racks := [smallRack], items := [rearServer] }

lemma smallStore_valid : smallStore.Valid where
  rackIds := by decide
  itemIds := by decide
  homes := by decide
  stable := by
    intro i member
    cases mem_singleton.mp member
    simp only [Stable]
    decide
  heights := by decide
  layouts := by
    intro rack stored
    cases mem_singleton.mp stored
    constructor
    · decide
    · intro i hi j hj differ
      cases mem_singleton.mp hi
      cases mem_singleton.mp hj
      exact absurd rfl differ

/-- A server in front that is as tall as the cabinet. -/
def fullServer : Draft :=
  { kind := .server, heightU := 2, widthFraction := none, face := .front }

theorem full_server_agrees :
    Agree plainNumbers smallStore smallRack fullServer
        (shownItems 2 .front (smallStore.listItemsForRack ['r'])) ∧
      Agree plainNumbers smallStore smallRack fullServer
        (faceItems .front (smallStore.listItemsForRack ['r'])) := by
  have height : validateHeight smallRack.heightU = .ok smallRack.heightU := rfl
  have tall : 1 ≤ fullServer.heightU.toNat := by decide
  have both := preview_agrees plainNumbers smallStore_valid (mem_singleton_self smallRack)
    height tall
  constructor
  · exact both.1.mpr (.inl (by decide))
  · refine both.2.mpr ⟨.inl (by decide), fun kind => ?_⟩
    cases kind

/-- A server of three units is shown as free in a cabinet of two, where it does not fit. -/
theorem tall_server_shown_free :
    smallStore.Valid ∧
    snapRackPlacement plainNumbers 2 50 plainBay 2 3 none
        (faceItems .front (smallStore.listItemsForRack ['r'])) false magneticDistance =
      some { startU := 1, blocked := false, zone := .inside, slot := 0 } ∧
    ¬ Accepts smallStore smallRack { fullServer with heightU := 3 }
      { startU := 1, blocked := false, zone := .inside, slot := 0 } := by
  have front : faceItems .front (smallStore.listItemsForRack ['r']) = [] := by
    simp [faceItems, Store.listItemsForRack, smallStore, rearServer, Store.rowToItem]
  refine ⟨smallStore_valid, ?_, ?_⟩
  · rw [front]
    decide +kernel
  · rw [accepts_inside smallStore_valid (mem_singleton_self smallRack) (by decide) (by decide)
      (by decide) (by decide) (by decide) (by decide)]
    rintro ⟨fits, -⟩
    exact absurd fits (by decide)

end ItOps.Preview
