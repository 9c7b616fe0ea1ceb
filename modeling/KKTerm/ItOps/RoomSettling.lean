import KKTerm.ItOps.RoomObjects

/-!
# Settled rooms

What is in the way of an object is told apart object by object, so that settling is a run of
rules about single pairs. Objects that find a level keep apart. Settling again changes no
object of a cell in which every object found a level.
-/

namespace ItOps.Room

open Settling List

variable {n m : Int} {a b : RoomObject}

lemma number_of_nonneg (low : 0 ≤ n) : number n = Installer.roundToEven n.toNat := by
  obtain ⟨m, rfl⟩ := Int.eq_ofNat_of_zero_le low
  rw [number, Int.natAbs_natCast, Int.toNat_natCast]
  cases m with
  | zero => rfl
  | succ m => simp

lemma number_mono (low : 0 ≤ m) (le : m ≤ n) : number m ≤ number n := by
  rw [number_of_nonneg low, number_of_nonneg (low.trans le)]
  exact Int.ofNat_le.mpr (Installer.roundToEven_mono (Int.toNat_le_toNat le))

/-- Between a number and its successor there is no other number. -/
lemma eq_of_lt_succ (low : 0 ≤ n) (is_number : number m = m) (le : n ≤ m)
    (less : m < number (n + 1)) : m = n := by
  by_contra other
  have next : number (n + 1) ≤ number m := number_mono (by omega) (by omega)
  omega

lemma number_max (n : Int) : number (max 0 (number n)) = max 0 (number n) := by
  rcases lt_or_ge n 0 with negative | low
  · have below_ : number n ≤ 0 := by
      rw [number, Int.sign_eq_neg_one_of_neg negative]
      omega
    rw [max_eq_left below_]
    rfl
  · rw [number_of_nonneg low, max_eq_right (Int.natCast_nonneg _),
      number_of_nonneg (Int.natCast_nonneg _), Int.toNat_natCast, Installer.roundToEven_round]

/-- The coordinates are numbers that are not negative. -/
structure Sanitized (object : RoomObject) : Prop where
  x : 0 ≤ object.x ∧ number object.x = object.x
  y : 0 ≤ object.y ∧ number object.y = object.y

lemma sanitized_of_read {raw : List (Option RawObject)} {object : RoomObject}
    (member : object ∈ sanitizeRoomObjects raw) : Sanitized object := by
  obtain ⟨entry, -, read⟩ := mem_filterMap.mp member
  obtain ⟨payload, -, read⟩ := Option.bind_eq_some_iff.mp read
  rw [sanitizeRoomObject] at read
  split at read
  · obtain ⟨kind, -, rfl⟩ := Option.map_eq_some_iff.mp read
    exact ⟨⟨le_max_left _ _, number_max _⟩, ⟨le_max_left _ _, number_max _⟩⟩
  · cases read

/-- The two stand in one cell, where counting goes on. -/
def Shares (a b : RoomObject) : Prop :=
  a.cell = b.cell ∧ a.x < number (a.x + 1) ∧ a.y < number (a.y + 1)

lemma Shares.symm (shares : Shares a b) : Shares b a := by
  obtain ⟨same, right, bottom⟩ := shares
  have columns : a.x = b.x := congrArg IsoCell.x same
  have lines : a.y = b.y := congrArg IsoCell.y same
  exact ⟨same.symm, columns ▸ right, lines ▸ bottom⟩

lemma objectCoversCell_iff (sanitized : Sanitized a) (sanitized' : Sanitized b) :
    objectCoversCell b a.cell = true ↔ Shares a b := by
  rw [objectCoversCell, objectCellSpan_eq, decide_eq_true_eq]
  constructor
  · rintro ⟨left, right, top, bottom⟩
    have columns := eq_of_lt_succ sanitized'.x.1 sanitized.x.2 left right
    have lines := eq_of_lt_succ sanitized'.y.1 sanitized.y.2 top bottom
    simp only [RoomObject.cell] at columns lines right bottom
    refine ⟨?_, ?_, ?_⟩
    · rw [RoomObject.cell, RoomObject.cell, columns, lines]
    · rw [columns] at right ⊢
      exact right
    · rw [lines] at bottom ⊢
      exact bottom
  · rintro ⟨same, right, bottom⟩
    have columns : a.x = b.x := congrArg IsoCell.x same
    have lines : a.y = b.y := congrArg IsoCell.y same
    rw [columns] at right
    rw [lines] at bottom
    simp only [RoomObject.cell, columns, lines]
    exact ⟨le_rfl, right, le_rfl, bottom⟩

def footprint (object : RoomObject) : CellRect :=
  objectFootprint object.kind object.rot object.corner

lemma rectsOverlap_symm {a b : CellRect} (over_ : rectsOverlap a b = true) :
    rectsOverlap b a = true := by
  rw [rectsOverlap, decide_eq_true_eq] at over_ ⊢
  obtain ⟨first, second, third, fourth⟩ := over_
  exact ⟨second, first, fourth, third⟩

/-- The levels at which the cabinets leave room for an object. -/
structure Stands (room : Cabinets) (object : RoomObject) (z : Int) : Prop where
  floor : 0 ≤ z
  ceiling : z + (objectSpec object.kind).heightU ≤ roomCeilingU
  racks : ∀ rack ∈ room.racks, room.rackCells rack.id = some object.cell →
    object.kind ≠ .wall ∧ (rectsOverlap (footprint object) (rackRect room rack) = true →
      z + (objectSpec object.kind).heightU ≤ 0 ∨ (rackSpan rack).z1 ≤ z)

def Rests (kind : RoomObjectKind) : Prop :=
  ∀ z, (objectSpec kind).defaultZ ≠ .level z

def rules (room : Cabinets) : Rules RoomObject where
  height object := (objectSpec object.kind).heightU
  stands := Stands room
  bars a b := Shares a b ∧ (a.kind = .wall ∨ b.kind = .wall)
  overlaps a b := Shares a b ∧ rectsOverlap (footprint a) (footprint b) = true
  rests object := Rests object.kind
  height_pos object := heightU_pos object.kind
  bars_symm _ _ barred := ⟨barred.1.symm, barred.2.symm⟩
  overlaps_symm _ _ over_ := ⟨over_.1.symm, rectsOverlap_symm over_.2⟩

def RoomObject.body (object : RoomObject) : RoomObject :=
  { object with z := 0 }

def RoomObject.place (object : RoomObject) : RoomObject × Int :=
  (object.body, object.z)

section Pairs
variable {room : Cabinets} {settled : List RoomObject} {object : RoomObject} {z : Int}

lemma footprintSpans_eq (sanitized : Sanitized object) (room : Cabinets)
    (settled : List RoomObject) :
    footprintSpans object.cell object.kind object.rot room settled object.id object.corner =
      if wholeCellReserved object.cell object.kind room settled object.id then [⟨0, roomCeilingU⟩]
      else cellSpans object.cell room settled object.id (footprint object) := by
  have target : (⟨number (object.cell.x + 0), number (object.cell.y + 0)⟩ : IsoCell) =
      object.cell := by
    simp only [Int.add_zero, RoomObject.cell, sanitized.x.2, sanitized.y.2]
  have whole : range (1 : Int).toNat = [0] := rfl
  rw [footprintSpans, objectCellSpan_eq]
  simp only [whole, flatMap_cons, flatMap_nil, append_nil, target, footprint,
    Nat.cast_zero, sub_zero]

lemma not_reserved_iff (room : Cabinets) (sanitized : Sanitized object) (all : ∀ b ∈ settled, Sanitized b) :
    wholeCellReserved object.cell object.kind room settled object.id = false ↔
      (∀ rack ∈ room.racks, room.rackCells rack.id = some object.cell → object.kind ≠ .wall) ∧
      ∀ b ∈ settled, b.id ≠ object.id → Shares object b →
        ¬ (object.kind = .wall ∨ b.kind = .wall) := by
  have covers : ∀ b ∈ settled, objectCoversCell b object.cell = true ↔ Shares object b :=
    fun b member => objectCoversCell_iff sanitized (all b member)
  rw [wholeCellReserved]
  by_cases wall : object.kind = .wall
  · simp only [wall, if_true, Bool.or_eq_false_iff, any_eq_false, decide_eq_true_eq,
      Bool.and_eq_true, not_and, ne_eq, not_true_eq_false, true_or]
    constructor
    · rintro ⟨racks, others⟩
      refine ⟨racks, fun b member other shares => ?_⟩
      exact others b member other ((covers b member).mpr shares)
    · rintro ⟨racks, others⟩
      refine ⟨racks, fun b member other over_ => ?_⟩
      exact others b member other ((covers b member).mp over_)
  · simp only [wall, if_false, wallOccupiesCell, any_eq_false, decide_eq_true_eq,
      Bool.and_eq_true, ne_eq, not_and, false_or, not_false_eq_true, implies_true, true_and]
    constructor
    · intro others b member other shares is_wall
      exact others b member ⟨other, is_wall⟩ ((covers b member).mpr shares)
    · rintro others b member ⟨other, is_wall⟩ over_
      exact others b member other ((covers b member).mp over_) is_wall

/-- What fits among the settled objects, told by rules about pairs. -/
lemma fitsAt_iff (sanitized : Sanitized object) (all : ∀ b ∈ settled, Sanitized b) :
    fitsAt (footprintSpans object.cell object.kind object.rot room settled object.id object.corner)
        z (objectSpec object.kind).heightU = true ↔
      (rules room).Free ((settled.filter fun b => b.id ≠ object.id).map RoomObject.place)
        (object.body, z) := by
  have tall := heightU_pos object.kind
  have pairs : (∀ b ∈ (settled.filter fun b => b.id ≠ object.id).map RoomObject.place,
      (rules room).Apart (object.body, z) b) ↔
      ∀ b ∈ settled, b.id ≠ object.id → Shares object b →
        ¬ (object.kind = .wall ∨ b.kind = .wall) ∧
          (rectsOverlap (footprint object) (footprint b) = true →
            z + (objectSpec object.kind).heightU ≤ b.z ∨
              b.z + (objectSpec b.kind).heightU ≤ z) := by
    simp only [mem_map, mem_filter, decide_eq_true_eq, forall_exists_index, and_imp]
    constructor
    · intro apart b member other shares
      obtain ⟨open_, clear⟩ := apart _ b member other rfl
      exact ⟨fun wall => open_ ⟨shares, wall⟩, fun over_ => clear ⟨shares, over_⟩⟩
    · rintro apart _ b member other rfl
      refine ⟨fun barred => ?_, fun over_ => ?_⟩
      · exact (apart b member other barred.1).1 barred.2
      · exact (apart b member other over_.1).2 over_.2
  rw [Rules.Free, pairs, footprintSpans_eq sanitized, fitsAt, fits_iff]
  cases reserved : wholeCellReserved object.cell object.kind room settled object.id with
  | true =>
    refine iff_of_false ?_ ?_
    · rintro ⟨low, high, clear⟩
      have span := clear ⟨0, roomCeilingU⟩ (by simp)
      simp only at span
      omega
    · rintro ⟨stands, apart⟩
      have free := (not_reserved_iff room sanitized all).mpr
        ⟨fun rack home at_rack => (stands.racks rack home at_rack).1,
          fun b member other shares => (apart b member other shares).1⟩
      rw [reserved] at free
      cases free
  | false =>
    obtain ⟨racks, others⟩ := (not_reserved_iff room sanitized all).mp reserved
    have local_ : ∀ b : RoomObject, Shares object b → localRect b object.cell = footprint b := by
      rintro b ⟨same, -⟩
      have columns : object.x = b.x := congrArg IsoCell.x same
      have lines : object.y = b.y := congrArg IsoCell.y same
      simp [localRect, footprint, RoomObject.cell, columns, lines]
    constructor
    · rintro ⟨low, high, clear⟩
      rw [if_neg (by simp)] at clear
      refine ⟨⟨low, high, fun rack home at_rack => ⟨racks rack home at_rack, fun over_ => ?_⟩⟩,
        fun b member other shares => ⟨others b member other shares, fun over_ => ?_⟩⟩
      · refine clear (rackSpan rack) (mem_append_left _ (mem_map_of_mem ?_))
        have at_cell : room.rackCells rack.id = some object.cell := at_rack
        have overlaps : rectsOverlap (footprint object) (rackRect room rack) = true := over_
        exact mem_filter.mpr ⟨home, by simp [at_cell, overlaps]⟩
      · refine clear (objectSpan b) (mem_append_right _ (mem_map_of_mem ?_))
        refine mem_filter.mpr ⟨member, ?_⟩
        rw [local_ b shares, over_, (objectCoversCell_iff sanitized (all b member)).mpr shares]
        simpa using other
    · rintro ⟨stands, apart⟩
      refine ⟨stands.floor, stands.ceiling, ?_⟩
      rw [if_neg (by simp)]
      intro span home
      rcases mem_append.mp home with rack_ | object_
      · obtain ⟨rack, member, rfl⟩ := mem_map.mp rack_
        obtain ⟨known, in_way⟩ := mem_filter.mp member
        simp only [Bool.and_eq_true, decide_eq_true_eq] at in_way
        exact (stands.racks rack known in_way.1).2 in_way.2
      · obtain ⟨b, member, rfl⟩ := mem_map.mp object_
        obtain ⟨known, in_way⟩ := mem_filter.mp member
        simp only [Bool.and_eq_true, decide_eq_true_eq] at in_way
        obtain ⟨⟨other, covers⟩, over_⟩ := in_way
        have shares := (objectCoversCell_iff sanitized (all b known)).mp covers
        rw [local_ b shares] at over_
        exact (apart b known other shares).2 over_

variable {spans : List Span} {kind : RoomObjectKind}

lemma resolveDropZ_eq {wish : Int} (found : resolveDropZ spans kind (some wish) = some z) :
    fitsAt spans z (objectSpec kind).heightU = true ∧
      (Rests kind → ∀ c < z, fitsAt spans c (objectSpec kind).heightU = false) ∧
      (¬ Rests kind → fitsAt spans wish (objectSpec kind).heightU = true → z = wish) := by
  rw [resolveDropZ] at found
  cases wanted : (objectSpec kind).defaultZ with
  | level level =>
    rw [wanted] at found
    have fit := find?_some found
    refine ⟨fit, fun rests => absurd wanted (rests level), fun _ wished => ?_⟩
    simp only [Option.toList_some, singleton_append, find?_cons, wished] at found
    exact (Option.some.inj found).symm
  | floor =>
    rw [wanted] at found
    obtain ⟨fit, lowest⟩ := find?_lowest found
    refine ⟨fit, fun _ => lowest, fun raised => absurd (fun level same => ?_) raised⟩
    rw [wanted] at same
    cases same
  | stack =>
    rw [wanted] at found
    obtain ⟨fit, lowest⟩ := find?_lowest found
    refine ⟨fit, fun _ => lowest, fun raised => absurd (fun level same => ?_) raised⟩
    rw [wanted] at same
    cases same

/-- An object is found on its own level when it fits there and, if it rests, on none below. -/
lemma resolveDropZ_of_lowest (fit : fitsAt spans z (objectSpec kind).heightU = true)
    (lowest : Rests kind → ∀ c < z, fitsAt spans c (objectSpec kind).heightU = false) :
    resolveDropZ spans kind (some z) = some z := by
  have some_ : ∃ found, resolveDropZ spans kind (some z) = some found := by
    apply Option.isSome_iff_exists.mp
    rw [resolveDropZ, find?_isSome]
    cases wanted : (objectSpec kind).defaultZ with
    | level level => exact ⟨z, by simp, fit⟩
    | floor =>
      obtain ⟨c, member, -, fit'⟩ := support_fits fit
      exact ⟨c, by simpa using member, fit'⟩
    | stack =>
      obtain ⟨c, member, -, fit'⟩ := support_fits fit
      exact ⟨c, by simpa using member, fit'⟩
  obtain ⟨found, resolved⟩ := some_
  obtain ⟨fit', lowest', wished⟩ := resolveDropZ_eq resolved
  rw [resolved]
  by_cases rests : Rests kind
  · rcases Int.lt_trichotomy found z with less | same | more
    · rw [lowest rests found less] at fit'
      cases fit'
    · rw [same]
    · rw [lowest' rests z more] at fit
      cases fit
  · rw [wished rests fit]

end Pairs

section Order
variable {objects : List RoomObject}

/-- Lower objects first, and the first of two on one level. -/
def Before (a b : RoomObject × Nat) : Prop :=
  a.1.z < b.1.z ∨ a.1.z = b.1.z ∧ a.2 ≤ b.2

instance : DecidableRel Before := fun _ _ => inferInstanceAs (Decidable (_ ∨ _))

instance : Std.Total Before where
  total a b := by
    simp only [Before]
    omega

instance : IsTrans (RoomObject × Nat) Before where
  trans a b c := by
    simp only [Before]
    omega

lemma settleOrder_perm (objects : List RoomObject) : (settleOrder objects).Perm objects := by
  have sorted := (perm_insertionSort (fun a b : RoomObject × Nat =>
    a.1.z < b.1.z ∨ a.1.z = b.1.z ∧ a.2 ≤ b.2) objects.zipIdx).map Prod.fst
  rwa [zipIdx_map_fst] at sorted

lemma settleOrder_sorted (objects : List RoomObject) :
    (settleOrder objects).Pairwise fun a b => a.z ≤ b.z := by
  rw [settleOrder, pairwise_map]
  refine (pairwise_insertionSort Before objects.zipIdx).imp fun before => ?_
  simp only [Before] at before
  omega

lemma mem_settleOrder {object : RoomObject} : object ∈ settleOrder objects ↔ object ∈ objects :=
  (settleOrder_perm objects).mem_iff

lemma settleOrder_ids (ids : (objects.map RoomObject.id).Nodup) :
    ((settleOrder objects).map RoomObject.id).Nodup :=
  ((settleOrder_perm objects).map _).nodup_iff.mpr ids

lemma mem_front_of_lower {front back : List RoomObject} {a b : RoomObject}
    (split : settleOrder objects = front ++ b :: back) (member : a ∈ objects) (lower : a.z < b.z) :
    a ∈ front := by
  have sorted := settleOrder_sorted objects
  have listed := mem_settleOrder.mpr member
  rw [split] at sorted listed
  rcases mem_append.mp listed with early | late
  · exact early
  · rcases mem_cons.mp late with rfl | late
    · omega
    · have order := (pairwise_cons.mp (pairwise_append.mp sorted).2.1).1 a late
      omega

end Order

/-- The objects that have settled before one of the order. -/
def settledBefore (room : Cabinets) (order : List RoomObject) (object : RoomObject) :
    List RoomObject :=
  (order.takeWhile (·.id ≠ object.id)).foldl (settleNext room) []

def levelIn (room : Cabinets) (order : List RoomObject) (object : RoomObject) : Option Int :=
  settledLevel room (settledBefore room order object) object

def settledIn (room : Cabinets) (order : List RoomObject) (object : RoomObject) : RoomObject :=
  { object with z := (levelIn room order object).getD object.z }

def turnIn (room : Cabinets) (order : List RoomObject) (object : RoomObject) : Turn RoomObject where
  item := object.body
  wish := object.z
  level := (settledIn room order object).z
  found := (levelIn room order object).isSome

/-- A candidate level of the object fitted. -/
def FoundLevel (room : Cabinets) (objects : List RoomObject) (object : RoomObject) : Prop :=
  (levelIn room (settleOrder objects) object).isSome = true

section Settle
variable {room : Cabinets} {order front back : List RoomObject} {object : RoomObject}

section
variable (ids : (order.map RoomObject.id).Nodup)
include ids

lemma takeWhile_ids (split : order = front ++ object :: back) :
    order.takeWhile (·.id ≠ object.id) = front := by
  have others : ∀ other ∈ front, other.id ≠ object.id := by
    intro other member same
    rw [split, map_append, map_cons] at ids
    exact (nodup_append.mp ids).2.2 _ (mem_map_of_mem member) _ mem_cons_self same
  rw [split, takeWhile_append_of_pos (fun other member => by simpa using others other member)]
  simp

lemma foldl_settleNext (starts : front <+: order) :
    front.foldl (settleNext room) [] = front.map (settledIn room order) := by
  induction front using reverseRecOn with
  | nil => rfl
  | append_singleton front last ih =>
    obtain ⟨back, split⟩ := starts
    have split' : order = front ++ last :: back := by
      rw [← split]
      simp
    have before := ih ⟨last :: back, split'.symm⟩
    have fresh : ¬ (front.map (settledIn room order)).any
        (·.id = (settledIn room order last).id) = true := by
      rw [any_eq_true]
      rintro ⟨settled, member, same⟩
      obtain ⟨other, home, rfl⟩ := mem_map.mp member
      rw [split', map_append, map_cons] at ids
      have differs := (nodup_append.mp ids).2.2 _ (mem_map_of_mem home) _ mem_cons_self
      exact differs (of_decide_eq_true same)
    have level : levelIn room order last =
        settledLevel room (front.map (settledIn room order)) last := by
      rw [levelIn, settledBefore, takeWhile_ids ids split', before]
    have next : settleNext room (front.map (settledIn room order)) last =
        setById (front.map (settledIn room order)) (settledIn room order last) := by
      rw [settleNext, settledIn, level]
      cases settledLevel room (front.map (settledIn room order)) last with
      | none => rfl
      | some z =>
        by_cases same : z = last.z
        · simp [same]
        · simp [same]
    rw [foldl_concat, before, next, setById, if_neg fresh, map_append, map_singleton]

lemma settledBefore_eq (split : order = front ++ object :: back) :
    settledBefore room order object = front.map (settledIn room order) := by
  rw [settledBefore, takeWhile_ids ids split]
  exact foldl_settleNext ids ⟨object :: back, split.symm⟩

end

lemma sanitized_settledIn (sanitized : Sanitized object) :
    Sanitized (settledIn room order object) :=
  ⟨sanitized.x, sanitized.y⟩

lemma placed_before (ids : (order.map RoomObject.id).Nodup)
    (split : order = front ++ object :: back) :
    ((front.map (settledIn room order)).filter fun b => b.id ≠ object.id).map RoomObject.place =
      (front.map (turnIn room order)).map Turn.placed := by
  have others : (front.map (settledIn room order)).filter (fun b => b.id ≠ object.id) =
      front.map (settledIn room order) := by
    rw [filter_eq_self]
    intro settled member
    obtain ⟨other, home, rfl⟩ := mem_map.mp member
    rw [split, map_append, map_cons] at ids
    have differs := (nodup_append.mp ids).2.2 _ (mem_map_of_mem home) _ mem_cons_self
    exact decide_eq_true differs
  rw [others, map_map, map_map]
  exact map_congr_left fun other _ => rfl

lemma picks_level (ids : (order.map RoomObject.id).Nodup) (all : ∀ o ∈ order, Sanitized o)
    (split : order = front ++ object :: back) {z : Int}
    (found : levelIn room order object = some z) :
    (rules room).Picks ((front.map (turnIn room order)).map Turn.placed) object.body object.z
      z := by
  have sanitized : Sanitized object := all object (by simp [split])
  have all' : ∀ b ∈ front.map (settledIn room order), Sanitized b := by
    intro b member
    obtain ⟨other, home, rfl⟩ := mem_map.mp member
    exact sanitized_settledIn (all other (by simp [split, home]))
  rw [levelIn, settledBefore_eq ids split, settledLevel] at found
  obtain ⟨fit, lowest, wished⟩ := resolveDropZ_eq found
  rw [← placed_before ids split]
  refine ⟨(fitsAt_iff sanitized all').mp fit, fun rests c less free => ?_, fun raised free => ?_⟩
  · have above := lowest rests c less
    rw [(fitsAt_iff sanitized all').mpr free] at above
    cases above
  · exact wished raised ((fitsAt_iff sanitized all').mpr free)

lemma isRun_turns (room : Cabinets) (ids : (order.map RoomObject.id).Nodup) (all : ∀ o ∈ order, Sanitized o) :
    IsRun (rules room) (order.map (turnIn room order)) := by
  intro front t back split found
  obtain ⟨front', rest, split', rfl, at_rest⟩ := map_eq_append_iff.mp split
  obtain ⟨object, back', rfl, rfl, -⟩ := map_eq_cons_iff.mp at_rest
  obtain ⟨z, level⟩ := Option.isSome_iff_exists.mp found
  have picks := picks_level ids all split' level
  have same : (turnIn room order object).level = z := by
    rw [turnIn, settledIn, level]
    rfl
  rw [same]
  exact picks

lemma find?_id {objects : List RoomObject} (ids : (objects.map RoomObject.id).Nodup)
    (member : object ∈ objects) : objects.find? (·.id = object.id) = some object := by
  have present : (objects.find? (·.id = object.id)).isSome := by
    rw [find?_isSome]
    exact ⟨object, member, by simp⟩
  obtain ⟨other, found⟩ := Option.isSome_iff_exists.mp present
  have same : other.id = object.id := by simpa using find?_some found
  rw [found, inj_on_of_nodup_map ids (mem_of_find?_eq_some found) member same]

end Settle

section Rooms
variable {room : Cabinets} {objects : List RoomObject} {object : RoomObject}

lemma settledById_eq (ids : (objects.map RoomObject.id).Nodup) (member : object ∈ objects) :
    settledById room objects object = settledIn room (settleOrder objects) object := by
  have ids' := settleOrder_ids ids
  have found : (settleAll room objects).find? (·.id = object.id) =
      some (settledIn room (settleOrder objects) object) := by
    rw [settleAll, foldl_settleNext ids' prefix_rfl, find?_map]
    have here := find?_id ids' (mem_settleOrder.mpr member)
    exact congrArg (Option.map _) here
  rw [settledById, found, Option.getD_some]

lemma settleRoomObjects_eq (room : Cabinets) (ids : (objects.map RoomObject.id).Nodup) :
    settleRoomObjects room objects = objects.map (settledIn room (settleOrder objects)) :=
  map_congr_left fun _ member => settledById_eq ids member

/-- The settled objects that found a level. -/
def foundObjects (room : Cabinets) (objects : List RoomObject) : List RoomObject :=
  (objects.filter fun object => (levelIn room (settleOrder objects) object).isSome).map
    (settledById room objects)

/-- What holds of a room whose objects have been settled. -/
structure SettledLaws (room : Cabinets) (objects : List RoomObject) : Prop where
  same : List.Forall₂ (fun object settled => ∃ z, settled = { object with z := z }) objects
    (settleRoomObjects room objects)
  inside : ∀ settled ∈ foundObjects room objects,
    0 ≤ settled.z ∧ settled.z + (objectSpec settled.kind).heightU ≤ roomCeilingU
  apart : ∀ settled ∈ foundObjects room objects,
    fitsAt (footprintSpans settled.cell settled.kind settled.rot room (foundObjects room objects)
      settled.id settled.corner) settled.z (objectSpec settled.kind).heightU = true
  again : ∀ object ∈ objects,
    (∀ other ∈ objects, other.cell = object.cell → FoundLevel room objects other) →
      settledById room (settleRoomObjects room objects) (settledById room objects object) =
        settledById room objects object

lemma settled_apart (ids : (objects.map RoomObject.id).Nodup)
    (all : ∀ o ∈ objects, Sanitized o) : ∀ settled ∈ foundObjects room objects,
      fitsAt (footprintSpans settled.cell settled.kind settled.rot room (foundObjects room objects)
        settled.id settled.corner) settled.z (objectSpec settled.kind).heightU = true := by
  have ids' := settleOrder_ids ids
  have all' : ∀ o ∈ settleOrder objects, Sanitized o := fun o member =>
    all o (mem_settleOrder.mp member)
  have run := isRun_turns room ids' all'
  have origin : ∀ settled ∈ foundObjects room objects, ∃ o ∈ settleOrder objects,
      FoundLevel room objects o ∧ settled = settledIn room (settleOrder objects) o := by
    intro settled member
    obtain ⟨o, home, rfl⟩ := mem_map.mp member
    obtain ⟨known, found⟩ := mem_filter.mp home
    exact ⟨o, mem_settleOrder.mpr known, found, settledById_eq ids known⟩
  intro settled member
  obtain ⟨o, home, found, same⟩ := origin settled member
  have sanitized : ∀ s ∈ foundObjects room objects, Sanitized s := by
    intro s member'
    obtain ⟨o', home', -, rfl⟩ := origin s member'
    exact sanitized_settledIn (all' o' home')
  rw [fitsAt_iff (sanitized settled member) sanitized]
  obtain ⟨front, back, split⟩ := append_of_mem home
  obtain ⟨z, level⟩ := Option.isSome_iff_exists.mp found
  have picks := picks_level ids' all' split level
  have at_z : settled.z = z := by
    rw [same, settledIn, level]
    rfl
  refine ⟨?_, fun b in_found => ?_⟩
  · rw [at_z, same]
    exact picks.free.1
  · obtain ⟨s, in_filter, rfl⟩ := mem_map.mp in_found
    obtain ⟨member', other⟩ := mem_filter.mp in_filter
    obtain ⟨o', home', found', rfl⟩ := origin s member'
    have differs : turnIn room (settleOrder objects) o ≠ turnIn room (settleOrder objects) o' := by
      intro equal
      have one_id : o.id = o'.id := congrArg (fun t : Turn RoomObject => t.item.id) equal
      rw [decide_eq_true_eq, same] at other
      exact other one_id.symm
    have apart := run.apart (mem_map_of_mem home) (mem_map_of_mem home') differs found found'
    rw [same]
    exact apart

lemma shares_of_meets {a b : RoomObject} (meets : (rules room).Meets a b) : Shares a b := by
  rcases meets with barred | over_
  · exact barred.1
  · exact over_.1

/-- From the bottom up every object of a good cell keeps its level, because those below it did. -/
lemma settledIn_again (ids : (objects.map RoomObject.id).Nodup)
    (all : ∀ o ∈ objects, Sanitized o) (front back : List RoomObject)
    (split : settleOrder (objects.map (settledIn room (settleOrder objects))) = front ++ back) :
    ∀ s ∈ front, (∀ other ∈ objects, other.cell = s.cell → FoundLevel room objects other) →
      settledIn room (settleOrder (objects.map (settledIn room (settleOrder objects)))) s = s := by
  have run := isRun_turns room (settleOrder_ids ids)
    fun o member => all o (mem_settleOrder.mp member)
  have distinct : ((settleOrder objects).map (turnIn room (settleOrder objects))).Nodup := by
    apply Nodup.of_map fun t : Turn RoomObject => t.item.id
    rw [map_map]
    exact settleOrder_ids ids
  have found_turn : ∀ o, FoundLevel room objects o →
      (turnIn room (settleOrder objects) o).found = true := fun o found => found
  generalize at_order : settleOrder objects = order at *
  have same_ids : ((objects.map (settledIn room order)).map RoomObject.id).Nodup := by
    rw [map_map]
    exact ids
  have ids' := settleOrder_ids same_ids
  have known : ∀ o, o ∈ order ↔ o ∈ objects := by
    intro o
    rw [← at_order]
    exact mem_settleOrder
  have origin : ∀ s ∈ settleOrder (objects.map (settledIn room order)),
      ∃ o ∈ objects, s = settledIn room order o := by
    intro s member
    obtain ⟨o, home, same⟩ := mem_map.mp (mem_settleOrder.mp member)
    exact ⟨o, home, same.symm⟩
  have all' : ∀ s ∈ settleOrder (objects.map (settledIn room order)), Sanitized s := by
    intro s member
    obtain ⟨o, home, rfl⟩ := origin s member
    exact sanitized_settledIn (all o home)
  generalize at_again : settleOrder (objects.map (settledIn room order)) = again at *
  induction front using reverseRecOn generalizing back with
  | nil => exact fun s member => absurd member not_mem_nil
  | append_singleton front last ih =>
    have split' : again = front ++ last :: back := by simpa using split
    have before := ih (last :: back) split'
    intro s member good
    rcases mem_append.mp member with early | here
    · exact before s early good
    · rw [mem_singleton.mp here] at good ⊢
      obtain ⟨o, home, same⟩ := origin last (by simp [split'])
      have kept : ∀ s2 ∈ front, s2.cell = last.cell → settledIn room again s2 = s2 := by
        intro s2 early cell
        exact before s2 early (cell ▸ good)
      have apart : ∀ s2 ∈ front, s2.id ≠ last.id := by
        intro s2 early
        rw [split', map_append, map_cons] at ids'
        exact (nodup_append.mp ids').2.2 _ (mem_map_of_mem early) _ mem_cons_self
      have cell : last.cell = o.cell := same ▸ rfl
      have settled := run.again ((front.map (turnIn room again)).map Turn.placed) distinct
        (mem_map_of_mem ((known o).mpr home)) (found_turn o (good o home cell.symm)) ?_ ?_ ?_
      · obtain ⟨free, lowest⟩ := settled
        have sanitized := all' last (by simp [split'])
        have all'' : ∀ b ∈ front.map (settledIn room again), Sanitized b := by
          intro b member'
          obtain ⟨s2, early, rfl⟩ := mem_map.mp member'
          exact sanitized_settledIn (all' s2 (by simp [split', early]))
        have level : levelIn room again last = some last.z := by
          rw [levelIn, settledBefore_eq ids' split', settledLevel]
          refine resolveDropZ_of_lowest ?_ fun rests c less => ?_
          · rw [fitsAt_iff sanitized all'', placed_before ids' split', same]
            exact free
          · by_contra other
            rw [Bool.not_eq_false, fitsAt_iff sanitized all'', placed_before ids' split', same]
              at other
            rw [same] at rests less
            exact lowest rests c less other
        rw [settledIn, level, Option.getD_some]
      · intro t member' _ meets
        obtain ⟨o2, home2, rfl⟩ := mem_map.mp member'
        have shared := (shares_of_meets meets).1
        exact found_turn o2 (good o2 ((known o2).mp home2) (shared.symm.trans cell.symm))
      · intro b member' meets
        obtain ⟨t, in_turns, rfl⟩ := mem_map.mp member'
        obtain ⟨s2, early, rfl⟩ := mem_map.mp in_turns
        obtain ⟨o2, home2, same2⟩ := origin s2 (by simp [split', early])
        have shared : o.cell = s2.cell := (shares_of_meets meets).1
        have still := kept s2 early (shared.symm.trans cell.symm)
        refine ⟨turnIn room order o2, mem_map_of_mem ((known o2).mpr home2), ?_, ?_⟩
        · intro equal
          have one_id : o2.id = o.id := congrArg (fun t : Turn RoomObject => t.item.id) equal
          apply apart s2 early
          rw [same2, same]
          exact one_id
        · have level : (turnIn room again s2).level = s2.z := congrArg RoomObject.z still
          rw [Turn.placed, Turn.placed, level]
          rw [same2]
          rfl
      · intro t member' _ meets less
        obtain ⟨o2, home2, rfl⟩ := mem_map.mp member'
        have listed : settledIn room order o2 ∈ objects.map (settledIn room order) :=
          mem_map_of_mem ((known o2).mp home2)
        have lower : (settledIn room order o2).z < last.z := same ▸ less
        have early := mem_front_of_lower (at_again.trans split') listed lower
        have shared : o.cell = o2.cell := (shares_of_meets meets).1
        have still := kept _ early (shared.symm.trans cell.symm)
        have level : (turnIn room again (settledIn room order o2)).level =
            (settledIn room order o2).z := congrArg RoomObject.z still
        have placed : (turnIn room again (settledIn room order o2)).placed =
            (turnIn room order o2).placed := by
          rw [Turn.placed, level]
          rfl
        rw [← placed]
        exact mem_map_of_mem (mem_map_of_mem early)

lemma settledLaws (room : Cabinets) (ids : (objects.map RoomObject.id).Nodup)
    (all : ∀ o ∈ objects, Sanitized o) : SettledLaws room objects where
  same := by
    rw [settleRoomObjects_eq room ids, forall₂_map_right_iff, forall₂_same]
    exact fun object _ => ⟨_, rfl⟩
  inside settled member := by
    have fit := fits_iff.mp (settled_apart ids all settled member)
    exact ⟨fit.1, fit.2.1⟩
  apart := settled_apart ids all
  again object member cell := by
    have same_ids :
        ((objects.map (settledIn room (settleOrder objects))).map RoomObject.id).Nodup := by
      rw [map_map]
      exact ids
    have listed : settledIn room (settleOrder objects) object ∈
        objects.map (settledIn room (settleOrder objects)) := mem_map_of_mem member
    rw [settledById_eq ids member, settleRoomObjects_eq room ids, settledById_eq same_ids listed]
    refine settledIn_again ids all _ [] (append_nil _).symm _ (mem_settleOrder.mpr listed) ?_
    exact cell

/-- Settling the saved objects of a room puts those that find a level apart, and settling again
changes no object of a cell in which every object found one. -/
theorem settled_room (room : Cabinets) (raw : List (Option RawObject))
    (ids : ((sanitizeRoomObjects raw).map RoomObject.id).Nodup) :
    SettledLaws room (sanitizeRoomObjects raw) :=
  settledLaws room ids fun _ member => sanitized_of_read member

/-- A saved object in the first corner of the first cell. -/
def savedObject (id : Char) (kind : RoomObjectKind) (z : ℚ) : Option RawObject :=
  some ⟨.text [id], .text (kindName kind).toList, .number 0, .number 0, .number z, .number 0,
    .number 0⟩

/-- The three do not fit above each other. -/
def crammed : List (Option RawObject) :=
  [savedObject 'c' .camera 4, savedObject 'u' .ups 4, savedObject 'a' .aircon 5]

def bare : Cabinets :=
  ⟨[], fun _ => none, fun _ => none⟩

theorem crammed_settled : SettledLaws bare (sanitizeRoomObjects crammed) :=
  settled_room bare crammed (by decide +kernel)

/-- The object that found no level is in the way of another one only until it finds one. -/
theorem crammed_unsettled :
    settleRoomObjects bare (settleRoomObjects bare (sanitizeRoomObjects crammed)) ≠
      settleRoomObjects bare (sanitizeRoomObjects crammed) := by decide +kernel

end Rooms

end ItOps.Room
