import KKTerm.Installer.Versions
import KKTerm.ItOps.RoomFloor
import KKTerm.Library.Loops

/-!
# The cells of the racks

Racks stand in their stored cells or in the row of their group, and slide to the right
past every cell that is occupied. A coordinate is a number that holds an integer, and a sum
is the number nearest to it. A record is a map from ids, none of which is a name that
objects inherit.
-/

namespace ItOps.Room

open List Function

structure RackGroup where
  key : List Char
  racks : List Rack

/-- The mapping to lower case depends on the locale. -/
def topologyGroupKey (toLocaleLowerCase : List Char → List Char) (value : List Char) : List Char :=
  toLocaleLowerCase (JsText.trim value)

def addToGroups (toLocaleLowerCase : List Char → List Char) :
    List RackGroup → Rack → List RackGroup
  | [], rack => [⟨rack.rackGroup, [rack]⟩]
  | group :: groups, rack =>
    if topologyGroupKey toLocaleLowerCase group.key =
        topologyGroupKey toLocaleLowerCase rack.rackGroup then
      { group with racks := group.racks ++ [rack] } :: groups
    else group :: addToGroups toLocaleLowerCase groups rack

def groupRacksByGroup (toLocaleLowerCase : List Char → List Char) (racks : List Rack) :
    List RackGroup :=
  racks.foldl (addToGroups toLocaleLowerCase) []

def number (n : Int) : Int :=
  n.sign * Installer.roundToEven n.natAbs

/-- `Math.round`. -/
def round (x : ℚ) : Int :=
  ⌊x + 1 / 2⌋

def gridMargin : Int := 2

def isoMinCols : Int := 6

def isoMinRows : Int := 4

abbrev Cells := List Char → Option IsoCell

structure IsoLayout where
  cols : Int
  rows : Int
  cells : Cells

def sanitizeCell (point : Point) : IsoCell :=
  ⟨max 0 (round point.x), max 0 (round point.y)⟩

def slide (occupied : List IsoCell) (fuel : Nat) (cell : IsoCell) : Option IsoCell :=
  Probing.probe (fun cell => ⟨number (cell.x + 1), cell.y⟩) occupied fuel cell

structure Placing where
  cells : Cells
  occupied : List IsoCell

def Placing.put (p : Placing) (id : List Char) (cell : IsoCell) : Placing :=
  ⟨Function.update p.cells id (some cell), p.occupied ++ [cell]⟩

@[simp] lemma put_occupied (p : Placing) (id : List Char) (cell : IsoCell) :
    (p.put id cell).occupied = p.occupied ++ [cell] := rfl

@[simp] lemma put_self (p : Placing) (id : List Char) (cell : IsoCell) :
    (p.put id cell).cells id = some cell :=
  update_self _ _ _

lemma put_of_ne {id other : List Char} (differs : other ≠ id) (p : Placing) (cell : IsoCell) :
    (p.put id cell).cells other = p.cells other :=
  update_of_ne differs _ _

def placeStored (fuel : Nat) (placement : List Char → Option Point) (p : Placing) (rack : Rack) :
    Option Placing :=
  match placement rack.id with
  | none => some p
  | some stored => (slide p.occupied fuel (sanitizeCell stored)).map (p.put rack.id)

/-- The second part of the state is the next column of the row. -/
def placeRack (fuel : Nat) (row : Int) (state : Placing × Int) (rack : Rack) :
    Option (Placing × Int) :=
  if (state.1.cells rack.id).isSome then some state
  else (slide state.1.occupied fuel ⟨state.2, row⟩).map fun cell =>
    (state.1.put rack.id cell, number (cell.x + 1))

def placeGroup (fuel : Nat) (p : Placing) (group : RackGroup × Nat) : Option Placing :=
  (group.1.racks.foldlM (placeRack fuel (number (group.2 * 2))) (p, 0)).map Prod.fst

def gridSide (least : Int) (hasRacks : Bool) (top : Int) : Int :=
  max least (if hasRacks then number (number (top + 1) + gridMargin) else 0)

def resolveIsoLayout (toLocaleLowerCase : List Char → List Char) (fuel : Nat) (racks : List Rack)
    (placement : List Char → Option Point) (reservedCells : List IsoCell) : Option IsoLayout := do
  let stored ← racks.foldlM (placeStored fuel placement) ⟨fun _ => none, reservedCells⟩
  let placed ← (groupRacksByGroup toLocaleLowerCase racks).zipIdx.foldlM (placeGroup fuel) stored
  -- only racks have cells
  let values := racks.filterMap fun rack => placed.cells rack.id
  let maxX := values.foldl (fun top cell => max top cell.x) 0
  let maxY := values.foldl (fun top cell => max top cell.y) 0
  let hasRacks := decide (0 < racks.length)
  pure ⟨gridSide isoMinCols hasRacks maxX, gridSide isoMinRows hasRacks maxY, placed.cells⟩

/-- A rack that stands in the target cell goes to the cell that becomes free. -/
def moveIsoRack (layout : IsoLayout) (rackId : List Char) (target : Point) : Cells :=
  match layout.cells rackId with
  | none => layout.cells
  | some start =>
    let goal : IsoCell := ⟨min (number (layout.cols - 1)) (max 0 (round target.x)),
      min (number (layout.rows - 1)) (max 0 (round target.y))⟩
    Function.update (fun id =>
      if id ≠ rackId ∧ layout.cells id = some goal then some start else layout.cells id)
      rackId (some goal)

lemma number_exact {n : Int} (small : n.natAbs < 2 ^ 53) : number n = n := by
  rw [number, Installer.roundToEven_small small, Int.sign_mul_natAbs]

section Groups
variable {toLocaleLowerCase : List Char → List Char} {groups : List RackGroup} {rack other : Rack}

lemma mem_addToGroups :
    (∃ group ∈ addToGroups toLocaleLowerCase groups rack, other ∈ group.racks) ↔
      (∃ group ∈ groups, other ∈ group.racks) ∨ other = rack := by
  induction groups with
  | nil => simp [addToGroups]
  | cons group groups ih =>
    rw [addToGroups]
    split_ifs with same
    · simp only [mem_cons, exists_eq_or_imp, mem_append, not_mem_nil, or_false]
      exact or_right_comm
    · simp only [mem_cons, exists_eq_or_imp, ih]
      exact or_assoc.symm

lemma mem_groupRacksByGroup (toLocaleLowerCase : List Char → List Char) (racks : List Rack) :
    (∃ group ∈ groupRacksByGroup toLocaleLowerCase racks, rack ∈ group.racks) ↔ rack ∈ racks := by
  induction racks using reverseRecOn with
  | nil => simp [groupRacksByGroup]
  | append_singleton racks last ih =>
    rw [groupRacksByGroup, foldl_concat, mem_addToGroups]
    rw [groupRacksByGroup] at ih
    simp [ih]

lemma length_addToGroups (groups : List RackGroup) (rack : Rack) :
    (addToGroups toLocaleLowerCase groups rack).length ≤ groups.length + 1 := by
  induction groups with
  | nil => exact Nat.le_refl _
  | cons group groups ih =>
    rw [addToGroups]
    split_ifs
    · simp
    · simpa using ih

lemma length_groupRacksByGroup (toLocaleLowerCase : List Char → List Char) (racks : List Rack) :
    (groupRacksByGroup toLocaleLowerCase racks).length ≤ racks.length := by
  induction racks using reverseRecOn with
  | nil => exact Nat.le_refl _
  | append_singleton racks last ih =>
    rw [groupRacksByGroup, foldl_concat]
    refine (length_addToGroups _ last).trans ?_
    rw [length_append, length_singleton]
    exact Nat.succ_le_succ ih

end Groups

section Placing
variable {racks : List Rack} {placement : List Char → Option Point} {reservedCells : List IsoCell}
  {p p' : Placing} {rack : Rack} {fuel : Nat} {cell : IsoCell}

/-- Coordinates and counts for which every sum is a number. -/
structure Exact (racks : List Rack) (placement : List Char → Option Point)
    (reservedCells : List IsoCell) : Prop where
  counts : 2 * (racks.length + reservedCells.length : Int) + 3 < 2 ^ 53
  stored : ∀ rack ∈ racks, ∀ point, placement rack.id = some point →
    (sanitizeCell point).x + (racks.length + reservedCells.length) + 3 < 2 ^ 53 ∧
      (sanitizeCell point).y + 3 < 2 ^ 53

/-- A cell at which counting on is exact. -/
structure Near (cell : IsoCell) : Prop where
  left : 0 ≤ cell.x
  top : 0 ≤ cell.y
  right : cell.x + 3 < 2 ^ 53
  bottom : cell.y + 3 < 2 ^ 53

def placedIds (racks : List Rack) (p : Placing) : List Rack :=
  racks.filter fun rack => (p.cells rack.id).isSome

structure Sound (racks : List Rack) (reservedCells : List IsoCell) (p : Placing) : Prop where
  occupied : ∀ cell, cell ∈ p.occupied ↔ cell ∈ reservedCells ∨ ∃ id, p.cells id = some cell
  count : p.occupied.length ≤ reservedCells.length + (placedIds racks p).length
  only : ∀ id cell, p.cells id = some cell → ∃ rack ∈ racks, rack.id = id
  distinct : ∀ a b cell, p.cells a = some cell → p.cells b = some cell → a = b
  free : ∀ id cell, p.cells id = some cell → cell ∉ reservedCells
  near : ∀ id cell, p.cells id = some cell → Near cell

lemma sound_start : Sound racks reservedCells ⟨fun _ => none, reservedCells⟩ where
  occupied := by simp
  count := Nat.le_add_right _ _
  only := by simp
  distinct := by simp
  free := by simp
  near := by simp

lemma Sound.length_le (sound : Sound racks reservedCells p) :
    p.occupied.length ≤ racks.length + reservedCells.length := by
  have placed : (placedIds racks p).length ≤ racks.length := length_filter_le _ _
  have count := sound.count
  omega

lemma Sound.put (sound : Sound racks reservedCells p) (known : rack ∈ racks)
    (fresh : p.cells rack.id = none) (free : cell ∉ p.occupied) (near : Near cell) :
    Sound racks reservedCells (p.put rack.id cell) := by
  have lookup : ∀ id found, (p.put rack.id cell).cells id = some found →
      (id = rack.id ∧ found = cell) ∨ p.cells id = some found := by
    intro id found at_id
    by_cases here : id = rack.id
    · rw [here, put_self] at at_id
      exact .inl ⟨here, (Option.some.inj at_id).symm⟩
    · rw [put_of_ne here] at at_id
      exact .inr at_id
  have old : ∀ id, cell ∈ reservedCells ∨ p.cells id = some cell → False := by
    rintro id (reserved | taken)
    · exact free ((sound.occupied cell).mpr (.inl reserved))
    · exact free ((sound.occupied cell).mpr (.inr ⟨id, taken⟩))
  refine ⟨fun other => ?_, ?_, ?_, ?_, ?_, ?_⟩
  · rw [put_occupied, mem_append, sound.occupied, mem_singleton]
    constructor
    · rintro ((reserved | ⟨id, taken⟩) | rfl)
      · exact .inl reserved
      · refine .inr ⟨id, ?_⟩
        have differs : id ≠ rack.id := by
          rintro rfl
          rw [fresh] at taken
          cases taken
        rw [put_of_ne differs, taken]
      · exact .inr ⟨rack.id, put_self p rack.id other⟩
    · rintro (reserved | ⟨id, taken⟩)
      · exact .inl (.inl reserved)
      · rcases lookup id other taken with ⟨-, rfl⟩ | before
        · exact .inr rfl
        · exact .inl (.inr ⟨id, before⟩)
  · have more : (placedIds racks p).length < (placedIds racks (p.put rack.id cell)).length := by
      apply Loops.length_filter_lt ?_ known
      · simp
      · simp [fresh]
      · intro other placed
        by_cases here : other.id = rack.id
        · simp [here]
        · rwa [put_of_ne here]
    have count := sound.count
    rw [put_occupied, length_append, length_singleton]
    omega
  · intro id found at_id
    rcases lookup id found at_id with ⟨rfl, -⟩ | before
    · exact ⟨rack, known, rfl⟩
    · exact sound.only id found before
  · intro a b found at_a at_b
    rcases lookup a found at_a with ⟨rfl, rfl⟩ | before
    · rcases lookup b found at_b with ⟨rfl, -⟩ | before
      · rfl
      · exact (old b (.inr before)).elim
    · rcases lookup b found at_b with ⟨rfl, rfl⟩ | before'
      · exact (old a (.inr before)).elim
      · exact sound.distinct a b found before before'
  · intro id found at_id reserved
    rcases lookup id found at_id with ⟨-, rfl⟩ | before
    · exact old id (.inl reserved)
    · exact sound.free id found before reserved
  · intro id found at_id
    rcases lookup id found at_id with ⟨-, rfl⟩ | before
    · exact near
    · exact sound.near id found before

lemma iterate_right (cell : IsoCell) {k : Nat} (left : 0 ≤ cell.x) (small : cell.x + k < 2 ^ 53) :
    (fun cell : IsoCell => (⟨number (cell.x + 1), cell.y⟩ : IsoCell))^[k] cell =
      ⟨cell.x + k, cell.y⟩ := by
  induction k with
  | zero => simp
  | succ k ih =>
    have next : number (cell.x + k + 1) = cell.x + (k + 1 : Nat) := by
      rw [number_exact (by omega)]
      omega
    rw [iterate_succ_apply', ih (by omega), next]

lemma slide_returns {occupied : List IsoCell} (left : 0 ≤ cell.x)
    (small : cell.x + occupied.length < 2 ^ 53) (enough : occupied.length < fuel) :
    ∃ k : Nat, k ≤ occupied.length ∧ slide occupied fuel cell = some ⟨cell.x + k, cell.y⟩ ∧
      (⟨cell.x + k, cell.y⟩ : IsoCell) ∉ occupied ∧
        ∀ j < k, (⟨cell.x + j, cell.y⟩ : IsoCell) ∈ occupied := by
  have right : ∀ k ≤ occupied.length,
      (fun cell : IsoCell => (⟨number (cell.x + 1), cell.y⟩ : IsoCell))^[k] cell =
        ⟨cell.x + k, cell.y⟩ := fun k low => iterate_right cell left (by omega)
  obtain ⟨k, low, found, free, passed⟩ :=
    Probing.probe_returns (a := cell) (fun i hi j hj same => by
      rw [right i hi, right j hj] at same
      simpa using same) enough
  rw [right k low] at found free
  refine ⟨k, low, found, free, fun j less => ?_⟩
  have taken := passed j less
  rwa [right j (by omega)] at taken

/-- A rack without a cell gets the first one to the right of where it is put. -/
lemma place_returns (cell : IsoCell) (sound : Sound racks reservedCells p) (known : rack ∈ racks)
    (fresh : p.cells rack.id = none) (left : 0 ≤ cell.x) (top : 0 ≤ cell.y)
    (right : cell.x + (racks.length + reservedCells.length) + 3 < 2 ^ 53)
    (bottom : cell.y + 3 < 2 ^ 53) (enough : racks.length + reservedCells.length < fuel) :
    ∃ k : Nat, slide p.occupied fuel cell = some ⟨cell.x + k, cell.y⟩ ∧
      Sound racks reservedCells (p.put rack.id ⟨cell.x + k, cell.y⟩) ∧
      (cell ∉ p.occupied → k = 0) ∧
      ∀ j < k, (⟨cell.x + j, cell.y⟩ : IsoCell) ∈ p.occupied := by
  have few := sound.length_le
  have small : cell.x + p.occupied.length < 2 ^ 53 := by omega
  obtain ⟨k, low, found, free, passed⟩ := slide_returns left small (Nat.lt_of_le_of_lt few enough)
  have near : Near ⟨cell.x + k, cell.y⟩ := by
    constructor
    · exact Int.add_nonneg left (Int.natCast_nonneg k)
    · exact top
    · show cell.x + k + 3 < 2 ^ 53
      omega
    · exact bottom
  refine ⟨k, found, sound.put known fresh free near, fun open_ => ?_, passed⟩
  by_contra slid
  have first := passed 0 (by omega)
  simp only [Nat.cast_zero, Int.add_zero] at first
  exact open_ first

/-- What holds when some of the racks have been put into their stored cells. -/
structure Stored (racks : List Rack) (placement : List Char → Option Point)
    (reservedCells : List IsoCell) (seen : List Rack) (p : Placing) : Prop where
  sound : Sound racks reservedCells p
  only : ∀ id cell, p.cells id = some cell → ∃ rack ∈ seen, rack.id = id ∧ placement id ≠ none
  kept : ∀ front rack back point, seen = front ++ rack :: back → placement rack.id = some point →
    sanitizeCell point ∉ reservedCells →
      (∀ earlier ∈ front, placement earlier.id ≠ none →
        p.cells earlier.id ≠ some (sanitizeCell point)) →
      p.cells rack.id = some (sanitizeCell point)

lemma placeStored_returns (ids : (racks.map Rack.id).Nodup)
    (exact_ : Exact racks placement reservedCells)
    (enough : racks.length + reservedCells.length < fuel) {seen back : List Rack}
    (split : racks = seen ++ rack :: back) (stored : Stored racks placement reservedCells seen p) :
    ∃ p', placeStored fuel placement p rack = some p' ∧
      Stored racks placement reservedCells (seen ++ [rack]) p' := by
  have known : rack ∈ racks := by simp [split]
  have apart : ∀ other ∈ seen, other.id ≠ rack.id := by
    intro other member same
    rw [split, map_append, map_cons] at ids
    exact (nodup_append.mp ids).2.2 _ (mem_map_of_mem member) _ mem_cons_self same
  cases wish : placement rack.id with
  | none =>
    refine ⟨p, by rw [placeStored, wish], stored.sound, fun id cell at_id => ?_, ?_⟩
    · obtain ⟨other, member, rest⟩ := stored.only id cell at_id
      exact ⟨other, mem_append_left _ member, rest⟩
    · intro front r back' point split' wish' free others
      rcases eq_nil_or_concat back' with rfl | ⟨back', last, rfl⟩
      · obtain ⟨-, single⟩ := append_inj' split' rfl
        cases single
        rw [wish] at wish'
        cases wish'
      · have shorter : seen = front ++ r :: back' := by
          have parts : seen ++ [rack] = (front ++ r :: back') ++ [last] := by simpa using split'
          exact (append_inj' parts rfl).1
        exact stored.kept front r back' point shorter wish' free others
  | some point =>
    have fresh : p.cells rack.id = none := by
      cases at_id : p.cells rack.id with
      | none => rfl
      | some cell =>
        obtain ⟨other, member, same, -⟩ := stored.only _ cell at_id
        exact absurd same (apart other member)
    obtain ⟨right, bottom⟩ := exact_.stored rack known point wish
    obtain ⟨k, found, sound, open_, -⟩ := place_returns _ stored.sound known fresh
      (le_max_left 0 _) (le_max_left 0 _) right bottom enough
    have placed : placeStored fuel placement p rack =
        some (p.put rack.id ⟨(sanitizeCell point).x + k, (sanitizeCell point).y⟩) := by
      rw [placeStored, wish]
      simp only [found, Option.map_some]
    refine ⟨_, placed, sound, fun id cell at_id => ?_, ?_⟩
    · by_cases here : id = rack.id
      · exact ⟨rack, by simp, here.symm, by rw [here, wish]; exact Option.some_ne_none _⟩
      · rw [put_of_ne here] at at_id
        obtain ⟨other, member, rest⟩ := stored.only id cell at_id
        exact ⟨other, mem_append_left _ member, rest⟩
    · intro front r back' point' split' wish' free others
      rcases eq_nil_or_concat back' with rfl | ⟨back', last, rfl⟩
      · obtain ⟨rfl, single⟩ := append_inj' split' rfl
        cases single
        rw [wish] at wish'
        cases wish'
        have unoccupied : sanitizeCell point ∉ p.occupied := by
          intro taken
          rcases (stored.sound.occupied _).mp taken with reserved | ⟨id, at_id⟩
          · exact free reserved
          · obtain ⟨earlier, member, rfl, placed⟩ := stored.only id _ at_id
            apply others earlier member placed
            rw [put_of_ne (apart earlier member), at_id]
        have zero := open_ unoccupied
        rw [put_self, zero]
        simp
      · have shorter : seen = front ++ r :: back' := by
          have parts : seen ++ [rack] = (front ++ r :: back') ++ [last] := by simpa using split'
          exact (append_inj' parts rfl).1
        have member : r ∈ seen := by simp [shorter]
        rw [put_of_ne (apart r member)]
        refine stored.kept front r back' point' shorter wish' free fun earlier early placed => ?_
        have differs := others earlier early placed
        rwa [put_of_ne (apart earlier (shorter ▸ mem_append_left _ early))] at differs

def Later (p p' : Placing) : Prop :=
  ∀ id cell, p.cells id = some cell → p'.cells id = some cell

/-- The columns of the row before the next one are occupied. -/
structure Row (racks : List Rack) (reservedCells : List IsoCell) (row : Int)
    (state : Placing × Int) : Prop where
  sound : Sound racks reservedCells state.1
  left : 0 ≤ state.2
  filled : ∀ j : Nat, (j : Int) < state.2 → (⟨j, row⟩ : IsoCell) ∈ state.1.occupied

lemma Row.next_le {row : Int} {state : Placing × Int}
    (filled : Row racks reservedCells row state) : state.2 ≤ state.1.occupied.length := by
  have count := Probing.le_length state.2.toNat (fun j : Nat => (⟨j, row⟩ : IsoCell))
    (fun i _ j _ same => by simpa using same) (fun j small => filled.filled j (by omega))
  omega

lemma placeRack_returns (exact_ : Exact racks placement reservedCells)
    (enough : racks.length + reservedCells.length < fuel) (known : rack ∈ racks) (row : Int)
    (top : 0 ≤ row) (bottom : row + 3 < 2 ^ 53) {state : Placing × Int}
    (filled : Row racks reservedCells row state) :
    ∃ state', placeRack fuel row state rack = some state' ∧ Row racks reservedCells row state' ∧
      Later state.1 state'.1 ∧ state'.1.cells rack.id ≠ none := by
  rw [placeRack]
  split_ifs with has
  · exact ⟨state, rfl, filled, fun _ _ at_id => at_id, Option.isSome_iff_ne_none.mp has⟩
  · have fresh : state.1.cells rack.id = none := by simpa using has
    have few := filled.sound.length_le
    have next := filled.next_le
    have counts := exact_.counts
    obtain ⟨k, found, sound, -, passed⟩ := place_returns ⟨state.2, row⟩ filled.sound known
      fresh filled.left top (show state.2 + _ + 3 < 2 ^ 53 by omega) bottom enough
    have near := sound.near rack.id _ (put_self _ _ _)
    have column : number (state.2 + k + 1) = state.2 + k + 1 := by
      have right := near.right
      have left := filled.left
      apply number_exact
      simp only at right
      omega
    rw [found]
    refine ⟨_, rfl, ⟨sound, ?_, fun j small => ?_⟩, fun id cell at_id => ?_, ?_⟩
    · have left := filled.left
      show 0 ≤ number (state.2 + k + 1)
      omega
    · replace small : (j : Int) < number (state.2 + k + 1) := small
      rw [put_occupied, mem_append, mem_singleton]
      have left := filled.left
      by_cases before : (j : Int) < state.2
      · exact .inl (filled.filled j before)
      · by_cases here : (j : Int) = state.2 + k
        · exact .inr (by rw [here])
        · have between := passed (j - state.2).toNat (by omega)
          have same : state.2 + ((j - state.2).toNat : Int) = j := by omega
          simp only [same] at between
          exact .inl between
    · by_cases here : id = rack.id
      · rw [here, fresh] at at_id
        cases at_id
      · exact (put_of_ne here _ _).trans at_id
    · simp

lemma placeGroup_returns (exact_ : Exact racks placement reservedCells)
    (enough : racks.length + reservedCells.length < fuel) {group : RackGroup} {index : Nat}
    (inside : ∀ rack ∈ group.racks, rack ∈ racks) (small : index < racks.length)
    (sound : Sound racks reservedCells p) :
    ∃ p', placeGroup fuel p (group, index) = some p' ∧ Sound racks reservedCells p' ∧ Later p p' ∧
      ∀ rack ∈ group.racks, p'.cells rack.id ≠ none := by
  have counts := exact_.counts
  have row : number ((index : Int) * 2) = index * 2 := number_exact (by omega)
  have start : Row racks reservedCells (index * 2) (p, 0) := by
    refine ⟨sound, Int.le_refl 0, fun j negative => ?_⟩
    have nonneg := Int.natCast_nonneg j
    omega
  have step : ∀ front rack back, group.racks = front ++ rack :: back → ∀ state,
      (Row racks reservedCells (index * 2) state ∧ Later p state.1 ∧
        ∀ rack ∈ front, state.1.cells rack.id ≠ none) →
      ∃ state', placeRack fuel (index * 2) state rack = some state' ∧
        Row racks reservedCells (index * 2) state' ∧ Later p state'.1 ∧
          ∀ rack' ∈ front ++ [rack], state'.1.cells rack'.id ≠ none := by
    rintro front rack back split state ⟨filled, later, placed⟩
    have known : rack ∈ racks := inside rack (by simp [split])
    obtain ⟨state', ran, filled', later', has⟩ :=
      placeRack_returns exact_ enough known (index * 2) (by omega) (by omega) filled
    refine ⟨state', ran, filled', fun id cell at_id => later' id cell (later id cell at_id), ?_⟩
    intro other member
    rcases mem_append.mp member with old | new
    · obtain ⟨cell, at_id⟩ := Option.ne_none_iff_exists'.mp (placed other old)
      rw [later' _ _ at_id]
      exact Option.some_ne_none cell
    · rw [mem_singleton.mp new]
      exact has
  obtain ⟨state, ran, filled, later, placed⟩ := Loops.foldlM_returns
    (I := fun (seen : List Rack) state => Row racks reservedCells (index * 2) state ∧
      Later p state.1 ∧ ∀ rack ∈ seen, state.1.cells rack.id ≠ none)
    ⟨start, fun _ _ at_id => at_id, fun _ member => absurd member not_mem_nil⟩ step
  refine ⟨state.1, ?_, filled.sound, later, placed⟩
  rw [placeGroup]
  simp only [row, ran]
  rfl

end Placing

def IsoLayout.Covers (layout : IsoLayout) (cell : IsoCell) : Prop :=
  0 ≤ cell.x ∧ cell.x < layout.cols ∧ 0 ≤ cell.y ∧ cell.y < layout.rows

/-- No two racks share a cell, and every cell is inside the grid. -/
structure Tiled (layout : IsoLayout) (cells : Cells) : Prop where
  distinct : ∀ a b cell, cells a = some cell → cells b = some cell → a = b
  inside : ∀ id cell, cells id = some cell → layout.Covers cell

/-- The sides of a grid are numbers, and a grid is not empty. -/
structure IsoLayout.Sized (layout : IsoLayout) : Prop where
  cols : isoMinCols ≤ layout.cols ∧ layout.cols < 2 ^ 53
  rows : isoMinRows ≤ layout.rows ∧ layout.rows < 2 ^ 53

/-- What holds of the layout of a room. -/
structure LayoutLaws (racks : List Rack) (placement : List Char → Option Point)
    (reservedCells : List IsoCell) (layout : IsoLayout) : Prop where
  placed : ∀ rack ∈ racks, ∃ cell, layout.cells rack.id = some cell
  only : ∀ id cell, layout.cells id = some cell → ∃ rack ∈ racks, rack.id = id
  tiled : Tiled layout layout.cells
  grid : layout.Sized
  free : ∀ id cell, layout.cells id = some cell → cell ∉ reservedCells
  kept : ∀ front rack back point, racks = front ++ rack :: back →
    placement rack.id = some point → sanitizeCell point ∉ reservedCells →
      (∀ earlier ∈ front, placement earlier.id ≠ none →
        layout.cells earlier.id ≠ some (sanitizeCell point)) →
      layout.cells rack.id = some (sanitizeCell point)

/-- What a move does: only the rack and one that stood in its way have new cells. -/
structure MoveLaws (layout : IsoLayout) (rackId : List Char) (target : Point) (cells : Cells) :
    Prop where
  tiled : Tiled layout cells
  moved : ∀ goal : IsoCell, goal.x = round target.x → goal.y = round target.y →
    layout.Covers goal → layout.cells rackId ≠ none → cells rackId = some goal
  swapped : ∀ id, id ≠ rackId → cells id ≠ layout.cells id →
    cells id = layout.cells rackId ∧ layout.cells id = cells rackId
  kept : ∀ id, cells id = none ↔ layout.cells id = none

section Layout
variable {toLocaleLowerCase : List Char → List Char} {racks : List Rack}
  {placement : List Char → Option Point} {reservedCells : List IsoCell} {fuel : Nat}

lemma foldl_max (f : IsoCell → Int) (cells : List IsoCell) (start : Int) :
    start ≤ cells.foldl (fun top cell => max top (f cell)) start ∧
      (∀ cell ∈ cells, f cell ≤ cells.foldl (fun top cell => max top (f cell)) start) ∧
      ∀ bound, start ≤ bound → (∀ cell ∈ cells, f cell ≤ bound) →
        cells.foldl (fun top cell => max top (f cell)) start ≤ bound := by
  induction cells generalizing start with
  | nil => exact ⟨le_rfl, by simp, fun _ low _ => low⟩
  | cons cell cells ih =>
    obtain ⟨above, all, least⟩ := ih (max start (f cell))
    refine ⟨(le_max_left _ _).trans above, ?_, fun bound low each => ?_⟩
    · intro other member
      rcases mem_cons.mp member with rfl | member
      · exact (le_max_right _ _).trans above
      · exact all other member
    · refine least bound (max_le low (each cell mem_cons_self)) fun other member => ?_
      exact each other (mem_cons_of_mem cell member)

lemma gridSide_bounds {least top : Int} {hasRacks : Bool} (fits : least < 2 ^ 53)
    (low : 0 ≤ top) (small : top + 3 < 2 ^ 53) :
    least ≤ gridSide least hasRacks top ∧ gridSide least hasRacks top < 2 ^ 53 := by
  refine ⟨le_max_left _ _, max_lt fits ?_⟩
  have first : number (top + 1) = top + 1 := number_exact (by omega)
  have second : number (top + 1 + gridMargin) = top + 1 + 2 :=
    number_exact (show (top + 1 + 2).natAbs < 2 ^ 53 by omega)
  split_ifs
  · rw [first, second]
    omega
  · norm_num

lemma gridSide_gt {least top : Int} (low : 0 ≤ top) (small : top + 3 < 2 ^ 53) :
    top < gridSide least true top := by
  have first : number (top + 1) = top + 1 := number_exact (by omega)
  have second : number (top + 1 + gridMargin) = top + 1 + 2 :=
    number_exact (show (top + 1 + 2).natAbs < 2 ^ 53 by omega)
  rw [gridSide, if_pos rfl, first, second]
  exact lt_max_of_lt_right (by omega)

lemma resolveIsoLayout_returns (ids : (racks.map Rack.id).Nodup)
    (exact_ : Exact racks placement reservedCells)
    (enough : racks.length + reservedCells.length < fuel) :
    ∃ layout, resolveIsoLayout toLocaleLowerCase fuel racks placement reservedCells = some layout ∧
      LayoutLaws racks placement reservedCells layout := by
  have started : Stored racks placement reservedCells [] ⟨fun _ => none, reservedCells⟩ := by
    refine ⟨sound_start, by simp, ?_⟩
    intro front rack back point split
    simp at split
  obtain ⟨stored, ran, storedAll⟩ := Loops.foldlM_returns (l := racks) started
    fun seen rack back split p held => placeStored_returns ids exact_ enough split held
  have step : ∀ front item back,
      (groupRacksByGroup toLocaleLowerCase racks).zipIdx = front ++ item :: back → ∀ p,
      (Sound racks reservedCells p ∧ Later stored p ∧
        ∀ g ∈ front, ∀ rack ∈ g.1.racks, p.cells rack.id ≠ none) →
      ∃ p', placeGroup fuel p item = some p' ∧ Sound racks reservedCells p' ∧ Later stored p' ∧
        ∀ g ∈ front ++ [item], ∀ rack ∈ g.1.racks, p'.cells rack.id ≠ none := by
    rintro front ⟨group, index⟩ back split p ⟨sound, later, filled⟩
    have member : (group, index) ∈ (groupRacksByGroup toLocaleLowerCase racks).zipIdx := by
      simp [split]
    have at_index := mk_mem_zipIdx_iff_getElem?.mp member
    have groups := length_groupRacksByGroup toLocaleLowerCase racks
    obtain ⟨small, -⟩ := List.getElem?_eq_some_iff.mp at_index
    have inside : ∀ rack ∈ group.racks, rack ∈ racks := by
      intro rack home
      rw [← mem_groupRacksByGroup toLocaleLowerCase racks]
      exact ⟨group, mem_of_getElem? at_index, home⟩
    obtain ⟨p', placed, sound', later', filled'⟩ :=
      placeGroup_returns exact_ enough inside (Nat.lt_of_lt_of_le small groups) sound
    refine ⟨p', placed, sound', fun id cell at_id => later' id cell (later id cell at_id), ?_⟩
    intro g member' rack home
    rcases mem_append.mp member' with old | new
    · obtain ⟨cell, at_id⟩ := Option.ne_none_iff_exists'.mp (filled g old rack home)
      rw [later' _ _ at_id]
      exact Option.some_ne_none cell
    · cases mem_singleton.mp new
      exact filled' rack home
  obtain ⟨placed, ran', sound, later, filled⟩ := Loops.foldlM_returns
    (I := fun (seen : List (RackGroup × Nat)) p => Sound racks reservedCells p ∧ Later stored p ∧
      ∀ g ∈ seen, ∀ rack ∈ g.1.racks, p.cells rack.id ≠ none)
    ⟨storedAll.sound, fun _ _ at_id => at_id, fun _ member => absurd member not_mem_nil⟩ step
  refine ⟨_, by
    simp only [resolveIsoLayout, ran, ran', Option.bind_eq_bind, Option.bind_some]
    rfl, ?_⟩
  have values : ∀ other ∈ racks.filterMap fun rack => placed.cells rack.id, Near other := by
    intro other member
    obtain ⟨rack, -, at_id⟩ := mem_filterMap.mp member
    exact sound.near _ _ at_id
  have bounds : ∀ f : IsoCell → Int, (∀ other, Near other → f other + 3 < 2 ^ 53) →
      0 ≤ (racks.filterMap fun rack => placed.cells rack.id).foldl
        (fun top cell => max top (f cell)) 0 ∧
      (racks.filterMap fun rack => placed.cells rack.id).foldl
        (fun top cell => max top (f cell)) 0 + 3 < 2 ^ 53 := by
    intro f small
    obtain ⟨above, -, below⟩ := foldl_max f (racks.filterMap fun rack => placed.cells rack.id) 0
    have bound := below (2 ^ 53 - 4) (by norm_num) fun other member => by
      have few := small other (values other member)
      omega
    exact ⟨above, by omega⟩
  have columns := bounds IsoCell.x fun _ near => near.right
  have lines := bounds IsoCell.y fun _ near => near.bottom
  refine ⟨?_, sound.only, ⟨sound.distinct, ?_⟩, ⟨?_, ?_⟩, sound.free, ?_⟩
  · intro rack known
    obtain ⟨group, member, home⟩ := (mem_groupRacksByGroup toLocaleLowerCase racks).mpr known
    obtain ⟨index, at_index⟩ := getElem?_of_mem member
    have placed' := filled (group, index) (mk_mem_zipIdx_iff_getElem?.mpr at_index) rack home
    exact Option.ne_none_iff_exists'.mp placed'
  · intro id cell at_id
    have near := sound.near id cell at_id
    obtain ⟨rack, known, rfl⟩ := sound.only id cell at_id
    have member : cell ∈ racks.filterMap fun rack => placed.cells rack.id :=
      mem_filterMap.mpr ⟨rack, known, at_id⟩
    have has : decide (0 < racks.length) = true := decide_eq_true (length_pos_of_mem known)
    rw [has]
    refine ⟨near.left, lt_of_le_of_lt ?_ (gridSide_gt columns.1 columns.2), near.top,
      lt_of_le_of_lt ?_ (gridSide_gt lines.1 lines.2)⟩
    · exact (foldl_max IsoCell.x _ 0).2.1 cell member
    · exact (foldl_max IsoCell.y _ 0).2.1 cell member
  · exact gridSide_bounds (by decide) columns.1 columns.2
  · exact gridSide_bounds (by decide) lines.1 lines.2
  · intro front rack back point split wish free others
    apply later
    refine storedAll.kept front rack back point split wish free fun earlier early placed_ => ?_
    intro taken
    exact others earlier early placed_ (later _ _ taken)

lemma moveIsoRack_laws {layout : IsoLayout} (grid : layout.Sized)
    (tiled : Tiled layout layout.cells) (rackId : List Char) (target : Point) :
    MoveLaws layout rackId target (moveIsoRack layout rackId target) := by
  cases at_start : layout.cells rackId with
  | none =>
    have same : moveIsoRack layout rackId target = layout.cells := by rw [moveIsoRack, at_start]
    rw [same]
    refine ⟨tiled, fun _ _ _ _ has => absurd at_start has, ?_, fun _ => Iff.rfl⟩
    exact fun id _ changed => absurd rfl changed
  | some start =>
    obtain ⟨⟨wide, wide'⟩, deep, deep'⟩ := grid
    rw [isoMinCols] at wide
    rw [isoMinRows] at deep
    have right : number (layout.cols - 1) = layout.cols - 1 := number_exact (by omega)
    have bottom : number (layout.rows - 1) = layout.rows - 1 := number_exact (by omega)
    obtain ⟨goal, at_goal⟩ : ∃ goal : IsoCell, goal =
        ⟨min (layout.cols - 1) (max 0 (round target.x)),
          min (layout.rows - 1) (max 0 (round target.y))⟩ := ⟨_, rfl⟩
    have covered : layout.Covers goal := by
      rw [at_goal]
      refine ⟨?_, ?_, ?_, ?_⟩
      · exact le_min (by omega) (le_max_left _ _)
      · exact lt_of_le_of_lt (min_le_left _ _) (by omega)
      · exact le_min (by omega) (le_max_left _ _)
      · exact lt_of_le_of_lt (min_le_left _ _) (by omega)
    have same : moveIsoRack layout rackId target = update (fun id =>
        if id ≠ rackId ∧ layout.cells id = some goal then some start else layout.cells id)
        rackId (some goal) := by
      rw [moveIsoRack, at_start]
      simp only [right, bottom, ← at_goal]
    have moved : moveIsoRack layout rackId target rackId = some goal := by rw [same, update_self]
    have others : ∀ id, id ≠ rackId → moveIsoRack layout rackId target id =
        if layout.cells id = some goal then some start else layout.cells id := by
      intro id other
      rw [same, update_of_ne other]
      simp [other]
    -- where a cell of the new assignment comes from
    have origin : ∀ id cell, moveIsoRack layout rackId target id = some cell →
        (id = rackId ∧ cell = goal) ∨
        (id ≠ rackId ∧ cell = start ∧ layout.cells id = some goal) ∨
        (id ≠ rackId ∧ cell ≠ goal ∧ layout.cells id = some cell) := by
      intro id cell at_id
      by_cases here : id = rackId
      · rw [here, moved] at at_id
        exact .inl ⟨here, (Option.some.inj at_id).symm⟩
      · rw [others id here] at at_id
        split_ifs at at_id with inWay
        · exact .inr (.inl ⟨here, (Option.some.inj at_id).symm, inWay⟩)
        · refine .inr (.inr ⟨here, ?_, at_id⟩)
          rintro rfl
          exact inWay at_id
    refine ⟨⟨fun a b cell at_a at_b => ?_, fun id cell at_id => ?_⟩, ?_, ?_, fun id => ?_⟩
    · rcases origin a cell at_a with ⟨rfl, rfl⟩ | ⟨notA, rfl, wayA⟩ | ⟨notA, offA, oldA⟩
      · rcases origin b _ at_b with ⟨rfl, -⟩ | ⟨notB, onGoal, wayB⟩ | ⟨-, offB, -⟩
        · rfl
        · rw [onGoal] at wayB
          exact tiled.distinct _ _ _ at_start wayB
        · exact absurd rfl offB
      · rcases origin b _ at_b with ⟨rfl, onGoal⟩ | ⟨notB, -, wayB⟩ | ⟨notB, offB, oldB⟩
        · rw [← onGoal] at wayA
          exact tiled.distinct _ _ _ wayA at_start
        · exact tiled.distinct _ _ _ wayA wayB
        · exact absurd (tiled.distinct _ _ _ oldB at_start) notB
      · rcases origin b _ at_b with ⟨-, onGoal⟩ | ⟨notB, onStart, -⟩ | ⟨-, -, oldB⟩
        · exact absurd onGoal offA
        · rw [onStart] at oldA
          exact absurd (tiled.distinct _ _ _ oldA at_start) notA
        · exact tiled.distinct _ _ _ oldA oldB
    · rcases origin id cell at_id with ⟨-, rfl⟩ | ⟨-, rfl, -⟩ | ⟨-, -, old⟩
      · exact covered
      · exact tiled.inside _ _ at_start
      · exact tiled.inside _ _ old
    · intro wish onX onY inGrid _
      obtain ⟨left, right', top, bottom'⟩ := inGrid
      rw [moved, at_goal, ← onX, ← onY, max_eq_right left, max_eq_right top,
        min_eq_right (by omega), min_eq_right (by omega)]
    · intro id other changed
      rw [others id other] at changed ⊢
      split_ifs at changed ⊢ with inWay
      · exact ⟨at_start.symm, inWay.trans moved.symm⟩
      · exact absurd rfl changed
    · by_cases here : id = rackId
      · rw [here, moved, at_start]
        simp
      · rw [others id here]
        split_ifs with inWay
        · simp [inWay]
        · exact Iff.rfl

/-- The layout of a room, and what moving a rack does to it. -/
theorem room_layout (toLocaleLowerCase : List Char → List Char) (racks : List Rack)
    (placement : List Char → Option Point) (reservedCells : List IsoCell)
    (ids : (racks.map Rack.id).Nodup) (exact_ : Exact racks placement reservedCells) (fuel : Nat)
    (enough : racks.length + reservedCells.length < fuel) :
    ∃ layout, resolveIsoLayout toLocaleLowerCase fuel racks placement reservedCells = some layout ∧
      LayoutLaws racks placement reservedCells layout ∧
      ∀ rackId target, MoveLaws layout rackId target (moveIsoRack layout rackId target) := by
  obtain ⟨layout, resolved, laws⟩ := resolveIsoLayout_returns ids exact_ enough
  exact ⟨layout, resolved, laws, moveIsoRack_laws laws.grid laws.tiled⟩

def rackNamed (id : Char) : Rack :=
  ⟨[id], [], 42, 1000⟩

/-- Two racks are stored in one cell, and a third one in the cell beside it. -/
def crowded : List Char → Option Point
  | ['a'] => some ⟨0, 0⟩
  | ['b'] => some ⟨0, 0⟩
  | ['c'] => some ⟨1, 0⟩
  | _ => none

theorem crowded_layout : ∃ layout, resolveIsoLayout id 4 [rackNamed 'a', rackNamed 'b',
      rackNamed 'c'] crowded [] = some layout ∧
    LayoutLaws [rackNamed 'a', rackNamed 'b', rackNamed 'c'] crowded [] layout ∧
      ∀ rackId target, MoveLaws layout rackId target (moveIsoRack layout rackId target) := by
  refine room_layout id _ crowded [] (by decide) ⟨by decide, ?_⟩ 4 (by decide)
  intro rack known point wish
  simp only [mem_cons, not_mem_nil, or_false] at known
  rcases known with rfl | rfl | rfl <;> cases wish <;> decide +kernel

/-- The third rack is moved on although its cell is nobody else's; and the search for a cell does
not end where the next coordinate is no number. -/
theorem crowded_slides :
    (resolveIsoLayout id 4 [rackNamed 'a', rackNamed 'b', rackNamed 'c'] crowded []).map
        (fun layout => layout.cells ['c']) = some (some ⟨2, 0⟩) ∧
      ∀ fuel, resolveIsoLayout id fuel [rackNamed 'a'] (fun _ => some ⟨2 ^ 53, 0⟩)
        [⟨2 ^ 53, 0⟩] = none := by
  refine ⟨by decide +kernel, fun fuel => ?_⟩
  have start : sanitizeCell ⟨2 ^ 53, 0⟩ = ⟨2 ^ 53, 0⟩ := by decide +kernel
  have stuck : number (2 ^ 53 + 1) = 2 ^ 53 := by decide +kernel
  have endless : slide [⟨2 ^ 53, 0⟩] fuel ⟨2 ^ 53, 0⟩ = none := by
    refine Probing.probe_endless (fun j => ?_) fuel
    rw [iterate_fixed (by rw [stuck])]
    exact mem_singleton_self _
  have first : [rackNamed 'a'].foldlM (placeStored fuel fun _ => some ⟨2 ^ 53, 0⟩)
      ⟨fun _ => none, [⟨2 ^ 53, 0⟩]⟩ = none := by
    rw [foldlM_cons, placeStored]
    simp only [start, endless]
    rfl
  rw [resolveIsoLayout, first]
  rfl

end Layout

end ItOps.Room
