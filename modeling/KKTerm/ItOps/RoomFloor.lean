import KKTerm.Library.QuarterTurn
import Mathlib.Data.Rat.Floor

/-!
# The floor of a server room

Racks and objects stand on the cells of a grid. What they cover of a cell is a rectangle
in fractions of the cell; lengths are exact rationals.
-/

namespace ItOps.Room

structure IsoCell where
  x : Int
  y : Int
  deriving DecidableEq

structure Point where
  x : ℚ
  y : ℚ
  deriving DecidableEq

structure CellRect where
  x : ℚ
  y : ℚ
  w : ℚ
  d : ℚ
  deriving DecidableEq

/-- Quarter turns: 0 is towards +y, 1 towards -x, 2 towards -y, 3 towards +x. -/
abbrev Facing := Fin 4

instance facingNeZero : NeZero 4 :=
  ⟨by decide⟩

/-- The quadrants of a cell, clockwise from the one next to the origin. -/
abbrev Corner := Fin 4

/-- What the views of a room read of a rack. -/
structure Rack where
  id : List Char
  rackGroup : List Char
  heightU : Int
  depthMm : ℚ

def cellDepthMm : ℚ := 1200

def minRackDepthFrac : ℚ := 1 / 4

def rackDepthFrac (depthMm : ℚ) : ℚ :=
  if depthMm ≤ 0 then 1 else min 1 (max minRackDepthFrac (depthMm / cellDepthMm))

def rackFootprint (facing : Facing) (frac : ℚ) : CellRect :=
  match facing with
  | 1 => ⟨0, 0, frac, 1⟩
  | 2 => ⟨0, 0, 1, frac⟩
  | 3 => ⟨1 - frac, 0, frac, 1⟩
  | 0 => ⟨0, 1 - frac, 1, frac⟩

lemma rackDepthFrac_nonneg (depthMm : ℚ) : 0 ≤ rackDepthFrac depthMm := by
  rw [rackDepthFrac]
  split_ifs with shallow
  · exact zero_le_one
  · have least : 0 ≤ minRackDepthFrac := by norm_num [minRackDepthFrac]
    exact le_min zero_le_one (least.trans (le_max_left _ _))

def roomCeilingU : Int := 58

inductive RoomObjectKind where
  | camera
  | aircon
  | fireExtinguisher
  | ups
  | sensor
  | smokeDetector
  | crashCart
  | wall
  | kuaikuai
  deriving DecidableEq

inductive DefaultZ where
  | level (z : Int)
  | floor
  | stack
  deriving DecidableEq

structure RoomObjectSpec where
  heightU : Int
  defaultZ : DefaultZ
  wide : ℚ
  deep : ℚ
  quarter : Bool := false

def objectSpec : RoomObjectKind → RoomObjectSpec
  | .camera => ⟨3, .level 52, 34 / 100, 34 / 100, true⟩
  | .aircon => ⟨46, .floor, 94 / 100, 62 / 100, false⟩
  | .fireExtinguisher => ⟨7, .floor, 28 / 100, 28 / 100, true⟩
  | .ups => ⟨12, .floor, 6 / 10, 6 / 10, false⟩
  | .sensor => ⟨2, .level 40, 24 / 100, 24 / 100, true⟩
  | .smokeDetector => ⟨1, .level (roomCeilingU - 1), 3 / 10, 3 / 10, true⟩
  | .crashCart => ⟨22, .floor, 56 / 100, 44 / 100, false⟩
  | .wall => ⟨54, .floor, 1, 125 / 1000, false⟩
  | .kuaikuai => ⟨2, .stack, 36 / 100, 28 / 100, true⟩

structure CellSpan where
  w : Int
  h : Int
  deriving DecidableEq

def objectCellSpan (kind : RoomObjectKind) (rot : Facing) : CellSpan :=
  let spec := objectSpec kind
  if spec.quarter then ⟨1, 1⟩
  else
    let across := rot.val % 2 = 1
    ⟨max 1 ⌈if across then spec.deep else spec.wide⌉,
      max 1 ⌈if across then spec.wide else spec.deep⌉⟩

def objectFootprint (kind : RoomObjectKind) (rot : Facing) (corner : Corner) : CellRect :=
  let spec := objectSpec kind
  let across := rot.val % 2 = 1
  let w := if across then spec.deep else spec.wide
  let d := if across then spec.wide else spec.deep
  if spec.quarter then
    let qx : ℚ := if corner = 1 ∨ corner = 2 then 1 / 2 else 0
    let qy : ℚ := if 2 ≤ corner then 1 / 2 else 0
    ⟨qx + (1 / 2 - w) / 2, qy + (1 / 2 - d) / 2, w, d⟩
  else
    let span := objectCellSpan kind rot
    ⟨(span.w - w) / 2, (span.h - d) / 2, w, d⟩

lemma ceil_of_le_one {r : ℚ} (pos : 0 < r) (small : r ≤ 1) : ⌈r⌉ = 1 := by
  rw [Int.ceil_eq_iff]
  simpa using And.intro pos small

variable (kind : RoomObjectKind)

lemma spec_sizes :
    (0 < (objectSpec kind).wide ∧ (objectSpec kind).wide ≤ 1) ∧
      0 < (objectSpec kind).deep ∧ (objectSpec kind).deep ≤ 1 := by
  cases kind <;> simp only [objectSpec] <;> norm_num

lemma objectCellSpan_eq (rot : Facing) : objectCellSpan kind rot = ⟨1, 1⟩ := by
  obtain ⟨⟨wide, wide'⟩, deep, deep'⟩ := spec_sizes kind
  by_cases quarter : (objectSpec kind).quarter = true
  · simp [objectCellSpan, quarter]
  · by_cases across : rot.val % 2 = 1
    · simp [objectCellSpan, quarter, across, ceil_of_le_one wide wide', ceil_of_le_one deep deep']
    · simp [objectCellSpan, quarter, across, ceil_of_le_one wide wide', ceil_of_le_one deep deep']

lemma heightU_pos : 0 < (objectSpec kind).heightU := by
  cases kind <;> decide

end ItOps.Room

/-!
# A room seen from its four corners

The camera does not move: the room is turned below it. Points, cells, rectangles, directions
and displacements are turned by formulas of their own, each of which grows by one quarter
turn with the angle.
-/

namespace ItOps.Room

open QuarterTurn Prod

/-- Quarter turns of the room under the camera. -/
abbrev IsoViewAngle := Fin 4

structure GridSize where
  cols : Int
  rows : Int
  deriving DecidableEq

structure Displacement (R : Type) where
  dx : R
  dy : R
  deriving DecidableEq

def viewGridSize (size : GridSize) (angle : IsoViewAngle) : GridSize :=
  if angle.val % 2 = 0 then size else ⟨size.rows, size.cols⟩

def rotateCellForView (cell : IsoCell) (angle : IsoViewAngle) (size : GridSize) : IsoCell :=
  match angle with
  | 1 => ⟨size.rows - 1 - cell.y, cell.x⟩
  | 2 => ⟨size.cols - 1 - cell.x, size.rows - 1 - cell.y⟩
  | 3 => ⟨cell.y, size.cols - 1 - cell.x⟩
  | 0 => cell

def rotatePointForView (point : Point) (angle : IsoViewAngle) (size : GridSize) : Point :=
  match angle with
  | 1 => ⟨size.rows - point.y, point.x⟩
  | 2 => ⟨size.cols - point.x, size.rows - point.y⟩
  | 3 => ⟨point.y, size.cols - point.x⟩
  | 0 => point

/-- The box around the four turned corners. -/
def rotateRectForView (rect : CellRect) (angle : IsoViewAngle) (size : GridSize) : CellRect :=
  let a := rotatePointForView ⟨rect.x, rect.y⟩ angle size
  let b := rotatePointForView ⟨rect.x + rect.w, rect.y⟩ angle size
  let c := rotatePointForView ⟨rect.x, rect.y + rect.d⟩ angle size
  let d := rotatePointForView ⟨rect.x + rect.w, rect.y + rect.d⟩ angle size
  let minX := min a.x (min b.x (min c.x d.x))
  let maxX := max a.x (max b.x (max c.x d.x))
  let minY := min a.y (min b.y (min c.y d.y))
  let maxY := max a.y (max b.y (max c.y d.y))
  ⟨minX, minY, maxX - minX, maxY - minY⟩

def rotateFacingForView (facing : Facing) (angle : IsoViewAngle) : Facing :=
  facing + angle

def viewDeltaToGrid {R : Type} [Neg R] (delta : Displacement R) (angle : IsoViewAngle) :
    Displacement R :=
  match angle with
  | 1 => ⟨delta.dy, -delta.dx⟩
  | 2 => ⟨-delta.dx, -delta.dy⟩
  | 3 => ⟨-delta.dy, delta.dx⟩
  | 0 => delta

section Turns
variable {size : GridSize} {cell cell' : IsoCell} {rect : CellRect} {angle : IsoViewAngle}

def GridSize.turn (size : GridSize) : GridSize :=
  ⟨size.rows, size.cols⟩

def turnCell (s : GridSize × IsoCell) : GridSize × IsoCell :=
  (s.1.turn, ⟨s.1.rows - 1 - s.2.y, s.2.x⟩)

def turnPoint (s : GridSize × Point) : GridSize × Point :=
  (s.1.turn, ⟨s.1.rows - s.2.y, s.2.x⟩)

def turnRect (s : GridSize × CellRect) : GridSize × CellRect :=
  (s.1.turn, ⟨s.1.rows - s.2.y - s.2.d, s.2.x, s.2.d, s.2.w⟩)

/-- A rectangle in a cell that is turned. -/
def turnUnit (rect : CellRect) : CellRect :=
  ⟨1 - rect.y - rect.d, rect.x, rect.d, rect.w⟩

def viewCell (angle : IsoViewAngle) (s : GridSize × IsoCell) : GridSize × IsoCell :=
  (viewGridSize s.1 angle, rotateCellForView s.2 angle s.1)

def viewPoint (angle : IsoViewAngle) (s : GridSize × Point) : GridSize × Point :=
  (viewGridSize s.1 angle, rotatePointForView s.2 angle s.1)

lemma turnCell_four (s : GridSize × IsoCell) :
    turnCell (turnCell (turnCell (turnCell s))) = s := by
  simp [turnCell, GridSize.turn]

lemma viewCell_family : Family turnCell viewCell where
  zero s := rfl
  one s := rfl
  two s := by simp [viewCell, turnCell, viewGridSize, rotateCellForView, GridSize.turn]
  three s := by simp [viewCell, turnCell, viewGridSize, rotateCellForView, GridSize.turn]

lemma turnPoint_four (s : GridSize × Point) :
    turnPoint (turnPoint (turnPoint (turnPoint s))) = s := by
  simp [turnPoint, GridSize.turn]

lemma viewPoint_family : Family turnPoint viewPoint where
  zero s := rfl
  one s := rfl
  two s := by simp [viewPoint, turnPoint, viewGridSize, rotatePointForView, GridSize.turn]
  three s := by simp [viewPoint, turnPoint, viewGridSize, rotatePointForView, GridSize.turn]

def spun (angle : IsoViewAngle) (s : GridSize × CellRect) : GridSize × CellRect :=
  (viewGridSize s.1 angle,
    match angle with
    | 1 => ⟨s.1.rows - s.2.y - s.2.d, s.2.x, s.2.d, s.2.w⟩
    | 2 => ⟨s.1.cols - s.2.x - s.2.w, s.1.rows - s.2.y - s.2.d, s.2.w, s.2.d⟩
    | 3 => ⟨s.2.y, s.1.cols - s.2.x - s.2.w, s.2.d, s.2.w⟩
    | 0 => s.2)

lemma spun_family : Family turnRect spun where
  zero s := rfl
  one s := rfl
  two s := by simp [spun, turnRect, viewGridSize, GridSize.turn]
  three s := by
    simp only [spun, turnRect, viewGridSize, GridSize.turn, mk.injEq, CellRect.mk.injEq]
    simp
    ring

section Box
variable {lo hi : ℚ}

lemma box_alternating (h : lo ≤ hi) :
    min lo (min hi (min lo hi)) = lo ∧ max lo (max hi (max lo hi)) = hi := by
  simp [h]

lemma box_alternating_back (h : lo ≤ hi) :
    min hi (min lo (min hi lo)) = lo ∧ max hi (max lo (max hi lo)) = hi := by
  simp [h]

lemma box_paired (h : lo ≤ hi) :
    min lo (min lo (min hi hi)) = lo ∧ max lo (max lo (max hi hi)) = hi := by
  simp [h]

lemma box_paired_back (h : lo ≤ hi) :
    min hi (min hi (min lo lo)) = lo ∧ max hi (max hi (max lo lo)) = hi := by
  simp [h]

end Box

lemma rotateRectForView_eq (size : GridSize) (angle : IsoViewAngle) (wide : 0 ≤ rect.w) (deep : 0 ≤ rect.d) :
    rotateRectForView rect angle size = (spun angle (size, rect)).2 := by
  have right : rect.x ≤ rect.x + rect.w := by linarith
  have below : rect.y ≤ rect.y + rect.d := by linarith
  have left : size.cols - (rect.x + rect.w) ≤ size.cols - rect.x := by linarith
  have above : size.rows - (rect.y + rect.d) ≤ size.rows - rect.y := by linarith
  match angle with
  | 0 =>
    simp only [rotateRectForView, rotatePointForView, spun, box_alternating right, box_paired below]
    simp
  | 1 =>
    simp only [rotateRectForView, rotatePointForView, spun, box_paired_back above,
      box_alternating right, CellRect.mk.injEq]
    refine ⟨by ring, trivial, by ring, by ring⟩
  | 2 =>
    simp only [rotateRectForView, rotatePointForView, spun, box_alternating_back left,
      box_paired_back above, CellRect.mk.injEq]
    refine ⟨by ring, by ring, by ring, by ring⟩
  | 3 =>
    simp only [rotateRectForView, rotatePointForView, spun, box_paired below,
      box_alternating_back left, CellRect.mk.injEq]
    refine ⟨trivial, by ring, by ring, by ring⟩

/-- A rectangle in a cell, on the floor. -/
def CellRect.onFloor (rect : CellRect) (cell : IsoCell) : CellRect :=
  { rect with x := cell.x + rect.x, y := cell.y + rect.y }

/-- A footprint in a turned cell is the turned footprint. -/
lemma turnRect_onFloor (size : GridSize) (cell : IsoCell) (rect : CellRect) :
    (turnRect (size, rect.onFloor cell)).2 =
      (turnUnit rect).onFloor (turnCell (size, cell)).2 := by
  simp only [turnRect, turnUnit, turnCell, CellRect.onFloor, CellRect.mk.injEq]
  refine ⟨?_, trivial, trivial, trivial⟩
  push_cast
  ring

/-- Turning the room turns the cells and what stands in them. -/
lemma spun_onFloor (a : Fin 4) (size : GridSize) (cell : IsoCell) (rect : CellRect) :
    (spun a (size, rect.onFloor cell)).2 =
      (turned turnUnit a rect).onFloor (viewCell a (size, cell)).2 := by
  let place : (GridSize × IsoCell) × CellRect → GridSize × CellRect :=
    fun s => (s.1.1, s.2.onFloor s.1.2)
  have commutes : ∀ s, place (map turnCell turnUnit s) = turnRect (place s) := by
    rintro ⟨⟨size, cell⟩, rect⟩
    exact Prod.ext rfl (turnRect_onFloor size cell rect).symm
  have whole := turned_commutes commutes a ((size, cell), rect)
  rw [turned, map_iterate] at whole
  rw [spun_family.eq_turned, viewCell_family.eq_turned]
  exact (congrArg snd whole).symm

variable (facing : Facing) (frac : ℚ) (rot : Facing) (corner : Corner) (kind : RoomObjectKind)

lemma rackFootprint_turn :
    rackFootprint (facing + 1) frac = turnUnit (rackFootprint facing frac) := by
  match facing with
  | 0 => simp [rackFootprint, turnUnit]
  | 1 => simp [rackFootprint, turnUnit]
  | 2 => simp [rackFootprint, turnUnit]
  | 3 => simp [rackFootprint, turnUnit]

lemma across_turn : (rot + 1).val % 2 = 1 ↔ ¬ rot.val % 2 = 1 := by
  omega

lemma quadrant_turn :
    (if corner + 1 = 1 ∨ corner + 1 = 2 then (1 / 2 : ℚ) else 0) =
        1 / 2 - (if 2 ≤ corner then 1 / 2 else 0) ∧
      (if 2 ≤ corner + 1 then (1 / 2 : ℚ) else 0) =
        if corner = 1 ∨ corner = 2 then 1 / 2 else 0 := by
  match corner with
  | 0 => simp
  | 1 => simp
  | 2 => simp
  | 3 => simp

lemma objectFootprint_turn (rot : Facing) (corner : Corner) :
    objectFootprint kind (rot + 1) (corner + 1) = turnUnit (objectFootprint kind rot corner) := by
  obtain ⟨east, south⟩ := quadrant_turn corner
  by_cases across : rot.val % 2 = 1
  · have turned : ¬ (rot + 1).val % 2 = 1 := fun other => (across_turn rot).mp other across
    cases quarter : (objectSpec kind).quarter with
    | true =>
      simp only [objectFootprint, turnUnit, quarter, across, turned, if_true, if_false, east, south]
      simp
      ring
    | false =>
      simp only [objectFootprint, turnUnit, quarter, across, turned, objectCellSpan_eq]
      simp
      ring
  · have turned : (rot + 1).val % 2 = 1 := (across_turn rot).mpr across
    cases quarter : (objectSpec kind).quarter with
    | true =>
      simp only [objectFootprint, turnUnit, quarter, across, turned, if_true, if_false, east, south]
      simp
      ring
    | false =>
      simp only [objectFootprint, turnUnit, quarter, across, turned, objectCellSpan_eq]
      simp
      ring

lemma rackFootprint_view (angle : IsoViewAngle) :
    rackFootprint (rotateFacingForView facing angle) frac =
      turned turnUnit angle (rackFootprint facing frac) := by
  rw [rotateFacingForView, family_add_one.eq_turned]
  exact turned_commutes (f := (rackFootprint · frac)) (rackFootprint_turn · frac) angle facing

/-- A direction and a quadrant turn together. -/
def turnPlacing : Facing × Corner → Facing × Corner :=
  Prod.map (· + 1) (· + 1)

lemma turned_placing (angle : IsoViewAngle) :
    turned turnPlacing angle (rot, corner) =
      (rotateFacingForView rot angle, rotateFacingForView corner angle) := by
  rw [turned, turnPlacing, map_iterate, rotateFacingForView, rotateFacingForView,
    family_add_one.eq_turned angle rot, family_add_one.eq_turned angle corner]
  rfl

lemma objectFootprint_view (rot : Facing) (corner : Corner) (angle : IsoViewAngle) :
    objectFootprint kind (rotateFacingForView rot angle) (rotateFacingForView corner angle) =
      turned turnUnit angle (objectFootprint kind rot corner) := by
  let drawn (s : Facing × Corner) : CellRect := objectFootprint kind s.1 s.2
  have commutes : ∀ s, drawn (turnPlacing s) = turnUnit (drawn s) :=
    fun s => objectFootprint_turn kind s.1 s.2
  have whole := turned_commutes commutes angle (rot, corner)
  rw [turned_placing] at whole
  exact whole

end Turns

def GridSize.Holds (size : GridSize) (cell : IsoCell) : Prop :=
  0 ≤ cell.x ∧ cell.x < size.cols ∧ 0 ≤ cell.y ∧ cell.y < size.rows

def IsoCell.minus (cell origin : IsoCell) : Displacement Int :=
  ⟨cell.x - origin.x, cell.y - origin.y⟩

def Point.minus (point origin : Point) : Displacement ℚ :=
  ⟨point.x - origin.x, point.y - origin.y⟩

/-- The formulas agree with one another for a grid of this size. -/
structure ViewConsistent (size : GridSize) : Prop where
  lands : ∀ cell angle, size.Holds cell →
    (viewGridSize size angle).Holds (rotateCellForView cell angle size)
  sizes : ∀ a b, viewGridSize (viewGridSize size a) b = viewGridSize size (a + b)
  cells : ∀ cell a b,
    rotateCellForView (rotateCellForView cell a size) b (viewGridSize size a) =
      rotateCellForView cell (a + b) size
  points : ∀ point a b,
    rotatePointForView (rotatePointForView point a size) b (viewGridSize size a) =
      rotatePointForView point (a + b) size
  cellDeltas : ∀ cell origin angle,
    viewDeltaToGrid ((rotateCellForView cell angle size).minus
      (rotateCellForView origin angle size)) angle = cell.minus origin
  pointDeltas : ∀ point origin angle,
    viewDeltaToGrid ((rotatePointForView point angle size).minus
      (rotatePointForView origin angle size)) angle = point.minus origin
  racks : ∀ cell facing angle frac, 0 ≤ frac →
    rotateRectForView ((rackFootprint facing frac).onFloor cell) angle size =
      (rackFootprint (rotateFacingForView facing angle) frac).onFloor
        (rotateCellForView cell angle size)
  rackDepths : ∀ cell facing angle depthMm,
    rotateRectForView ((rackFootprint facing (rackDepthFrac depthMm)).onFloor cell) angle size =
      (rackFootprint (rotateFacingForView facing angle) (rackDepthFrac depthMm)).onFloor
        (rotateCellForView cell angle size)
  objects : ∀ cell kind rot corner angle,
    rotateRectForView ((objectFootprint kind rot corner).onFloor cell) angle size =
      (objectFootprint kind (rotateFacingForView rot angle)
        (rotateFacingForView corner angle)).onFloor (rotateCellForView cell angle size)

lemma lands_in_grid {size : GridSize} {cell : IsoCell} (angle : IsoViewAngle)
    (inside : size.Holds cell) :
    (viewGridSize size angle).Holds (rotateCellForView cell angle size) := by
  simp only [GridSize.Holds] at inside
  match angle with
  | 0 => exact inside
  | 1 =>
    simp only [GridSize.Holds, viewGridSize, rotateCellForView]
    simp
    omega
  | 2 =>
    simp only [GridSize.Holds, viewGridSize, rotateCellForView]
    simp
    omega
  | 3 =>
    simp only [GridSize.Holds, viewGridSize, rotateCellForView]
    simp
    omega

lemma cell_deltas (size : GridSize) (cell origin : IsoCell) (angle : IsoViewAngle) :
    viewDeltaToGrid ((rotateCellForView cell angle size).minus
      (rotateCellForView origin angle size)) angle = cell.minus origin := by
  match angle with
  | 0 => rfl
  | 1 => simp [rotateCellForView, viewDeltaToGrid, IsoCell.minus]
  | 2 => simp [rotateCellForView, viewDeltaToGrid, IsoCell.minus]
  | 3 => simp [rotateCellForView, viewDeltaToGrid, IsoCell.minus]

lemma point_deltas (size : GridSize) (point origin : Point) (angle : IsoViewAngle) :
    viewDeltaToGrid ((rotatePointForView point angle size).minus
      (rotatePointForView origin angle size)) angle = point.minus origin := by
  match angle with
  | 0 => rfl
  | 1 => simp [rotatePointForView, viewDeltaToGrid, Point.minus]
  | 2 => simp [rotatePointForView, viewDeltaToGrid, Point.minus]
  | 3 => simp [rotatePointForView, viewDeltaToGrid, Point.minus]

lemma rect_onFloor {rect : CellRect} (wide : 0 ≤ rect.w) (deep : 0 ≤ rect.d) (size : GridSize)
    (cell : IsoCell) (angle : IsoViewAngle) :
    rotateRectForView (rect.onFloor cell) angle size =
      (turned turnUnit angle rect).onFloor (rotateCellForView cell angle size) := by
  have inside : 0 ≤ (rect.onFloor cell).w ∧ 0 ≤ (rect.onFloor cell).d := ⟨wide, deep⟩
  calc rotateRectForView (rect.onFloor cell) angle size
    _ = (spun angle (size, rect.onFloor cell)).2 :=
        rotateRectForView_eq size angle inside.1 inside.2
    _ = _ := spun_onFloor angle size cell rect

lemma rack_sides {frac : ℚ} (positive : 0 ≤ frac) (facing : Facing) :
    0 ≤ (rackFootprint facing frac).w ∧ 0 ≤ (rackFootprint facing frac).d := by
  match facing with
  | 0 => exact ⟨zero_le_one, positive⟩
  | 1 => exact ⟨positive, zero_le_one⟩
  | 2 => exact ⟨zero_le_one, positive⟩
  | 3 => exact ⟨positive, zero_le_one⟩

lemma object_sides (kind : RoomObjectKind) (rot : Facing) (corner : Corner) :
    0 ≤ (objectFootprint kind rot corner).w ∧ 0 ≤ (objectFootprint kind rot corner).d := by
  obtain ⟨⟨wide, -⟩, deep, -⟩ := spec_sizes kind
  simp only [objectFootprint]
  split_ifs <;> exact ⟨by simp only []; positivity, by simp only []; positivity⟩

theorem view_consistent (size : GridSize) : ViewConsistent size where
  lands _ angle inside := lands_in_grid angle inside
  sizes a b := congrArg fst (viewCell_family.add turnCell_four a b (size, ⟨0, 0⟩)).symm
  cells cell a b := congrArg snd (viewCell_family.add turnCell_four a b (size, cell)).symm
  points point a b :=
    congrArg snd (viewPoint_family.add turnPoint_four a b (size, point)).symm
  cellDeltas := cell_deltas size
  pointDeltas := point_deltas size
  racks cell facing angle frac positive := by
    obtain ⟨wide, deep⟩ := rack_sides positive facing
    rw [rect_onFloor wide deep, rackFootprint_view]
  rackDepths cell facing angle depthMm := by
    obtain ⟨wide, deep⟩ := rack_sides (rackDepthFrac_nonneg depthMm) facing
    rw [rect_onFloor wide deep, rackFootprint_view]
  objects cell kind rot corner angle := by
    obtain ⟨wide, deep⟩ := object_sides kind rot corner
    rw [rect_onFloor wide deep, objectFootprint_view]

end ItOps.Room
