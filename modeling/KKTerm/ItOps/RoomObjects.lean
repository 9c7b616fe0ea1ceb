import KKTerm.ItOps.RoomLayout
import KKTerm.Library.Settling

/-!
# The objects of a room

An object stands in a cell at a level. What is in its way are the spans of the racks and
objects whose footprints overlap its own; a wall takes its cell for itself. Saved objects
are settled again from the bottom up.
-/

namespace ItOps.Room

open Settling

structure RoomObject where
  id : List Char
  kind : RoomObjectKind
  x : Int
  y : Int
  /-- The bottom of the object, in units above the floor. -/
  z : Int
  rot : Facing
  corner : Corner
  deriving DecidableEq

def RoomObject.cell (object : RoomObject) : IsoCell :=
  ⟨object.x, object.y⟩

/-- A value as far as the checks tell values apart; numbers are finite. -/
inductive Payload where
  | text (value : List Char)
  | number (value : ℚ)
  | other

structure RawObject where
  id : Payload
  kind : Payload
  x : Payload
  y : Payload
  z : Payload
  rot : Payload
  corner : Payload

def kindName : RoomObjectKind → String
  | .camera => "camera"
  | .aircon => "aircon"
  | .fireExtinguisher => "fireExtinguisher"
  | .ups => "ups"
  | .sensor => "sensor"
  | .smokeDetector => "smokeDetector"
  | .crashCart => "crashCart"
  | .wall => "wall"
  | .kuaikuai => "kuaikuai"

def roomObjectKinds : List RoomObjectKind :=
  [.camera, .aircon, .fireExtinguisher, .ups, .sensor, .smokeDetector, .crashCart, .wall, .kuaikuai]

def sanitizeTurn : Payload → Fin 4
  | .number value => if value = 1 then 1 else if value = 2 then 2 else if value = 3 then 3 else 0
  | _ => 0

def sanitizeRoomObject (raw : RawObject) : Option RoomObject :=
  match raw.id, raw.kind, raw.x, raw.y, raw.z with
  | .text id, .text kind, .number x, .number y, .number z =>
    (roomObjectKinds.find? fun known => (kindName known).toList = kind).map fun kind =>
      { id := id
        kind := kind
        x := max 0 (number (round x))
        y := max 0 (number (round y))
        z := min (roomCeilingU - 1) (max 0 (number (round z)))
        rot := sanitizeTurn raw.rot
        corner := sanitizeTurn raw.corner }
  | _, _, _, _, _ => none

/-- An entry that is no object at all is none. -/
def sanitizeRoomObjects (raw : List (Option RawObject)) : List RoomObject :=
  raw.filterMap fun entry => entry.bind sanitizeRoomObject

def rectsOverlap (a b : CellRect) : Bool :=
  decide (a.x < b.x + b.w ∧ b.x < a.x + a.w ∧ a.y < b.y + b.d ∧ b.y < a.y + a.d)

def objectCoversCell (object : RoomObject) (cell : IsoCell) : Bool :=
  let span := objectCellSpan object.kind object.rot
  decide (object.x ≤ cell.x ∧ cell.x < number (object.x + span.w) ∧
    object.y ≤ cell.y ∧ cell.y < number (object.y + span.h))

/-- The racks of a room with their cells and facings. -/
structure Cabinets where
  racks : List Rack
  rackCells : List Char → Option IsoCell
  rackFacing : List Char → Option Facing

def wallOccupiesCell (cell : IsoCell) (objects : List RoomObject) (excludeObjectId : List Char) :
    Bool :=
  objects.any fun object =>
    object.id ≠ excludeObjectId && object.kind = .wall && objectCoversCell object cell

def rackSpan (rack : Rack) : Span :=
  ⟨0, min roomCeilingU (max 1 rack.heightU)⟩

def rackRect (room : Cabinets) (rack : Rack) : CellRect :=
  rackFootprint ((room.rackFacing rack.id).getD 0) (rackDepthFrac rack.depthMm)

def objectSpan (object : RoomObject) : Span :=
  ⟨object.z, object.z + (objectSpec object.kind).heightU⟩

/-- The footprint of an object from the corner of a cell. -/
def localRect (object : RoomObject) (cell : IsoCell) : CellRect :=
  let rect := objectFootprint object.kind object.rot object.corner
  { rect with
    x := rect.x - (cell.x - object.x : Int)
    y := rect.y - (cell.y - object.y : Int) }

def cellSpans (cell : IsoCell) (room : Cabinets) (objects : List RoomObject)
    (excludeObjectId : List Char) (objectRect : CellRect) : List Span :=
  (room.racks.filter fun rack =>
      room.rackCells rack.id = some cell && rectsOverlap objectRect (rackRect room rack)).map
    rackSpan ++
  (objects.filter fun object => object.id ≠ excludeObjectId && objectCoversCell object cell &&
      rectsOverlap objectRect (localRect object cell)).map objectSpan

/-- Whether nothing else may stand in the cell. -/
def wholeCellReserved (target : IsoCell) (kind : RoomObjectKind) (room : Cabinets)
    (objects : List RoomObject) (excludeObjectId : List Char) : Bool :=
  if kind = .wall then
    (room.racks.any fun rack => room.rackCells rack.id = some target) ||
      objects.any fun object => object.id ≠ excludeObjectId && objectCoversCell object target
  else wallOccupiesCell target objects excludeObjectId

def footprintSpans (cell : IsoCell) (kind : RoomObjectKind) (rot : Facing) (room : Cabinets)
    (objects : List RoomObject) (excludeObjectId : List Char) (corner : Corner) : List Span :=
  let span := objectCellSpan kind rot
  let rect := objectFootprint kind rot corner
  (List.range span.h.toNat).flatMap fun (dy : Nat) =>
    (List.range span.w.toNat).flatMap fun (dx : Nat) =>
      let target : IsoCell := ⟨number (cell.x + dx), number (cell.y + dy)⟩
      if wholeCellReserved target kind room objects excludeObjectId then [⟨0, roomCeilingU⟩]
      else cellSpans target room objects excludeObjectId
        { rect with x := rect.x - dx, y := rect.y - dy }

def fitsAt (spans : List Span) (z heightU : Int) : Bool :=
  fits roomCeilingU spans z heightU

/-- A preferred level is an integer already. -/
def resolveDropZ (spans : List Span) (kind : RoomObjectKind) (preferred : Option Int) :
    Option Int :=
  let spec := objectSpec kind
  let supports := (spans.map Span.z1).insertionSort (· ≤ ·)
  let candidates := match spec.defaultZ with
    | .level wanted => preferred.toList ++ wanted :: (supports ++ [0])
    | .floor => 0 :: supports
    | .stack => 0 :: supports
  candidates.find? (fitsAt spans · spec.heightU)

/-- `Map.set`. -/
def setById (settled : List RoomObject) (object : RoomObject) : List RoomObject :=
  if settled.any (·.id = object.id) then
    settled.map fun other => if other.id = object.id then object else other
  else settled ++ [object]

/-- The level of an object among those that have settled. -/
def settledLevel (room : Cabinets) (settled : List RoomObject) (object : RoomObject) : Option Int :=
  resolveDropZ (footprintSpans object.cell object.kind object.rot room settled object.id
    object.corner) object.kind (some object.z)

def settleNext (room : Cabinets) (settled : List RoomObject) (object : RoomObject) :
    List RoomObject :=
  setById settled (match settledLevel room settled object with
    | none => object
    | some z => if z = object.z then object else { object with z := z })

/-- From the bottom up, and in the given order on one level. -/
def settleOrder (objects : List RoomObject) : List RoomObject :=
  (objects.zipIdx.insertionSort fun a b => a.1.z < b.1.z ∨ a.1.z = b.1.z ∧ a.2 ≤ b.2).map Prod.fst

def settleAll (room : Cabinets) (objects : List RoomObject) : List RoomObject :=
  (settleOrder objects).foldl (settleNext room) []

def settledById (room : Cabinets) (objects : List RoomObject) (object : RoomObject) : RoomObject :=
  ((settleAll room objects).find? (·.id = object.id)).getD object

def settleRoomObjects (room : Cabinets) (objects : List RoomObject) : List RoomObject :=
  objects.map (settledById room objects)

-- a pack stands on the cabinet below it, another one on the floor beside it
end ItOps.Room
