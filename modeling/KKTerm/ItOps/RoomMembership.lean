import KKTerm.ItOps.RackInvariant
import KKTerm.Library.Runs

/-!
# Racks and the rooms they stand in

A rack names its room. Renaming and deleting a room follow the exact spelling of
its name, while the check of a new rack's room ignores case and keeps the
spelling that was given.
-/

namespace ItOps

open Fallible List Text

/-- A rack of the room with the old name gets the new one. -/
def Rack.renameRoom (siteId : Id) (oldName name : List Char) (rack : Rack) : Rack :=
  if rack.siteId = siteId ∧ rack.serverRoom = oldName then { rack with serverRoom := name }
  else rack

def updateServerRoom (s : Store) (id : Id) (name floorColor : List Char) :
    Except StorageError (ServerRoom × Store) := do
  let name := Text.trim name
  reject (name = []) (.validation "server room name must not be empty")
  let floorColor ← validateFloorColor floorColor
  match s.rooms.find? (·.id = id) with
  | none => .error .notFound
  | some old =>
    reject (∃ room ∈ s.rooms, room.siteId = old.siteId ∧ room.id ≠ id ∧ sameNoCase room.name name)
      (.validation "a server room with that name already exists")
    pure ({ old with name, floorColor },
      { s with
        rooms := s.rooms.map
          (fun room => if room.id = id then { room with name, floorColor } else room)
        racks :=
          if old.name ≠ name then s.racks.map (Rack.renameRoom old.siteId old.name name)
          else s.racks })

/-- Delete racks; their devices go with them. -/
def Store.deleteRacks (s : Store) (gone : Rack → Prop) [DecidablePred gone] : Store :=
  { s with
    racks := s.racks.filter (fun rack => ¬ gone rack)
    items := s.items.filter (fun item => ¬ ∃ rack ∈ s.racks, gone rack ∧ rack.id = item.rackId) }

def deleteServerRoom (s : Store) (id : Id) : Except StorageError Store :=
  match s.rooms.find? (·.id = id) with
  | none => .error .notFound
  | some room =>
    let s := s.deleteRacks (fun rack => rack.siteId = room.siteId ∧ rack.serverRoom = room.name)
    .ok { s with rooms := s.rooms.filter (·.id ≠ id) }

def deleteRack (s : Store) (id : Id) : Except StorageError Store := do
  reject (id ∉ s.racks.map Rack.id) .notFound
  pure (s.deleteRacks (·.id = id))

inductive RoomCall where
  | topology (call : Call)
  | updateServerRoom (id : Id) (name floorColor : List Char)
  | deleteServerRoom (id : Id)
  | deleteRack (id : Id)

def RoomCall.apply (s : Store) : RoomCall → Except StorageError Store
  | topology call => call.apply s
  | updateServerRoom id name floorColor =>
    Prod.snd <$> ItOps.updateServerRoom s id name floorColor
  | deleteServerRoom id => ItOps.deleteServerRoom s id
  | deleteRack id => ItOps.deleteRack s id

/-- A call that fails leaves the tables as they are. -/
def Store.serve (s : Store) (call : RoomCall) : Option Store :=
  match call.apply s with
  | .ok s' => some s'
  | .error _ => some s

/-- A room of this site has exactly this name. -/
def Store.HasRoom (s : Store) (siteId : Id) (name : List Char) : Prop :=
  ∃ room ∈ s.rooms, room.siteId = siteId ∧ room.name = name

instance (s : Store) (siteId : Id) (name : List Char) : Decidable (s.HasRoom siteId name) :=
  inferInstanceAs (Decidable (∃ room ∈ s.rooms, _ ∧ _))

/-- Every rack stands in a room of its site. -/
structure Store.Roomed (s : Store) : Prop where
  roomIds : (s.rooms.map ServerRoom.id).Nodup
  rackIds : (s.racks.map Rack.id).Nodup
  members : ∀ rack ∈ s.racks, s.HasRoom rack.siteId rack.serverRoom

/-- The room of this name, if there is one, has exactly this name. -/
def Store.Spells (s : Store) (siteId : Id) (name : List Char) : Prop :=
  (∃ room ∈ s.rooms, room.siteId = siteId ∧ sameNoCase room.name (Text.trim name) = true) →
    s.HasRoom siteId (Text.trim name)

instance (s : Store) (siteId : Id) (name : List Char) : Decidable (s.Spells siteId name) :=
  inferInstanceAs (Decidable ((∃ room ∈ s.rooms, _ ∧ _) → _))

/-- A call that puts a rack into a room spells the room as it is stored. -/
def RoomCall.Spells (s : Store) : RoomCall → Prop
  | topology (.createRack _ siteId fields) => s.Spells siteId fields.serverRoom
  | topology (.updateRack id fields) | topology (.duplicateRack id fields _ _ _ _) =>
    ∀ old ∈ s.racks, old.id = id → s.Spells old.siteId fields.serverRoom
  | _ => True

instance (s : Store) : (call : RoomCall) → Decidable (call.Spells s)
  | .topology (.createRack _ siteId fields) =>
    inferInstanceAs (Decidable (s.Spells siteId fields.serverRoom))
  | .topology (.updateRack id _) | .topology (.duplicateRack id _ _ _ _ _) =>
    inferInstanceAs (Decidable (∀ old ∈ s.racks, old.id = id → s.Spells old.siteId _))
  | .topology (.createServerRoom ..) | .topology (.duplicateServerRoom ..)
  | .topology (.placeRackItemOnFace ..) | .topology (.updateRackItemOnFace ..)
  | .topology (.moveRackItemToFace ..) | .topology (.removeRackItem ..)
  | .updateServerRoom .. | .deleteServerRoom .. | .deleteRack .. => inferInstanceAs (Decidable True)

variable {s s' : Store}

lemma Store.HasRoom.mono {siteId : Id} {name : List Char} (h : s.HasRoom siteId name)
    (more : ∀ room ∈ s.rooms, room ∈ s'.rooms) : s'.HasRoom siteId name := by
  obtain ⟨room, member, here⟩ := h
  exact ⟨room, more room member, here⟩

lemma validateServerRoom_eq_ok {siteId : Id} {name name' : List Char}
    (h : validateServerRoom s siteId name = .ok name') (spells : s.Spells siteId name) :
    s.HasRoom siteId name' := by
  obtain ⟨_, h⟩ := reject_bind_ok.mp h
  obtain ⟨known, done⟩ := reject_bind_ok.mp h
  cases done
  exact spells (not_not.mp known)

lemma insertServerRoom_eq_ok {room : ServerRoom} (h : s.insertServerRoom room = .ok s') :
    room.id ∉ s.rooms.map ServerRoom.id ∧ s' = { s with rooms := s.rooms ++ [room] } := by
  obtain ⟨fresh, h⟩ := reject_bind_ok.mp h
  obtain ⟨_, h⟩ := reject_bind_ok.mp h
  obtain ⟨_, done⟩ := reject_bind_ok.mp h
  cases done
  exact ⟨fresh, rfl⟩

lemma cloneItems_tables {newIds : Nat → Id} {rackId : Id} {items : List RackItem} {n n' : Nat}
    (h : cloneItems newIds rackId items s n = .ok (s', n')) :
    s'.rooms = s.rooms ∧ s'.racks = s.racks := by
  refine foldlM_invariant (P := fun state => state.1.rooms = s.rooms ∧ state.1.racks = s.racks)
    ?_ h ⟨rfl, rfl⟩
  rintro ⟨before, n⟩ item ⟨after, n'⟩ - copied ⟨rooms, racks⟩
  obtain ⟨s₁, inserted, done⟩ := bind_eq_ok.mp copied
  cases done
  obtain ⟨_, rfl⟩ := insertItem_eq_ok inserted
  exact ⟨rooms, racks⟩

/-- The clone stands where the caller says; nothing else changes. -/
lemma insertRackClone_tables {newIds : Nat → Id} {source : Rack} {items : List RackItem}
    {duplicateId : Id} {duplicateName serverRoom : List Char} {preservePlacement : Bool}
    {n n' : Nat}
    (h : insertRackClone newIds source items duplicateId duplicateName serverRoom
      preservePlacement s n = .ok (s', n')) :
    s'.rooms = s.rooms ∧ ∃ clone : Rack, clone.siteId = source.siteId ∧
      clone.serverRoom = serverRoom ∧ clone.id ∉ s.racks.map Rack.id ∧
      s'.racks = s.racks ++ [clone] := by
  obtain ⟨s₁, inserted, cloned⟩ := bind_eq_ok.mp h
  obtain ⟨fresh, rfl⟩ := insertRack_eq_ok inserted
  obtain ⟨rooms, racks⟩ := cloneItems_tables cloned
  refine ⟨rooms, _, ?_, ?_, fresh, racks⟩
  · rfl
  · rfl

lemma Rack.renameRoom_id (siteId : Id) (oldName name : List Char) (rack : Rack) :
    (rack.renameRoom siteId oldName name).id = rack.id := by
  rw [Rack.renameRoom]
  split <;> rfl

lemma Rack.renameRoom_self (siteId : Id) (name : List Char) (rack : Rack) :
    rack.renameRoom siteId name name = rack := by
  by_cases inside : rack.siteId = siteId ∧ rack.serverRoom = name
  · rw [Rack.renameRoom, if_pos inside, ← inside.2]
  · rw [Rack.renameRoom, if_neg inside]

namespace Store.Roomed
variable (r : s.Roomed)
include r

lemma congr (rooms : s'.rooms = s.rooms) (racks : s'.racks = s.racks) : s'.Roomed where
  roomIds := rooms ▸ r.roomIds
  rackIds := racks ▸ r.rackIds
  members rack member := (r.members rack (racks ▸ member)).mono (fun _ here => rooms.symm ▸ here)

lemma addRack {rack : Rack} (fresh : rack.id ∉ s.racks.map Rack.id)
    (placed : s.HasRoom rack.siteId rack.serverRoom) :
    { s with racks := s.racks ++ [rack] }.Roomed where
  roomIds := r.roomIds
  rackIds := nodup_concat r.rackIds fresh
  members other member := by
    rcases mem_append.mp member with old | new
    · exact r.members other old
    · cases mem_singleton.mp new
      exact placed

/-- Racks change, but not their ids, and where one moves it moves to a room. -/
lemma mapRooms {g : ServerRoom → ServerRoom} {f : Rack → Rack}
    (g_id : ∀ room, (g room).id = room.id) (f_id : ∀ rack, (f rack).id = rack.id)
    (follows : ∀ rack ∈ s.racks, ∃ room ∈ s.rooms,
      (g room).siteId = (f rack).siteId ∧ (g room).name = (f rack).serverRoom) :
    { s with rooms := s.rooms.map g, racks := s.racks.map f }.Roomed where
  roomIds := by
    rw [map_map_key g_id]
    exact r.roomIds
  rackIds := by
    rw [map_map_key f_id]
    exact r.rackIds
  members rack' member := by
    obtain ⟨rack, home, rfl⟩ := mem_map.mp member
    obtain ⟨room, room_member, site, name⟩ := follows rack home
    exact ⟨g room, mem_map_of_mem room_member, site, name⟩

lemma mapRacks {f : Rack → Rack} (f_id : ∀ rack, (f rack).id = rack.id)
    (placed : ∀ rack ∈ s.racks, s.HasRoom (f rack).siteId (f rack).serverRoom) :
    { s with racks := s.racks.map f }.Roomed := by
  have moved := @mapRooms _ r id f (fun _ => rfl) f_id placed
  rwa [map_id] at moved

variable {room : ServerRoom} {id : Id} {name floorColor : List Char} {fields : RackFields}
  {newIds : Nat → Id} {item : RackItem}

lemma insertServerRoom (h : s.insertServerRoom room = .ok s') : s'.Roomed := by
  obtain ⟨fresh, rfl⟩ := insertServerRoom_eq_ok h
  constructor
  · exact nodup_concat r.roomIds fresh
  · exact r.rackIds
  · intro rack member
    exact (r.members rack member).mono (fun _ here => mem_append_left _ here)

lemma createServerRoom {siteId : Id}
    (h : createServerRoom s id siteId name floorColor = .ok (room, s')) : s'.Roomed := by
  obtain ⟨_, h⟩ := reject_bind_ok.mp h
  obtain ⟨_, _, h⟩ := bind_eq_ok.mp h
  obtain ⟨s₁, inserted, done⟩ := bind_eq_ok.mp h
  cases done
  exact r.insertServerRoom inserted

lemma createRack {siteId : Id} {rack : Rack} (spells : s.Spells siteId fields.serverRoom)
    (h : createRack s id siteId fields = .ok (rack, s')) : s'.Roomed := by
  obtain ⟨name, _, h⟩ := bind_eq_ok.mp h
  obtain ⟨serverRoom, known, h⟩ := bind_eq_ok.mp h
  obtain ⟨heightU, _, h⟩ := bind_eq_ok.mp h
  obtain ⟨depthMm, _, h⟩ := bind_eq_ok.mp h
  obtain ⟨powerCapacityW, _, h⟩ := bind_eq_ok.mp h
  obtain ⟨s₁, inserted, done⟩ := bind_eq_ok.mp h
  cases done
  obtain ⟨fresh, rfl⟩ := insertRack_eq_ok inserted
  exact r.addRack fresh (validateServerRoom_eq_ok known spells)

lemma updateRack {result : Rack × List RackItem}
    (spells : ∀ old ∈ s.racks, old.id = id → s.Spells old.siteId fields.serverRoom)
    (h : updateRack s id fields = .ok (result, s')) : s'.Roomed := by
  obtain ⟨name, _, h⟩ := bind_eq_ok.mp h
  obtain ⟨heightU, _, h⟩ := bind_eq_ok.mp h
  obtain ⟨depthMm, _, h⟩ := bind_eq_ok.mp h
  obtain ⟨powerCapacityW, _, h⟩ := bind_eq_ok.mp h
  obtain ⟨old, found, h⟩ := bind_eq_ok.mp h
  obtain ⟨serverRoom, known, h⟩ := bind_eq_ok.mp h
  obtain ⟨_, _, h⟩ := bind_eq_ok.mp h
  obtain ⟨_, _, done⟩ := bind_eq_ok.mp h
  cases done
  obtain ⟨home, rfl⟩ := fetchRow_eq_ok found
  have placed := validateServerRoom_eq_ok known (spells old home rfl)
  refine (r.mapRacks (fun rack => by split <;> rfl) (fun rack member => ?_)).congr rfl rfl
  by_cases same : rack.id = old.id
  · cases inj_on_of_nodup_map r.rackIds member home same
    rw [if_pos rfl]
    exact placed
  · rw [if_neg same]
    exact r.members rack member

lemma insertRackClone {source : Rack} {items : List RackItem} {duplicateId : Id}
    {duplicateName serverRoom : List Char} {preservePlacement : Bool} {n n' : Nat}
    (h : insertRackClone newIds source items duplicateId duplicateName serverRoom
      preservePlacement s n = .ok (s', n'))
    (placed : s.HasRoom source.siteId serverRoom) : s'.Roomed := by
  obtain ⟨rooms, clone, site, name, fresh, racks⟩ := insertRackClone_tables h
  have added := r.addRack fresh (by rw [site, name]; exact placed)
  exact added.congr rooms racks

lemma setGrid (id : Id) (placement : Option (Int × Int × Int)) : (s.setGrid id placement).Roomed := by
  cases placement with
  | none => exact r
  | some placement =>
    refine r.mapRacks (fun rack => by split <;> rfl) (fun rack member => ?_)
    split
    · exact r.members rack member
    · exact r.members rack member

lemma duplicateRack {gridX gridY facing : Option Int} {result : Rack × List RackItem}
    (spells : ∀ old ∈ s.racks, old.id = id → s.Spells old.siteId fields.serverRoom)
    (h : duplicateRack s id fields gridX gridY facing newIds = .ok (result, s')) : s'.Roomed := by
  obtain ⟨placement, _, h⟩ := bind_eq_ok.mp h
  obtain ⟨⟨old, items⟩, fetched, h⟩ := bind_eq_ok.mp h
  obtain ⟨name, _, h⟩ := bind_eq_ok.mp h
  obtain ⟨serverRoom, known, h⟩ := bind_eq_ok.mp h
  obtain ⟨heightU, _, h⟩ := bind_eq_ok.mp h
  obtain ⟨depthMm, _, h⟩ := bind_eq_ok.mp h
  obtain ⟨powerCapacityW, _, h⟩ := bind_eq_ok.mp h
  obtain ⟨_, _, h⟩ := bind_eq_ok.mp h
  obtain ⟨⟨s₁, n₁⟩, cloned, h⟩ := bind_eq_ok.mp h
  obtain ⟨_, _, done⟩ := bind_eq_ok.mp h
  cases done
  obtain ⟨rack, found, same⟩ := bind_eq_ok.mp fetched
  cases same
  obtain ⟨home, here⟩ := fetchRow_eq_ok found
  have placed := validateServerRoom_eq_ok known (spells old home here)
  exact (r.insertRackClone cloned placed).setGrid _ placement

lemma duplicateServerRoom (h : duplicateServerRoom s id name floorColor newIds = .ok (room, s')) :
    s'.Roomed := by
  rw [ItOps.duplicateServerRoom] at h
  split at h
  · cases h
  · rename_i source _
    obtain ⟨_, h⟩ := reject_bind_ok.mp h
    obtain ⟨_, h⟩ := reject_bind_ok.mp h
    obtain ⟨_, _, h⟩ := bind_eq_ok.mp h
    obtain ⟨s₁, inserted, h⟩ := bind_eq_ok.mp h
    obtain ⟨⟨s₂, n₂⟩, cloned, done⟩ := bind_eq_ok.mp h
    cases done
    have added : s₁.HasRoom source.siteId (trim name) := by
      obtain ⟨_, rfl⟩ := insertServerRoom_eq_ok inserted
      exact ⟨_, mem_append_right _ mem_cons_self, rfl, rfl⟩
    refine (foldlM_invariant
      (P := fun state => state.1.Roomed ∧ state.1.HasRoom source.siteId (trim name))
      ?_ cloned ⟨r.insertServerRoom inserted, added⟩).1
    rintro ⟨before, n⟩ ⟨rack, items⟩ ⟨after, n'⟩ listed cloned ⟨roomed, placed⟩
    obtain ⟨row, member, same⟩ := mem_map.mp (mem_of_mem_filter listed)
    obtain ⟨rfl, rfl⟩ := Prod.mk.inj same
    have site : row.siteId = source.siteId :=
      of_decide_eq_true (mem_filter.mp (mem_mergeSort.mp member)).2
    have rooms := (insertRackClone_tables cloned).1
    exact ⟨roomed.insertRackClone cloned (site.symm ▸ placed),
      placed.mono (fun _ here => rooms.symm ▸ here)⟩

/-- Rooms and racks change together, each rack to the new name of a room. -/
lemma updateServerRoom (h : updateServerRoom s id name floorColor = .ok (room, s')) :
    s'.Roomed := by
  obtain ⟨_, h⟩ := reject_bind_ok.mp h
  obtain ⟨floorColor', _, h⟩ := bind_eq_ok.mp h
  split at h
  · cases h
  · rename_i old found
    obtain ⟨_, done⟩ := reject_bind_ok.mp h
    cases done
    have home := mem_of_find?_eq_some found
    have here : old.id = id := by simpa using find?_some found
    subst here
    have moved := @mapRooms _ r
      (fun room =>
        if room.id = old.id then
          { room with name := trim name, floorColor := floorColor' }
        else room)
      (Rack.renameRoom old.siteId old.name (trim name)) (fun room => by split <;> rfl)
      (Rack.renameRoom_id _ _ _) ?_
    · refine moved.congr rfl ?_
      by_cases same : old.name = trim name
      · have still : s.racks.map (Rack.renameRoom old.siteId old.name (trim name)) = s.racks := by
          rw [← same, funext (Rack.renameRoom_self old.siteId old.name)]
          exact map_id' s.racks
        rw [still]
        exact if_neg (not_not.mpr same)
      · exact if_pos same
    · intro rack rack_home
      by_cases inside : rack.siteId = old.siteId ∧ rack.serverRoom = old.name
      · refine ⟨old, home, ?_⟩
        rw [if_pos rfl, Rack.renameRoom, if_pos inside]
        exact ⟨inside.1.symm, rfl⟩
      · obtain ⟨own, own_home, site, spelled⟩ := r.members rack rack_home
        have other : own.id ≠ old.id := by
          intro same
          cases inj_on_of_nodup_map r.roomIds own_home home same
          exact inside ⟨site.symm, spelled.symm⟩
        refine ⟨own, own_home, ?_⟩
        rw [if_neg other, Rack.renameRoom, if_neg inside]
        exact ⟨site, spelled⟩

lemma deleteServerRoom (h : deleteServerRoom s id = .ok s') : s'.Roomed := by
  rw [ItOps.deleteServerRoom] at h
  split at h
  · cases h
  · rename_i room found
    cases h
    have home := mem_of_find?_eq_some found
    have here : room.id = id := by simpa using find?_some found
    constructor
    · exact r.roomIds.sublist (filter_sublist.map ServerRoom.id)
    · exact r.rackIds.sublist (filter_sublist.map Rack.id)
    · intro rack member
      obtain ⟨kept, stays⟩ := mem_filter.mp member
      obtain ⟨own, own_member, site, name⟩ := r.members rack kept
      refine ⟨own, mem_filter.mpr ⟨own_member, decide_eq_true ?_⟩, site, name⟩
      intro same
      cases inj_on_of_nodup_map r.roomIds own_member home (same.trans here.symm)
      exact of_decide_eq_true stays ⟨site.symm, name.symm⟩

lemma deleteRack (h : deleteRack s id = .ok s') : s'.Roomed := by
  obtain ⟨_, done⟩ := reject_bind_ok.mp h
  cases done
  constructor
  · exact r.roomIds
  · exact r.rackIds.sublist (filter_sublist.map Rack.id)
  · intro rack member
    exact r.members rack (mem_of_mem_filter member)

lemma placeRackItemOnFace {rackId : Id} {fields : ItemFields} {startU heightU : UInt32}
    {mountFace : RackMountFace}
    (h : placeRackItemOnFace s id rackId fields startU heightU mountFace = .ok (item, s')) :
    s'.Roomed := by
  obtain ⟨_, _, h⟩ := bind_eq_ok.mp h
  obtain ⟨_, _, h⟩ := bind_eq_ok.mp h
  obtain ⟨_, _, h⟩ := bind_eq_ok.mp h
  obtain ⟨s₁, inserted, done⟩ := bind_eq_ok.mp h
  cases done
  obtain ⟨_, rfl⟩ := insertItem_eq_ok inserted
  exact r.congr rfl rfl

lemma replaceItem {row : RackItem} (h : s.replaceItem item = .ok (row, s')) : s'.Roomed := by
  obtain ⟨_, _, done⟩ := bind_eq_ok.mp h
  cases done
  exact r.congr rfl rfl

lemma updateRackItemOnFace {fields : ItemFields} {placement : Option (UInt32 × UInt32)}
    {mountFace : Option RackMountFace}
    (h : updateRackItemOnFace s id fields placement mountFace = .ok (item, s')) : s'.Roomed := by
  obtain ⟨_, _, h⟩ := bind_eq_ok.mp h
  obtain ⟨_, _, h⟩ := bind_eq_ok.mp h
  obtain ⟨_, h⟩ := reject_bind_ok.mp h
  obtain ⟨_, _, h⟩ := bind_eq_ok.mp h
  obtain ⟨_, _, h⟩ := bind_eq_ok.mp h
  exact r.replaceItem h

lemma moveRackItemToFace {rackId : Id} {startU heightU : UInt32} {slot : Option UInt32}
    {mountFace : Option RackMountFace}
    (h : moveRackItemToFace s id rackId startU heightU slot mountFace = .ok (item, s')) :
    s'.Roomed := by
  obtain ⟨_, _, h⟩ := bind_eq_ok.mp h
  obtain ⟨_, _, h⟩ := bind_eq_ok.mp h
  obtain ⟨_, _, h⟩ := bind_eq_ok.mp h
  exact r.replaceItem h

lemma removeRackItem (h : removeRackItem s id = .ok s') : s'.Roomed := by
  obtain ⟨_, done⟩ := reject_bind_ok.mp h
  cases done
  exact r.congr rfl rfl

lemma apply {call : RoomCall} (spells : call.Spells s) (h : call.apply s = .ok s') :
    s'.Roomed := by
  cases call with
  | topology call =>
    cases call with
    | createServerRoom =>
      obtain ⟨_, h⟩ := map_snd_eq_ok h
      exact r.createServerRoom h
    | createRack =>
      obtain ⟨_, h⟩ := map_snd_eq_ok h
      exact r.createRack spells h
    | updateRack =>
      obtain ⟨_, h⟩ := map_snd_eq_ok h
      exact r.updateRack spells h
    | duplicateRack =>
      obtain ⟨_, h⟩ := map_snd_eq_ok h
      exact r.duplicateRack spells h
    | duplicateServerRoom =>
      obtain ⟨_, h⟩ := map_snd_eq_ok h
      exact r.duplicateServerRoom h
    | placeRackItemOnFace =>
      obtain ⟨_, h⟩ := map_snd_eq_ok h
      exact r.placeRackItemOnFace h
    | updateRackItemOnFace =>
      obtain ⟨_, h⟩ := map_snd_eq_ok h
      exact r.updateRackItemOnFace h
    | moveRackItemToFace =>
      obtain ⟨_, h⟩ := map_snd_eq_ok h
      exact r.moveRackItemToFace h
    | removeRackItem => exact r.removeRackItem h
  | updateServerRoom =>
    obtain ⟨_, h⟩ := map_snd_eq_ok h
    exact r.updateServerRoom h
  | deleteServerRoom => exact r.deleteServerRoom h
  | deleteRack => exact r.deleteRack h

lemma serve {call : RoomCall} (spells : call.Spells s) (h : s.serve call = some s') :
    s'.Roomed := by
  rw [Store.serve] at h
  split at h
  · rename_i applied
    cases h
    exact r.apply spells applied
  · cases h
    exact r

end Store.Roomed

lemma roomed_empty (sites : List Id) : (Store.empty sites).Roomed where
  roomIds := .nil
  rackIds := .nil
  members rack member := by cases member

/-- A rack in the room "MDF", under the spelling that is given; then the room is
renamed. -/
def renameRoomOf (spelling : List Char) : List RoomCall :=
  [.topology (.createServerRoom ['r'] ['s'] "MDF".toList "default".toList),
    .topology (.createRack ['k'] ['s']
      { name := ['K'], serverRoom := spelling, rackGroup := [], shell := none
        heightU := 42, depthMm := 1000, powerCapacityW := none }),
    .updateServerRoom ['r'] "Core".toList "blue".toList]

end ItOps
