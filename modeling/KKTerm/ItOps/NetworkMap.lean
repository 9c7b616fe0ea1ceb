import KKTerm.Library.Naming
import KKTerm.Library.Text

/-!
# Network maps

The graph of a map as it is stored, and what every read and every write does to it. The
numbers are exact and finite. Fields that are only copied are kept as they are.
-/

namespace ItOps.NetworkMap

open List Text

inductive NetworkNodeKind where
  | generic | router | gateway | switch | switchL3 | hub | firewall | vpnGateway | idsIps
  | server | loadBalancer | proxy | dns | database | storage | cloud | isp | accessPoint
  | wirelessController | desktop | laptop | smartphone | iot | voip | printer | camera | geomap
  deriving DecidableEq

inductive NetworkNodeShape where
  | rectangle | circle | diamond | triangle | hexagon
  deriving DecidableEq

inductive NetworkLinkKind where
  | ethernet | fiber | wan | wireless
  deriving DecidableEq

inductive NetworkMapStatus where
  | up | warning
  deriving DecidableEq

inductive NetworkLinkStatus where
  | up | warning | down
  deriving DecidableEq

inductive NetworkLinkStrandDisplay where
  | separate | bundle
  deriving DecidableEq

structure NetworkGeomapViewport where
  zoom : ℚ
  x : ℚ
  y : ℚ
  deriving DecidableEq

structure NetworkNodeInterface where
  id : List Char
  name : List Char
  address : List Char
  deriving DecidableEq

inductive NetworkNodeDeepLinkKind where
  | connection | site | serverRoom | rackItem
  deriving DecidableEq

structure NetworkNodeDeepLink where
  id : List Char
  kind : NetworkNodeDeepLinkKind
  connectionId : Option (List Char)
  siteId : Option (List Char)
  serverRoom : Option (List Char)
  rackId : Option (List Char)
  rackItemId : Option (List Char)
  deriving DecidableEq

structure NetworkNode where
  id : List Char
  label : List Char := []
  kind : NetworkNodeKind := .switch
  x : ℚ := 0
  y : ℚ := 0
  width : ℚ := 0
  height : ℚ := 0
  shape : NetworkNodeShape := .rectangle
  iconAccent : Option UInt8 := none
  iconBackgroundColor : Option (List Char) := none
  iconKind : Option NetworkNodeKind := none
  geomapViewport : Option NetworkGeomapViewport := none
  interfaces : List NetworkNodeInterface := []
  addresses : List (List Char) := []
  legacyAddress : List Char := []
  status : NetworkMapStatus := .up
  hostId : Option (List Char) := none
  connectionId : Option (List Char) := none
  rackItemId : Option (List Char) := none
  deepLinks : List NetworkNodeDeepLink := []
  note : List Char := []
  locked : Bool := false
  deriving DecidableEq

structure NetworkLinkStrand where
  id : List Char
  name : List Char := []
  fromInterfaceId : Option (List Char) := none
  toInterfaceId : Option (List Char) := none
  speed : List Char := []
  deriving DecidableEq

/-- `fromId` and `toId` are the node ids `from` and `to`. -/
structure NetworkLink where
  id : List Char
  fromId : List Char
  toId : List Char
  label : List Char := []
  kind : NetworkLinkKind := .ethernet
  fromAddress : Option (List Char) := none
  toAddress : Option (List Char) := none
  strands : List NetworkLinkStrand := []
  strandDisplay : NetworkLinkStrandDisplay := .separate
  nativeVlanId : Option (List Char) := none
  taggedVlanIds : List (List Char) := []
  status : NetworkLinkStatus := .up
  connectionCount : Option UInt16 := none
  speed : Option (List Char) := none
  deriving DecidableEq

structure NetworkMapNote where
  id : List Char
  text : List Char := []
  x : ℚ := 0
  y : ℚ := 0
  width : ℚ := 0
  height : ℚ := 0
  backgroundAccent : UInt8 := 0
  backgroundColor : Option (List Char) := none
  locked : Bool := false
  deriving DecidableEq

structure NetworkGraph where
  nodes : List NetworkNode := []
  links : List NetworkLink := []
  notes : List NetworkMapNote := []
  deriving DecidableEq

def nonEmpty (value : List Char) : Option (List Char) :=
  let trimmed := trim value
  if trimmed = [] then none else some trimmed

def isAsciiHexdigit (c : Char) : Bool :=
  (hexDigit c).isSome

def sanitizeHexColor (value : List Char) : Option (List Char) :=
  let value := trim value
  if Text.byteLength value = 7 ∧ value.head? = some '#' ∧ value.tail.all isAsciiHexdigit then
    some (asciiLower value)
  else none

def clamp (low high value : ℚ) : ℚ :=
  if value < low then low else if high < value then high else value

def maxNodeDimension : ℚ := 1000000

/-- `base`, then `base-2`, `base-3` and so on. -/
def candidate (base : List Char) : Nat → List Char
  | 0 => base
  | attempt + 1 => base ++ '-' :: Nat.toDigits 10 (attempt + 2)

def generatedBase (owner word : List Char) (index : Nat) : List Char :=
  owner ++ word ++ Nat.toDigits 10 index

/-- A number ends where the text behind it does not go on with a digit. -/
lemma digits_append_injective {i j : Nat} {s t : List Char}
    (hs : ∀ c ∈ s.head?, c.isDigit = false) (ht : ∀ c ∈ t.head?, c.isDigit = false)
    (same : Nat.toDigits 10 i ++ s = Nat.toDigits 10 j ++ t) : i = j ∧ s = t := by
  have number : ∀ (n : Nat) (u : List Char), (∀ c ∈ u.head?, c.isDigit = false) →
      (Nat.toDigits 10 n ++ u).takeWhile Char.isDigit = Nat.toDigits 10 n := by
    intro n u stops
    rw [takeWhile_append_of_pos fun c member => isDigit_of_mem_toDigits member]
    cases u with
    | nil => exact append_nil _
    | cons c u => rw [takeWhile_cons_of_neg (by simp [stops c rfl]), append_nil]
  have digits : Nat.toDigits 10 i = Nat.toDigits 10 j := by
    rw [← number i s hs, same, number j t ht]
  refine ⟨toDigits_injective digits, ?_⟩
  rw [digits] at same
  exact append_cancel_left same

lemma candidate_eq (base : List Char) (attempt : Nat) :
    candidate base attempt = base ++ candidate [] attempt := by
  cases attempt with
  | zero => exact (append_nil base).symm
  | succ attempt => rfl

lemma head_candidate (attempt : Nat) : ∀ c ∈ (candidate [] attempt).head?, c.isDigit = false := by
  intro c head
  cases attempt with
  | zero => cases head
  | succ attempt =>
    cases head
    rfl

lemma candidate_injective {s t : Nat} (same : candidate [] s = candidate [] t) : s = t := by
  cases s <;> cases t
  · rfl
  · cases same
  · cases same
  · have digits := toDigits_injective (List.cons.inj same).2
    omega

def generatedIds (owner word : List Char) : Naming.Scheme (List Char) where
  name index attempt := candidate (generatedBase owner word index) attempt
  injective := by
    intro i j s t same
    rw [candidate_eq, candidate_eq (generatedBase owner word j), generatedBase, generatedBase,
      List.append_assoc, List.append_assoc (owner ++ word)] at same
    obtain ⟨index, attempt⟩ := digits_append_injective (head_candidate s) (head_candidate t)
      (List.append_cancel_left same)
    exact ⟨index, candidate_injective attempt⟩

def uniqueInterfaceId (seen : List (List Char)) (nodeId : List Char) (index : Nat)
    (preferred : Option (List Char)) : List Char :=
  (generatedIds nodeId "-interface-".toList).give seen index preferred

def uniqueStrandId (seen : List (List Char)) (linkId : List Char) (index : Nat)
    (preferred : Option (List Char)) : List Char :=
  (generatedIds linkId "-strand-".toList).give seen index preferred

def uniqueDeepLinkId (seen : List (List Char)) (nodeId : List Char) (index : Nat)
    (preferred : Option (List Char)) : List Char :=
  (generatedIds nodeId "-deep-link-".toList).give seen index preferred

/-- The interfaces of a node, or those its older address fields stand for. -/
def foldAddresses (node : NetworkNode) : List NetworkNodeInterface :=
  if node.interfaces = [] then
    let addresses := if node.addresses = [] then [node.legacyAddress] else node.addresses
    (addresses.filterMap nonEmpty).zipIdx.map (fun (address, index) =>
      { id := generatedBase node.id "-interface-".toList index, name := [], address })
  else node.interfaces

/-- The ids and the values seen so far, and the interfaces kept so far. -/
structure InterfacePass where
  seenIds : List (List Char)
  seenValues : List (List Char × List Char)
  kept : List NetworkNodeInterface

def keepInterface (nodeId : List Char) (pass : InterfacePass)
    (item : NetworkNodeInterface × Nat) : InterfacePass :=
  let name := trim item.1.name
  let address := trim item.1.address
  if name = [] ∧ address = [] then pass
  else
    let preferred := nonEmpty item.1.id
    let id := uniqueInterfaceId pass.seenIds nodeId item.2 preferred
    if (name, address) ∈ pass.seenValues then { pass with seenIds := pass.seenIds ++ [id] }
    else
      { seenIds := pass.seenIds ++ [id]
        seenValues := pass.seenValues ++ [(name, address)]
        kept := pass.kept ++ [{ id, name, address }] }

def sanitizeInterfaces (nodeId : List Char) (interfaces : List NetworkNodeInterface) :
    List NetworkNodeInterface :=
  (interfaces.zipIdx.foldl (keepInterface nodeId) ⟨[], [], []⟩).kept.take 32

def trimDeepLink (link : NetworkNodeDeepLink) : NetworkNodeDeepLink :=
  { link with
    connectionId := link.connectionId.bind nonEmpty
    siteId := link.siteId.bind nonEmpty
    serverRoom := link.serverRoom.bind nonEmpty
    rackId := link.rackId.bind nonEmpty
    rackItemId := link.rackItemId.bind nonEmpty }

/-- Only the fields that the kind of link uses. -/
def clearDeepLink (link : NetworkNodeDeepLink) : NetworkNodeDeepLink :=
  match link.kind with
  | .connection =>
    { link with siteId := none, serverRoom := none, rackId := none, rackItemId := none }
  | .site =>
    { link with connectionId := none, serverRoom := none, rackId := none, rackItemId := none }
  | .serverRoom => { link with connectionId := none, rackId := none, rackItemId := none }
  | .rackItem => { link with connectionId := none, serverRoom := none }

def deepLinkTarget (link : NetworkNodeDeepLink) : Option (List Char) :=
  match link.kind with
  | .connection => do
    let connection ← link.connectionId
    some ("connection:".toList ++ connection)
  | .site => do
    let site ← link.siteId
    some ("site:".toList ++ site)
  | .serverRoom => do
    let site ← link.siteId
    let room ← link.serverRoom
    some ("serverRoom:".toList ++ site ++ ':' :: room)
  | .rackItem => do
    let site ← link.siteId
    let rack ← link.rackId
    let item ← link.rackItemId
    some ("rackItem:".toList ++ site ++ ':' :: rack ++ ':' :: item)

/-- The ids and the targets seen so far, and the deep links kept so far. -/
structure DeepLinkPass where
  seenIds : List (List Char)
  seenTargets : List (List Char)
  kept : List NetworkNodeDeepLink

def keepDeepLink (nodeId : List Char) (pass : DeepLinkPass) (item : NetworkNodeDeepLink × Nat) :
    DeepLinkPass :=
  let link := clearDeepLink (trimDeepLink item.1)
  match deepLinkTarget link with
  | none => pass
  | some target =>
    if target ∈ pass.seenTargets then pass
    else
      let id := uniqueDeepLinkId pass.seenIds nodeId item.2 (nonEmpty link.id)
      { seenIds := pass.seenIds ++ [id]
        seenTargets := pass.seenTargets ++ [target]
        kept := pass.kept ++ [{ link with id }] }

def sanitizeDeepLinks (nodeId : List Char) (links : List NetworkNodeDeepLink) :
    List NetworkNodeDeepLink :=
  (links.zipIdx.foldl (keepDeepLink nodeId) ⟨[], [], []⟩).kept.take 32

def sanitizeIconKind (kind : NetworkNodeKind) (iconKind : Option NetworkNodeKind) :
    Option NetworkNodeKind :=
  if kind = .generic then
    match iconKind with
    | some .generic | none => some .switch
    | selected => selected
  else none

def sanitizeSize (node : NetworkNode) : NetworkNode :=
  if node.kind = .geomap then
    { node with
      shape := .rectangle, width := max node.width 120, height := max node.height 44 }
  else
    let width := clamp 120 maxNodeDimension node.width
    let height := clamp 44 maxNodeDimension node.height
    if node.shape ≠ .rectangle then
      { node with width := max width height, height := max width height }
    else { node with width, height }

def sanitizeViewport (kind : NetworkNodeKind) (viewport : Option NetworkGeomapViewport) :
    Option NetworkGeomapViewport :=
  if kind = .geomap then
    let viewport := viewport.getD { zoom := 1, x := 50, y := 50 }
    -- Finite numbers need no fallback.
    some { zoom := clamp 1 4 viewport.zoom
           x := clamp 0 100 viewport.x
           y := clamp 0 100 viewport.y }
  else none

def sanitizeNode (node : NetworkNode) : NetworkNode :=
  sanitizeSize { node with
    iconBackgroundColor := node.iconBackgroundColor.bind sanitizeHexColor
    interfaces := sanitizeInterfaces node.id (foldAddresses node)
    addresses := []
    legacyAddress := []
    iconKind := sanitizeIconKind node.kind node.iconKind
    deepLinks := sanitizeDeepLinks node.id node.deepLinks
    geomapViewport := sanitizeViewport node.kind node.geomapViewport }

def sanitizeNote (note : NetworkMapNote) : NetworkMapNote :=
  { note with
    text := trim note.text
    width := clamp 180 600 note.width
    height := clamp 90 400 note.height
    backgroundColor := note.backgroundColor.bind sanitizeHexColor }

def maxStrands : Nat := 64

/-- The ids seen so far are those of the strands so far. -/
def addStrand (linkId : List Char) (strands : List NetworkLinkStrand)
    (item : NetworkLinkStrand × Nat) : List NetworkLinkStrand :=
  strands ++ [{ item.1 with
    id := uniqueStrandId (strands.map (·.id)) linkId item.2 (nonEmpty item.1.id)
    name := trim item.1.name
    speed := trim item.1.speed }]

def nameStrands (linkId : List Char) (strands : List NetworkLinkStrand) :
    List NetworkLinkStrand :=
  strands.zipIdx.foldl (addStrand linkId) []

/-- One strand for each physical link of the older shape; a blank id is none. -/
def legacyStrands (link : NetworkLink) : List NetworkLinkStrand :=
  let legacySpeed := trim (link.speed.getD [])
  let count := max 1 (min (link.connectionCount.getD 1).toNat maxStrands)
  List.replicate count { id := [], speed := legacySpeed }

def migrateStrands (link : NetworkLink) : List NetworkLinkStrand :=
  let strands := nameStrands link.id (link.strands.take maxStrands)
  if strands = [] then nameStrands link.id (legacyStrands link) else strands

/-- The interfaces of the first node with the id. -/
def interfacesOf (nodes : List NetworkNode) (id : List Char) : List NetworkNodeInterface :=
  ((nodes.find? (fun node => node.id = id)).map (·.interfaces)).getD []

def resolveInterface (interfaces : List NetworkNodeInterface) (id : Option (List Char)) :
    Option (List Char) :=
  (id.bind nonEmpty).filter (fun id => interfaces.any (fun interface => interface.id = id))

def interfaceAt (interfaces : List NetworkNodeInterface) (address : Option (List Char)) :
    Option (List Char) := do
  let address ← address.bind nonEmpty
  let interface ← interfaces.find? (fun interface => interface.address = address)
  some interface.id

def resolveStrand (fromInterfaces toInterfaces : List NetworkNodeInterface)
    (strand : NetworkLinkStrand) : NetworkLinkStrand :=
  { strand with
    fromInterfaceId := resolveInterface fromInterfaces strand.fromInterfaceId
    toInterfaceId := resolveInterface toInterfaces strand.toInterfaceId }

/-- The older addresses of the link stand for the interfaces of its first strand. -/
def bindAddresses (link : NetworkLink) (fromInterfaces toInterfaces : List NetworkNodeInterface)
    (first : NetworkLinkStrand) : NetworkLinkStrand :=
  { first with
    fromInterfaceId := first.fromInterfaceId.or (interfaceAt fromInterfaces link.fromAddress)
    toInterfaceId := first.toInterfaceId.or (interfaceAt toInterfaces link.toAddress) }

def sanitizeVlans (native : Option (List Char)) (tagged : List (List Char)) :
    List (List Char) :=
  (tagged.filterMap nonEmpty).foldl (fun kept id =>
    if some id ≠ native ∧ id ∉ kept then kept ++ [id] else kept) []

def sanitizeLink (nodes : List NetworkNode) (link : NetworkLink) : NetworkLink :=
  let fromInterfaces := interfacesOf nodes link.fromId
  let toInterfaces := interfacesOf nodes link.toId
  let strands := (migrateStrands link).map (resolveStrand fromInterfaces toInterfaces)
  let native := link.nativeVlanId.bind nonEmpty
  { link with
    strands := strands.modifyHead (bindAddresses link fromInterfaces toInterfaces)
    fromAddress := none
    toAddress := none
    taggedVlanIds := sanitizeVlans native link.taggedVlanIds
    nativeVlanId := native
    connectionCount := none
    speed := none }

def keptLinks (nodes : List NetworkNode) (links : List NetworkLink) : List NetworkLink :=
  links.filter (fun link =>
    link.fromId ≠ link.toId ∧ link.fromId ∈ nodes.map (·.id) ∧ link.toId ∈ nodes.map (·.id))

def sanitizeGraph (graph : NetworkGraph) : NetworkGraph :=
  let nodes := graph.nodes.map sanitizeNode
  { nodes
    links := (keptLinks nodes graph.links).map (sanitizeLink nodes)
    notes := graph.notes.map sanitizeNote }

end ItOps.NetworkMap
