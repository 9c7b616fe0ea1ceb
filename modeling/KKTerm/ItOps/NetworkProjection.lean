import KKTerm.ItOps.NetworkStable

/-!
# Sanitizing is a projection

A sanitized map is well formed, and it is left as it is by a second pass if and only if
every id made from an id that begins with white space was not needed, or is found again.
-/

namespace ItOps.NetworkMap

open Naming List

section Ends
variable {node : NetworkNode} {w : List Char} {id address : Option (List Char)}

/-- An interface of the node is kept with the id. -/
def Holds (node : NetworkNode) (w : List Char) : Prop :=
  ∃ before x, before ++ [x] <+: foldAddresses node ∧
    (∃ value, (interfacePass node.id).Kept before x value) ∧
      (interfacePass node.id).Gets before x w

/-- The interface is the first one that is kept with the address of the link. -/
def FirstAt (node : NetworkNode) (address : Option (List Char))
    (before : List NetworkNodeInterface) (x : NetworkNodeInterface) : Prop :=
  ∃ value, (interfacePass node.id).Kept before x value ∧ address.bind nonEmpty = some value.2 ∧
    ∀ c ∈ (interfacePass node.id).shapes before, c.2 ≠ value.2

lemma holds_iff : Holds node w ↔ ∃ i ∈ (sanitizeNode node).interfaces, i.id = w := by
  rw [interfaces_sanitizeNode, sanitizeInterfaces_eq]
  constructor
  · rintro ⟨before, x, within, ⟨value, kept⟩, gets⟩
    have member := Pass.mem_result_iff.mpr ⟨before, x, within, kept, gets⟩
    exact ⟨toInterface w value, mem_map.mpr ⟨(w, value), member, rfl⟩, rfl⟩
  · rintro ⟨i, member, rfl⟩
    obtain ⟨⟨a, value⟩, inside, rfl⟩ := mem_map.mp member
    obtain ⟨before, x, within, kept, gets⟩ := Pass.mem_result_iff.mp inside
    exact ⟨before, x, within, ⟨value, kept⟩, gets⟩

lemma interfaceAt_sanitizeNode : interfaceAt (sanitizeNode node).interfaces address = some w ↔
    ∃ before x, before ++ [x] <+: foldAddresses node ∧ FirstAt node address before x ∧
      (interfacePass node.id).Gets before x w := by
  rw [interfaceAt_eq_some, interfaces_sanitizeNode, sanitizeInterfaces_eq]
  constructor
  · rintro ⟨a, trimmed, i, found, rfl⟩
    rw [find?_map] at found
    obtain ⟨⟨id, value⟩, first, rfl⟩ := Option.map_eq_some_iff.mp found
    obtain ⟨before, x, within, kept, at_, others, gets⟩ :=
      (Pass.find_result_iff (p := fun c : List Char × List Char => c.2 = a)).mp first
    obtain rfl := of_decide_eq_true at_
    refine ⟨before, x, within, ⟨value, kept, trimmed, fun c member => ?_⟩, gets⟩
    exact of_decide_eq_false (others c member)
  · rintro ⟨before, x, within, ⟨value, kept, trimmed, others⟩, gets⟩
    have found :=
      (Pass.find_result_iff (p := fun c : List Char × List Char => c.2 = value.2)).mpr
        ⟨before, x, within, kept, decide_eq_true rfl,
          fun c member => decide_eq_false (others c member), gets⟩
    refine ⟨value.2, trimmed, toInterface w value, ?_, rfl⟩
    rw [find?_map]
    exact Option.map_eq_some_iff.mpr ⟨(w, value), found, rfl⟩

lemma nonEmpty_of_gets {before : List NetworkNodeInterface} {x : NetworkNodeInterface}
    (gets : (interfacePass node.id).Gets before x w) : nonEmpty w = some w ↔
      (startsWithSpace node.id = true → ¬ (interfacePass node.id).Displaced before x) := by
  rcases gets with ⟨wish, own⟩ | ⟨displaced, s, rfl, -⟩
  · exact iff_of_true (nonEmpty_of_nonEmpty wish) (fun _ => own)
  · change nonEmpty ((generatedIds node.id _).name before.length s) = _ ↔ _
    rw [nonEmpty_generated, Option.some_inj]
    cases blank : startsWithSpace node.id with
    | false => exact iff_of_true (trim_generated blank _ _) (by simp)
    | true =>
      refine iff_of_false (trim_generated_ne blank _ _ _ _) ?_
      exact fun own => own rfl displaced

lemma settledEnd_iff : SettledEnd (sanitizeNode node).interfaces address id ↔
    (startsWithSpace node.id = true → (∀ w, id.bind nonEmpty = some w → ¬ Holds node w) →
      ∀ before x, before ++ [x] <+: foldAddresses node → FirstAt node address before x →
        ¬ (interfacePass node.id).Displaced before x) := by
  have unresolved : resolveInterface (sanitizeNode node).interfaces id = none ↔
      ∀ w, id.bind nonEmpty = some w → ¬ Holds node w := by
    rw [Option.eq_none_iff_forall_ne_some]
    simp only [ne_eq, resolveInterface_eq_some, holds_iff, not_and]
  rw [SettledEnd, unresolved]
  constructor
  · intro settled blank free before x within first
    have gets : (interfacePass node.id).Gets before x ((interfacePass node.id).nameOf before x) :=
      Pass.gets_nameOf before x
    have bound := interfaceAt_sanitizeNode.mpr ⟨before, x, within, first, gets⟩
    exact (nonEmpty_of_gets gets).mp (settled free _ bound) blank
  · intro settled free w bound
    obtain ⟨before, x, within, first, gets⟩ := interfaceAt_sanitizeNode.mp bound
    exact (nonEmpty_of_gets gets).mpr fun blank => settled blank free before x within first

end Ends

section Graph

/-- Ids made from the id of the node are not needed, or found again. -/
structure SettledNode (node : NetworkNode) : Prop where
  interfaces : (interfaceRenewal node.id).Settled (foldAddresses node)
  deepLinks : (deepLinkRenewal node.id).Settled node.deepLinks

/-- The end of a link's first strand is not plugged in by the older address of the link
where the id of the interface was made from the id of the node. -/
def SettledFirst (nodes : List NetworkNode) (nodeId : List Char)
    (address id : Option (List Char)) : Prop :=
  startsWithSpace nodeId = true → ∀ node, nodes.find? (fun node => node.id = nodeId) = some node →
    (∀ w, id.bind nonEmpty = some w → ¬ Holds node w) →
      ∀ before x, before ++ [x] <+: foldAddresses node → FirstAt node address before x →
        ¬ (interfacePass node.id).Displaced before x

structure SettledLink (nodes : List NetworkNode) (link : NetworkLink) : Prop where
  strands : startsWithSpace link.id = true → (strandRenewal link.id).Settled (foldStrands link)
  first : ∀ strand ∈ (foldStrands link).head?,
    SettledFirst nodes link.fromId link.fromAddress strand.fromInterfaceId ∧
      SettledFirst nodes link.toId link.toAddress strand.toInterfaceId

structure Settled (graph : NetworkGraph) : Prop where
  nodes : ∀ node ∈ graph.nodes, startsWithSpace node.id = true → SettledNode node
  links : ∀ link ∈ keptLinks graph.nodes graph.links, SettledLink graph.nodes link

variable (nodes : List NetworkNode) (links : List NetworkLink)

lemma map_id_sanitizeNode : (nodes.map sanitizeNode).map (·.id) = nodes.map (·.id) := by
  rw [map_map]
  exact map_congr_left fun node _ => id_sanitizeNode node

lemma keptLinks_sanitizeNode :
    keptLinks (nodes.map sanitizeNode) links = keptLinks nodes links := by
  rw [keptLinks, keptLinks, map_id_sanitizeNode]

lemma interfacesOf_sanitizeNode (nodeId : List Char) :
    interfacesOf (nodes.map sanitizeNode) nodeId =
      ((nodes.find? (fun node => node.id = nodeId)).map
        (fun node => (sanitizeNode node).interfaces)).getD [] := by
  have same : ((fun node : NetworkNode => decide (node.id = nodeId)) ∘ sanitizeNode) =
      fun node => decide (node.id = nodeId) := by
    funext node
    exact congrArg (fun id => decide (id = nodeId)) (id_sanitizeNode node)
  rw [interfacesOf, find?_map, same, Option.map_map]
  rfl

lemma settledFirst_iff {nodes : List NetworkNode} {nodeId : List Char}
    {address id : Option (List Char)} :
    SettledEnd (interfacesOf (nodes.map sanitizeNode) nodeId) address id ↔
      SettledFirst nodes nodeId address id := by
  rw [interfacesOf_sanitizeNode]
  cases found : nodes.find? (fun node => node.id = nodeId) with
  | none =>
    refine iff_of_true (fun _ w bound => ?_) (fun _ node other => ?_)
    · obtain ⟨i, member, -⟩ := mem_of_interfaceAt bound
      cases member
    · cases found.symm.trans other
  | some node =>
    have named := find?_some found
    obtain rfl := of_decide_eq_true named
    rw [Option.map_some, Option.getD_some, settledEnd_iff]
    constructor
    · intro settled blank other same
      obtain rfl := Option.some.inj (found.symm.trans same)
      exact settled blank
    · intro settled blank
      exact settled blank node found

lemma sanitizeNodes_again_iff :
    (nodes.map sanitizeNode).map sanitizeNode = nodes.map sanitizeNode ↔
      ∀ node ∈ nodes, startsWithSpace node.id = true → SettledNode node := by
  rw [map_map, map_inj_left]
  refine forall₂_congr fun node _ => ?_
  rw [Function.comp_apply, sanitizeNode_again_iff, interfaces_sanitizeNode, deepLinks_sanitizeNode,
    sanitizeInterfaces_again_iff, sanitizeDeepLinks_again_iff, ← forall_and]
  exact forall_congr' fun _ => ⟨fun ⟨interfaces, deepLinks⟩ => ⟨interfaces, deepLinks⟩,
    fun settled => ⟨settled.interfaces, settled.deepLinks⟩⟩

lemma keptLinks_sanitizeLink :
    keptLinks nodes ((keptLinks nodes links).map (sanitizeLink nodes)) =
      (keptLinks nodes links).map (sanitizeLink nodes) := by
  refine filter_eq_self.mpr fun link member => ?_
  obtain ⟨l, kept, rfl⟩ := mem_map.mp member
  exact (mem_filter.mp kept).2

lemma sanitizeLinks_again_iff :
    ((keptLinks (nodes.map sanitizeNode) links).map (sanitizeLink (nodes.map sanitizeNode))).map
        (sanitizeLink (nodes.map sanitizeNode)) =
      (keptLinks (nodes.map sanitizeNode) links).map (sanitizeLink (nodes.map sanitizeNode)) ↔
        ∀ link ∈ keptLinks nodes links, SettledLink nodes link := by
  rw [keptLinks_sanitizeNode, map_map, map_inj_left]
  refine forall₂_congr fun link _ => ?_
  rw [Function.comp_apply, sanitizeLink_again_iff]
  simp only [settledFirst_iff]
  exact ⟨fun settled => ⟨settled.1, settled.2⟩, fun settled => ⟨settled.strands, settled.first⟩⟩

lemma sanitizeGraph_again_iff (graph : NetworkGraph) :
    sanitizeGraph (sanitizeGraph graph) = sanitizeGraph graph ↔ Settled graph := by
  have notes : (graph.notes.map sanitizeNote).map sanitizeNote = graph.notes.map sanitizeNote := by
    rw [map_map]
    exact map_congr_left fun note _ => sanitizeNote_sanitizeNote note
  constructor
  · intro same
    have nodes : (graph.nodes.map sanitizeNode).map sanitizeNode = graph.nodes.map sanitizeNode :=
      congrArg NetworkGraph.nodes same
    have links : (sanitizeGraph (sanitizeGraph graph)).links = (sanitizeGraph graph).links :=
      congrArg NetworkGraph.links same
    simp only [sanitizeGraph, nodes, keptLinks_sanitizeLink] at links
    exact ⟨(sanitizeNodes_again_iff _).mp nodes, (sanitizeLinks_again_iff _ _).mp links⟩
  · intro settled
    have nodes := (sanitizeNodes_again_iff graph.nodes).mpr settled.nodes
    have links := (sanitizeLinks_again_iff graph.nodes graph.links).mpr settled.links
    simp only [sanitizeGraph, nodes, keptLinks_sanitizeLink, links, notes]

/-- A map whose ids settle is sanitized into a well formed one once and for all, and no
other map is. -/
theorem sanitizeGraph_projection_iff (graph : NetworkGraph) :
    (WellFormed (sanitizeGraph graph) ∧
      sanitizeGraph (sanitizeGraph graph) = sanitizeGraph graph) ↔ Settled graph := by
  rw [sanitizeGraph_again_iff]
  exact and_iff_right (wellFormed_sanitizeGraph graph)

/-- One interface without an id, on a node whose id begins with a space. -/
def spacedGraph : NetworkGraph where
  nodes := [{
    id := " core".toList
    interfaces := [{ id := [], name := "eth0".toList, address := [] }] }]

theorem spacedGraph_changes : ¬ (WellFormed (sanitizeGraph spacedGraph) ∧
    sanitizeGraph (sanitizeGraph spacedGraph) = sanitizeGraph spacedGraph) := by
  rintro ⟨-, same⟩
  have ids := congrArg (fun graph => graph.nodes.map fun node => node.interfaces.map (·.id)) same
  have first : (sanitizeGraph spacedGraph).nodes.map (fun node => node.interfaces.map (·.id)) =
      [[" core-interface-0".toList]] := by
    decide
  have second : (sanitizeGraph (sanitizeGraph spacedGraph)).nodes.map
      (fun node => node.interfaces.map (·.id)) = [["core-interface-0".toList]] := by
    decide
  exact absurd (second.symm.trans (ids.trans first)) (by decide)

end Graph

end ItOps.NetworkMap

/-!
# Where a strand is plugged in

A strand names an interface of each end by its id. Ids are given out in the order of the
interfaces, so that an interface without an id of its own can be given the id by which a
later one is named.
-/

namespace ItOps.NetworkMap

open Text
open Option hiding mem_map or_assoc
open Naming List

inductive LinkEnd where
  | fromEnd | toEnd

namespace LinkEnd

def nodeId (link : NetworkLink) : LinkEnd → List Char
  | fromEnd => link.fromId
  | toEnd => link.toId

def address (link : NetworkLink) : LinkEnd → Option (List Char)
  | fromEnd => link.fromAddress
  | toEnd => link.toAddress

def interfaceId (strand : NetworkLinkStrand) : LinkEnd → Option (List Char)
  | fromEnd => strand.fromInterfaceId
  | toEnd => strand.toInterfaceId

end LinkEnd

/-- One end of a strand of a link that is kept, plugged into the only interface of its node
with the id, where the sanitized node has an interface of that name and address. -/
structure Cable (graph : NetworkGraph) where
  distinct : (graph.nodes.map (·.id)).Nodup
  link : NetworkLink
  keptLink : link ∈ keptLinks (sanitizeGraph graph).nodes graph.links
  index : Nat
  few : index < maxStrands
  strand : NetworkLinkStrand
  listed : link.strands[index]? = some strand
  side : LinkEnd
  node : NetworkNode
  member : node ∈ graph.nodes
  named : node.id = side.nodeId link
  before : List NetworkNodeInterface
  interface : NetworkNodeInterface
  after : List NetworkNodeInterface
  interfaces : node.interfaces = before ++ interface :: after
  id : List Char
  plugged : side.interfaceId strand = some id
  meant : Text.trim interface.id = Text.trim id
  only : ∀ other ∈ before ++ after, Text.trim other.id ≠ Text.trim id
  contained : ∃ i ∈ (sanitizeNode node).interfaces,
    i.name = Text.trim interface.name ∧ i.address = Text.trim interface.address

namespace Cable
variable {graph : NetworkGraph} (c : Cable graph)

def value : List Char × List Char :=
  (Text.trim c.interface.name, Text.trim c.interface.address)

/-- The sanitized strand is plugged into the interface with the same name and address. -/
def Refers : Prop :=
  ∃ i ∈ (sanitizeNode c.node).interfaces,
    ((sanitizeLink (sanitizeGraph graph).nodes c.link).strands[c.index]?.bind
      (fun strand => c.side.interfaceId strand)) = some i.id ∧ (i.name, i.address) = c.value

/-- The interface is kept, and no earlier one without an id of its own is given its id. -/
def KeepsId : Prop :=
  Text.trim c.id ≠ [] ∧ (interfacePass c.node.id).Kept c.before c.interface c.value ∧
    ¬ (interfacePass c.node.id).Spared c.before (Text.trim c.id)

/-- An earlier interface of the same name and address, kept in its place, is given its id. -/
def TwinGetsId : Prop :=
  ∃ front twin, front ++ [twin] <+: c.node.interfaces ∧
    (interfacePass c.node.id).Kept front twin c.value ∧
      (interfacePass c.node.id).Displaced front twin ∧
        (interfacePass c.node.id).IsSpare front (Text.trim c.id)

/-- No interface is kept with the id, but the older address of the link leads the first
strand to the interface of the same name and address. -/
def BoundByAddress : Prop :=
  c.index = 0 ∧ ¬ Holds c.node (Text.trim c.id) ∧ ∃ front x, front ++ [x] <+: c.node.interfaces ∧
    (interfacePass c.node.id).Kept front x c.value ∧
      FirstAt c.node (c.side.address c.link) front x

lemma foldAddresses_eq : foldAddresses c.node = c.node.interfaces := by
  refine if_neg fun none => ?_
  have split := c.interfaces
  rw [none] at split
  exact absurd split (by simp)

lemma within : c.before ++ [c.interface] <+: c.node.interfaces := by
  rw [c.interfaces, append_cons c.before c.interface c.after]
  exact prefix_append _ _

lemma interfacesOf_eq : interfacesOf (sanitizeGraph graph).nodes (c.side.nodeId c.link) =
    (sanitizeNode c.node).interfaces := by
  have found : graph.nodes.find? (fun node => node.id = c.side.nodeId c.link) = some c.node := by
    cases found : graph.nodes.find? (fun node => node.id = c.side.nodeId c.link) with
    | none => exact absurd c.named (by simpa using find?_eq_none.mp found c.node c.member)
    | some node =>
      have named := find?_some found
      have same := inj_on_of_nodup_map c.distinct (mem_of_find?_eq_some found) c.member
        ((of_decide_eq_true named).trans c.named.symm)
      rw [same]
  change interfacesOf (graph.nodes.map sanitizeNode) _ = _
  rw [interfacesOf_sanitizeNode, found]
  rfl

lemma folded_strand : (foldStrands c.link)[c.index]? = some c.strand := by
  have some : c.link.strands ≠ [] := by
    intro none
    have listed := c.listed
    rw [none] at listed
    cases listed
  rw [foldStrands, if_neg some, getElem?_take_of_lt c.few, c.listed]

lemma sanitized_end : ((sanitizeLink (sanitizeGraph graph).nodes c.link).strands[c.index]?.bind
    (fun strand => c.side.interfaceId strand)) =
      boundInterface (sanitizeNode c.node).interfaces (c.side.address c.link) (c.index == 0)
        (some c.id) := by
  have shapes := congrArg (·[c.index]?) (map_unnamed_nameStrands c.link.id (foldStrands c.link))
  simp only [getElem?_map, folded_strand] at shapes
  obtain ⟨s, named, shape⟩ := map_eq_some_iff.mp shapes
  rw [getElem?_sanitizeLink, migrateStrands_eq, named, map_some, bind_some,
    ← c.interfacesOf_eq, ← c.plugged]
  cases c.side with
  | fromEnd =>
    have same : (unnamed s).fromInterfaceId = (strandShape c.strand).fromInterfaceId := by
      rw [shape]
    change (sanitizeStrand _ _ _ _ s).fromInterfaceId = boundInterface _ _ _
      (strandShape c.strand).fromInterfaceId
    rw [fromInterfaceId_sanitizeStrand, ← same]
    rfl
  | toEnd =>
    have same : (unnamed s).toInterfaceId = (strandShape c.strand).toInterfaceId := by rw [shape]
    change (sanitizeStrand _ _ _ _ s).toInterfaceId = boundInterface _ _ _
      (strandShape c.strand).toInterfaceId
    rw [toInterfaceId_sanitizeStrand, ← same]
    rfl

variable {front : List NetworkNodeInterface} {x : NetworkNodeInterface} {w : List Char}

lemma only_here (within : front ++ [x] <+: c.node.interfaces)
    (same : trim x.id = trim c.id) : front = c.before ∧ x = c.interface := by
  obtain ⟨rest, whole⟩ := within
  rw [c.interfaces, append_assoc, singleton_append] at whole
  rcases append_eq_append_iff.mp whole with ⟨mid, early, late⟩ | ⟨mid, early, late⟩
  · cases mid with
    | nil =>
      obtain ⟨rfl, -⟩ := List.cons.inj late
      exact ⟨(early.trans (append_nil front)).symm, rfl⟩
    | cons y mid =>
      obtain ⟨rfl, -⟩ := List.cons.inj late
      refine absurd same (c.only x (mem_append_left _ ?_))
      rw [early]
      exact mem_append_right _ mem_cons_self
  · cases mid with
    | nil =>
      obtain ⟨rfl, -⟩ := List.cons.inj late
      exact ⟨early.trans (append_nil c.before), rfl⟩
    | cons y mid =>
      obtain ⟨-, later⟩ := List.cons.inj late
      refine absurd same (c.only x (mem_append_right _ ?_))
      rw [later]
      exact mem_append_right _ mem_cons_self

lemma mem_iff {value : List Char × List Char} :
    (∃ i ∈ (sanitizeNode c.node).interfaces, w = i.id ∧ (i.name, i.address) = value) ↔
      ∃ front x, front ++ [x] <+: c.node.interfaces ∧
        (interfacePass c.node.id).Kept front x value ∧
          (interfacePass c.node.id).Gets front x w := by
  rw [interfaces_sanitizeNode, sanitizeInterfaces_eq, c.foldAddresses_eq, ← Pass.mem_result_iff]
  constructor
  · rintro ⟨i, member, rfl, rfl⟩
    obtain ⟨k, inside, rfl⟩ := mem_map.mp member
    exact inside
  · intro member
    exact ⟨toInterface w value, mem_map.mpr ⟨(w, value), member, rfl⟩, rfl, rfl⟩

/-- Who is kept under the name and address of the interface and gets its id. -/
lemma gets_iff : (∃ front x, front ++ [x] <+: c.node.interfaces ∧
    (interfacePass c.node.id).Kept front x c.value ∧
      (interfacePass c.node.id).Gets front x (trim c.id)) ↔ c.KeepsId ∨ c.TwinGetsId := by
  constructor
  · rintro ⟨front, x, within, kept, ⟨wish, own⟩ | ⟨displaced, spare⟩⟩
    · obtain ⟨same, dark⟩ := nonEmpty_eq_some.mp wish
      obtain ⟨rfl, rfl⟩ := c.only_here within same
      refine .inl ⟨dark, kept, fun spared => own ?_⟩
      exact Pass.displaced_iff.mpr (.inr ⟨_, wish, .inr spared⟩)
    · exact .inr ⟨front, x, within, kept, displaced, spare⟩
  · rintro (⟨dark, kept, free⟩ | ⟨front, twin, within, kept, displaced, spare⟩)
    · have wish : (interfacePass c.node.id).wish c.interface = some (trim c.id) :=
        nonEmpty_eq_some.mpr ⟨c.meant, dark⟩
      refine ⟨c.before, c.interface, c.within, kept, .inl ⟨wish, fun displaced => ?_⟩⟩
      rcases Pass.displaced_iff.mp displaced with none | ⟨w, other, known⟩
      · cases none.symm.trans wish
      · obtain rfl := Option.some.inj (wish.symm.trans other)
        rcases known with ⟨front, x, within, -, same⟩ | spared
        · refine c.only x (mem_append_left _ ?_) (nonEmpty_eq_some.mp same).1
          exact within.subset (mem_append_right _ mem_cons_self)
        · exact free spared
    · exact ⟨front, twin, within, kept, .inr ⟨displaced, spare⟩⟩

lemma ne_nil_of_gets {nodeId : List Char} (gets : (interfacePass nodeId).Gets front x w) :
    w ≠ [] := by
  rcases gets with ⟨wish, -⟩ | ⟨-, s, rfl, -⟩
  · exact (nonEmpty_eq_some.mp wish).2
  · intro empty
    have dark := (nonEmpty_eq_some.mp
      (nonEmpty_generated nodeId "-interface-".toList front.length s)).2
    change (generatedIds nodeId "-interface-".toList).name front.length s = [] at empty
    rw [empty] at dark
    exact dark rfl

lemma resolve_eq_some_iff : resolveInterface (sanitizeNode c.node).interfaces (some c.id) =
    some (trim c.id) ↔ Holds c.node (trim c.id) := by
  rw [resolveInterface_eq_some, ← holds_iff, bind_some, nonEmpty_eq_some]
  constructor
  · rintro ⟨-, holds⟩
    exact holds
  · intro holds
    have ⟨front, x, _, _, gets⟩ := holds
    exact ⟨⟨rfl, ne_nil_of_gets gets⟩, holds⟩

lemma resolve_eq_none (free : ¬ Holds c.node (trim c.id)) :
    resolveInterface (sanitizeNode c.node).interfaces (some c.id) = none := by
  rw [eq_none_iff_forall_ne_some]
  intro w found
  obtain ⟨trimmed, member⟩ := resolveInterface_eq_some.mp found
  obtain ⟨rfl, -⟩ := nonEmpty_eq_some.mp trimmed
  exact free (holds_iff.mpr member)

lemma bound_iff : (∃ i ∈ (sanitizeNode c.node).interfaces,
    interfaceAt (sanitizeNode c.node).interfaces (c.side.address c.link) = some i.id ∧
      (i.name, i.address) = c.value) ↔ ∃ front x, front ++ [x] <+: c.node.interfaces ∧
        (interfacePass c.node.id).Kept front x c.value ∧
          FirstAt c.node (c.side.address c.link) front x := by
  constructor
  · rintro ⟨i, member, bound, value⟩
    obtain ⟨front, x, within, first, gets⟩ := interfaceAt_sanitizeNode.mp bound
    have ⟨value', kept, _⟩ := first
    rw [c.foldAddresses_eq] at within
    have there := Pass.mem_result_iff.mpr ⟨front, x, within, kept, gets⟩
    have here := Pass.mem_result_iff.mpr (c.mem_iff.mp ⟨i, member, rfl, value⟩)
    obtain rfl := Pass.result_unique there here
    exact ⟨front, x, within, kept, first⟩
  · rintro ⟨front, x, within, kept, first⟩
    have gets : (interfacePass c.node.id).Gets front x ((interfacePass c.node.id).nameOf front x) :=
      Pass.gets_nameOf front x
    obtain ⟨i, member, same, value⟩ := c.mem_iff.mpr ⟨front, x, within, kept, gets⟩
    refine ⟨i, member, ?_, value⟩
    rw [← same]
    exact interfaceAt_sanitizeNode.mpr ⟨front, x, c.foldAddresses_eq ▸ within, first, gets⟩

/-- A strand stays where it was plugged in if and only if its interface keeps its id, the
id goes to an entry that stands for the interface, or the older address makes up for it. -/
theorem refers_iff : c.Refers ↔ c.KeepsId ∨ c.TwinGetsId ∨ c.BoundByAddress := by
  rw [Refers, sanitized_end, boundInterface, ← or_assoc, ← gets_iff]
  by_cases holds : Holds c.node (trim c.id)
  · have unbound : ¬ c.BoundByAddress := fun bound => bound.2.1 holds
    rw [or_iff_left unbound, ← mem_iff, c.resolve_eq_some_iff.mpr holds, some_or]
    simp only [some_inj]
  · have lost : ¬ ∃ front x, front ++ [x] <+: c.node.interfaces ∧
        (interfacePass c.node.id).Kept front x c.value ∧
          (interfacePass c.node.id).Gets front x (trim c.id) := by
      rintro ⟨front, x, within, kept, gets⟩
      exact holds ⟨front, x, c.foldAddresses_eq ▸ within, ⟨_, kept⟩, gets⟩
    rw [or_iff_right lost, c.resolve_eq_none holds, none_or, BoundByAddress, ← bound_iff]
    by_cases first : c.index = 0
    · rw [if_pos (beq_iff_eq.mpr first)]
      exact ⟨fun bound => ⟨first, holds, bound⟩, fun bound => bound.2.2⟩
    · rw [if_neg (by simpa using first)]
      refine iff_of_false ?_ fun bound => first bound.1
      rintro ⟨i, -, none, -⟩
      cases none

end Cable

/-- The second interface has the id that the first one, which has none, will be given. -/
def coreNode : NetworkNode where
  id := "core".toList
  interfaces := [{ id := [], name := "eth0".toList, address := [] },
    { id := "core-interface-0".toList, name := "eth1".toList, address := [] }]

def uplink : NetworkLink where
  id := "uplink".toList
  fromId := "core".toList
  toId := "edge".toList
  strands := [{ id := "strand".toList, fromInterfaceId := some "core-interface-0".toList }]

def uplinkGraph : NetworkGraph where
  nodes := [coreNode, { id := "edge".toList }]
  links := [uplink]

def uplinkCable : Cable uplinkGraph where
  distinct := by decide
  link := uplink
  keptLink := by decide
  index := 0
  few := by decide
  strand := { id := "strand".toList, fromInterfaceId := some "core-interface-0".toList }
  listed := rfl
  side := .fromEnd
  node := coreNode
  member := List.mem_cons_self
  named := rfl
  before := [{ id := [], name := "eth0".toList, address := [] }]
  interface := { id := "core-interface-0".toList, name := "eth1".toList, address := [] }
  after := []
  interfaces := rfl
  id := "core-interface-0".toList
  plugged := rfl
  meant := rfl
  only := by decide
  contained := by decide

/-- The strand of the second interface ends up at the first one. -/
theorem uplinkCable_moved : ¬ uplinkCable.Refers := by
  rw [Cable.Refers]
  decide

end ItOps.NetworkMap
