import KKTerm.ItOps.NetworkMap

/-!
# The ids of a network map

Interfaces, deep links and strands get their ids by one rule. An id made from a node or
link id that begins with white space is read back without it.
-/

namespace ItOps.NetworkMap

open Naming List Text

section Generated
variable {owner word t w : List Char}

def startsWithSpace (id : List Char) : Bool :=
  id.head?.any Text.isWhitespace

lemma nonEmpty_eq_some : nonEmpty t = some w ↔ trim t = w ∧ w ≠ [] := by
  rw [nonEmpty]
  constructor
  · intro found
    split at found
    · cases found
    · next dark =>
      cases found
      exact ⟨rfl, dark⟩
  · rintro ⟨rfl, dark⟩
    exact if_neg dark

lemma nonEmpty_of_nonEmpty (found : nonEmpty t = some w) : nonEmpty w = some w := by
  obtain ⟨rfl, dark⟩ := nonEmpty_eq_some.mp found
  exact nonEmpty_eq_some.mpr ⟨trim_trim t, dark⟩

lemma bind_nonEmpty (value : Option (List Char)) :
    (value.bind nonEmpty).bind nonEmpty = value.bind nonEmpty := by
  cases found : value.bind nonEmpty with
  | none => rfl
  | some w =>
    obtain ⟨t, -, found⟩ := Option.bind_eq_some_iff.mp found
    exact nonEmpty_of_nonEmpty found

lemma not_startsWithSpace_trim (t : List Char) : startsWithSpace (trim t) = false := by
  obtain ⟨rest, whole⟩ := trimEnd_prefix (trimStart t)
  rw [trim]
  cases front : trimEnd (trimStart t) with
  | nil => rfl
  | cons c u =>
    rw [front] at whole
    have dark := head?_dropWhile_not isWhitespace t
    rw [show t.dropWhile isWhitespace = c :: u ++ rest from whole.symm] at dark
    exact dark

lemma generated_ends (owner word : List Char) (index attempt : Nat) : ∃ front d,
    (generatedIds owner word).name index attempt = owner ++ word ++ front ++ [d] ∧
      isWhitespace d = false := by
  have digits : ∀ n : Nat, ∃ front d, Nat.toDigits 10 n = front ++ [d] ∧
      isWhitespace d = false := by
    intro n
    rcases eq_nil_or_concat (Nat.toDigits 10 n) with empty | ⟨front, d, whole⟩
    · exact absurd empty Nat.toDigits_ne_nil
    · rw [concat_eq_append] at whole
      refine ⟨front, d, whole, isWhitespace_of_isDigit ?_⟩
      refine isDigit_of_mem_toDigits (n := n) ?_
      rw [whole]
      exact mem_append_right _ mem_cons_self
  cases attempt with
  | zero =>
    obtain ⟨front, d, whole, dark⟩ := digits index
    refine ⟨front, d, ?_, dark⟩
    change generatedBase owner word index = _
    rw [generatedBase, whole, append_assoc (owner ++ word)]
  | succ attempt =>
    obtain ⟨front, d, whole, dark⟩ := digits (attempt + 2)
    refine ⟨Nat.toDigits 10 index ++ '-' :: front, d, ?_, dark⟩
    change generatedBase owner word index ++ '-' :: Nat.toDigits 10 (attempt + 2) = _
    rw [generatedBase, whole]
    simp only [append_assoc, cons_append]

lemma nonEmpty_generated (owner word : List Char) (index attempt : Nat) :
    nonEmpty ((generatedIds owner word).name index attempt) =
      some (trim ((generatedIds owner word).name index attempt)) := by
  refine nonEmpty_eq_some.mpr ⟨rfl, trim_ne_nil.mpr ?_⟩
  obtain ⟨front, d, whole, dark⟩ := generated_ends owner word index attempt
  rw [whole]
  exact ⟨d, mem_append_right _ mem_cons_self, dark⟩

lemma trim_generated (plain : startsWithSpace owner = false) (index attempt : Nat) :
    trim ((generatedIds owner ('-' :: word)).name index attempt) =
      (generatedIds owner ('-' :: word)).name index attempt := by
  obtain ⟨front, d, whole, dark⟩ := generated_ends owner ('-' :: word) index attempt
  rw [whole]
  cases owner with
  | nil => exact trim_enclosed (by decide) dark
  | cons c owner => exact trim_enclosed plain dark

lemma trim_generated_ne (blank : startsWithSpace owner = true) (i s j t : Nat) :
    trim ((generatedIds owner word).name i s) ≠ (generatedIds owner word).name j t := by
  intro same
  have trimmed := not_startsWithSpace_trim ((generatedIds owner word).name i s)
  obtain ⟨front, d, whole, -⟩ := generated_ends owner word j t
  rw [same, whole] at trimmed
  cases owner with
  | nil => cases blank
  | cons c owner => exact absurd (blank.symm.trans trimmed) (by decide)

end Generated

section Interfaces
variable {nodeId : List Char} {xs : List NetworkNodeInterface}

def interfaceShape (interface : NetworkNodeInterface) : Option (List Char × List Char) :=
  let name := Text.trim interface.name
  let address := Text.trim interface.address
  if name = [] ∧ address = [] then none else some (name, address)

def interfacePass (nodeId : List Char) :
    Pass (List Char) NetworkNodeInterface (List Char × List Char) where
  scheme := generatedIds nodeId "-interface-".toList
  wish interface := nonEmpty interface.id
  shape := interfaceShape
  again values value := value ∈ values
  eager := true
  limit := 32

def toInterface (id : List Char) (value : List Char × List Char) : NetworkNodeInterface :=
  { id, name := value.1, address := value.2 }

lemma keepInterface_eq (nodeId : List Char) (pass : InterfacePass) (x : NetworkNodeInterface)
    (index : Nat) : keepInterface nodeId pass (x, index) =
      match interfaceShape x with
      | none => pass
      | some value =>
        let id := uniqueInterfaceId pass.seenIds nodeId index (nonEmpty x.id)
        if value ∈ pass.seenValues then { pass with seenIds := pass.seenIds ++ [id] }
        else ⟨pass.seenIds ++ [id], pass.seenValues ++ [value],
          pass.kept ++ [toInterface id value]⟩ := by
  rw [keepInterface, interfaceShape]
  by_cases blank : trim x.name = [] ∧ trim x.address = []
  · simp only [if_pos blank]
  · simp only [if_neg blank]
    rfl

lemma foldl_keepInterface (nodeId : List Char) (xs : List NetworkNodeInterface) :
    xs.zipIdx.foldl (keepInterface nodeId) ⟨[], [], []⟩ =
      ⟨((interfacePass nodeId).run xs).seen, (interfacePass nodeId).shapes xs,
        ((interfacePass nodeId).run xs).out.map (fun k => toInterface k.1 k.2)⟩ := by
  induction xs using reverseRecOn with
  | nil => rfl
  | append_singleton xs x ih =>
    rw [zipIdx_append, foldl_append, ih, Nat.zero_add]
    change keepInterface nodeId _ (x, xs.length) = _
    rw [keepInterface_eq]
    cases shape : interfaceShape x with
    | none =>
      have drops : ∀ b, ¬ (interfacePass nodeId).Keeps xs x b := Pass.not_keeps_of_none shape
      rw [Pass.seen_passes (Pass.not_asks_of_none shape), Pass.shapes_drops drops,
        Pass.out_drops drops]
    | some value =>
      have asks : (interfacePass nodeId).Asks xs x := ⟨value, shape, .inr rfl⟩
      rw [Pass.seen_asks asks]
      by_cases again : value ∈ (interfacePass nodeId).shapes xs
      · have drops : ∀ b, ¬ (interfacePass nodeId).Keeps xs x b :=
          Pass.not_keeps_of_again shape (decide_eq_true again)
        rw [Pass.shapes_drops drops, Pass.out_drops drops]
        exact if_pos again
      · have keeps : (interfacePass nodeId).Keeps xs x value := ⟨shape, decide_eq_false again⟩
        rw [Pass.shapes_keeps keeps, Pass.out_keeps keeps, map_append]
        exact if_neg again

lemma sanitizeInterfaces_eq (nodeId : List Char) (xs : List NetworkNodeInterface) :
    sanitizeInterfaces nodeId xs =
      ((interfacePass nodeId).result xs).map (fun k => toInterface k.1 k.2) := by
  rw [sanitizeInterfaces, foldl_keepInterface, Pass.result, map_take]
  rfl

lemma interfaceShape_toInterface {x : NetworkNodeInterface} {value : List Char × List Char}
    (id : List Char) (shape : interfaceShape x = some value) :
    interfaceShape (toInterface id value) = some value := by
  rw [interfaceShape] at shape ⊢
  split at shape
  · cases shape
  · next dark =>
    cases shape
    simp only [toInterface, trim_trim]
    exact if_neg dark

def interfaceRenewal (nodeId : List Char) : (interfacePass nodeId).Renewal where
  back := toInterface
  echo index attempt :=
    Text.trim ((generatedIds nodeId "-interface-".toList).name index attempt)
  shape_back := interfaceShape_toInterface
  wish_back _ wish := nonEmpty_of_nonEmpty wish
  name_back index attempt _ := nonEmpty_generated nodeId _ index attempt

end Interfaces

section DeepLinks
variable {nodeId : List Char} {x link : NetworkNodeDeepLink} {xs : List NetworkNodeDeepLink}

def deepLinkShape (link : NetworkNodeDeepLink) : Option NetworkNodeDeepLink :=
  let link := clearDeepLink (trimDeepLink link)
  if (deepLinkTarget link).isSome then some { link with id := [] } else none

def deepLinkPass (nodeId : List Char) :
    Pass (List Char) NetworkNodeDeepLink NetworkNodeDeepLink where
  scheme := generatedIds nodeId "-deep-link-".toList
  wish link := nonEmpty link.id
  shape := deepLinkShape
  again links link := deepLinkTarget link ∈ links.map deepLinkTarget
  eager := false
  limit := 32

def toDeepLink (id : List Char) (link : NetworkNodeDeepLink) : NetworkNodeDeepLink :=
  { link with id }

lemma deepLinkTarget_id (link : NetworkNodeDeepLink) (id : List Char) :
    deepLinkTarget { link with id } = deepLinkTarget link :=
  rfl

lemma clearDeepLink_id (link : NetworkNodeDeepLink) (id : List Char) :
    clearDeepLink { link with id } = { clearDeepLink link with id } := by
  rw [clearDeepLink, clearDeepLink]
  cases link.kind <;> rfl

lemma trimDeepLink_clear (link : NetworkNodeDeepLink) :
    clearDeepLink (trimDeepLink (clearDeepLink (trimDeepLink link))) =
      clearDeepLink (trimDeepLink link) := by
  obtain ⟨id, kind, connectionId, siteId, serverRoom, rackId, rackItemId⟩ := link
  cases kind <;> simp only [clearDeepLink, trimDeepLink, bind_nonEmpty, Option.bind_none]

lemma deepLinkShape_toDeepLink (id : List Char) (shape : deepLinkShape x = some link) :
    deepLinkShape (toDeepLink id link) = some link := by
  rw [deepLinkShape] at shape ⊢
  split at shape
  · next target =>
    cases shape
    have same : clearDeepLink (trimDeepLink (toDeepLink id
        { clearDeepLink (trimDeepLink x) with id := [] })) =
          { clearDeepLink (trimDeepLink x) with id } := by
      change clearDeepLink { trimDeepLink (clearDeepLink (trimDeepLink x)) with id } = _
      rw [clearDeepLink_id, trimDeepLink_clear]
    simp only [same, deepLinkTarget_id]
    exact if_pos target
  · cases shape

lemma target_of_deepLinkShape (shape : deepLinkShape x = some link) :
    (deepLinkTarget link).isSome := by
  rw [deepLinkShape] at shape
  split at shape
  · next target =>
    cases shape
    exact target
  · cases shape

lemma keepDeepLink_eq (nodeId : List Char) (pass : DeepLinkPass) (x : NetworkNodeDeepLink)
    (index : Nat) : keepDeepLink nodeId pass (x, index) =
      match deepLinkShape x with
      | none => pass
      | some link =>
        let id := uniqueDeepLinkId pass.seenIds nodeId index (nonEmpty x.id)
        if deepLinkTarget link ∈ pass.seenTargets.map some then pass
        else ⟨pass.seenIds ++ [id], pass.seenTargets ++ (deepLinkTarget link).toList,
          pass.kept ++ [toDeepLink id link]⟩ := by
  have id : (clearDeepLink (trimDeepLink x)).id = x.id := by
    obtain ⟨id, kind, connectionId, siteId, serverRoom, rackId, rackItemId⟩ := x
    cases kind <;> rfl
  rw [keepDeepLink, deepLinkShape]
  cases target : deepLinkTarget (clearDeepLink (trimDeepLink x)) with
  | none => simp
  | some t =>
    simp only [target, Option.isSome_some, if_true, deepLinkTarget_id, id, mem_map,
      Option.some.injEq, exists_eq_right, Option.toList_some]
    rfl

lemma foldl_keepDeepLink (nodeId : List Char) (xs : List NetworkNodeDeepLink) :
    ∃ targets, targets.map some = ((deepLinkPass nodeId).shapes xs).map deepLinkTarget ∧
      xs.zipIdx.foldl (keepDeepLink nodeId) ⟨[], [], []⟩ =
        ⟨((deepLinkPass nodeId).run xs).seen, targets,
          ((deepLinkPass nodeId).run xs).out.map (fun k => toDeepLink k.1 k.2)⟩ := by
  induction xs using reverseRecOn with
  | nil => exact ⟨[], rfl, rfl⟩
  | append_singleton xs x ih =>
    obtain ⟨targets, same, ih⟩ := ih
    rw [zipIdx_append, foldl_append, ih, Nat.zero_add]
    change ∃ later, _ ∧ keepDeepLink nodeId _ (x, xs.length) = _
    rw [keepDeepLink_eq]
    cases shape : deepLinkShape x with
    | none =>
      have drops : ∀ b, ¬ (deepLinkPass nodeId).Keeps xs x b := Pass.not_keeps_of_none shape
      rw [Pass.seen_passes (Pass.not_asks_of_none shape), Pass.shapes_drops drops,
        Pass.out_drops drops]
      exact ⟨targets, same, rfl⟩
    | some link =>
      by_cases again : deepLinkTarget link ∈ targets.map some
      · have repeated : (deepLinkPass nodeId).again ((deepLinkPass nodeId).shapes xs) link = true :=
          decide_eq_true (same ▸ again)
        have drops : ∀ b, ¬ (deepLinkPass nodeId).Keeps xs x b :=
          Pass.not_keeps_of_again shape repeated
        rw [Pass.seen_passes (Pass.not_asks_of_again shape repeated rfl), Pass.shapes_drops drops,
          Pass.out_drops drops]
        exact ⟨targets, same, if_pos again⟩
      · have keeps : (deepLinkPass nodeId).Keeps xs x link :=
          ⟨shape, decide_eq_false (same ▸ again)⟩
        rw [Pass.seen_asks keeps.asks, Pass.shapes_keeps keeps, Pass.out_keeps keeps,
          map_append, map_append, ← same]
        refine ⟨targets ++ (deepLinkTarget link).toList, ?_, if_neg again⟩
        obtain ⟨target, found⟩ := Option.isSome_iff_exists.mp (target_of_deepLinkShape shape)
        rw [map_append, map_singleton, found]
        rfl

lemma sanitizeDeepLinks_eq (nodeId : List Char) (xs : List NetworkNodeDeepLink) :
    sanitizeDeepLinks nodeId xs =
      ((deepLinkPass nodeId).result xs).map (fun k => toDeepLink k.1 k.2) := by
  obtain ⟨targets, -, folded⟩ := foldl_keepDeepLink nodeId xs
  rw [sanitizeDeepLinks, folded, Pass.result, map_take]
  rfl

def deepLinkRenewal (nodeId : List Char) : (deepLinkPass nodeId).Renewal where
  back := toDeepLink
  echo index attempt :=
    Text.trim ((generatedIds nodeId "-deep-link-".toList).name index attempt)
  shape_back := deepLinkShape_toDeepLink
  wish_back _ wish := nonEmpty_of_nonEmpty wish
  name_back index attempt _ := nonEmpty_generated nodeId _ index attempt

end DeepLinks

section Strands
variable {linkId : List Char} {xs : List NetworkLinkStrand}

def strandShape (strand : NetworkLinkStrand) : NetworkLinkStrand :=
  { strand with id := [], name := Text.trim strand.name, speed := Text.trim strand.speed }

def strandPass (linkId : List Char) : Pass (List Char) NetworkLinkStrand NetworkLinkStrand where
  scheme := generatedIds linkId "-strand-".toList
  wish strand := nonEmpty strand.id
  shape strand := some (strandShape strand)
  again _ _ := false
  eager := false
  limit := maxStrands

def toStrand (id : List Char) (strand : NetworkLinkStrand) : NetworkLinkStrand :=
  { strand with id }

lemma keeps_strand (xs : List NetworkLinkStrand) (x : NetworkLinkStrand) :
    (strandPass linkId).Keeps xs x (strandShape x) :=
  ⟨rfl, rfl⟩

lemma shapes_strandPass (linkId : List Char) (xs : List NetworkLinkStrand) :
    (strandPass linkId).shapes xs = xs.map strandShape := by
  induction xs using reverseRecOn with
  | nil => rfl
  | append_singleton xs x ih =>
    rw [Pass.shapes_keeps (keeps_strand xs x), ih, map_append]
    rfl

lemma nameStrands_eq (linkId : List Char) (xs : List NetworkLinkStrand) :
    nameStrands linkId xs =
      ((strandPass linkId).run xs).out.map (fun k => toStrand k.1 k.2) := by
  induction xs using reverseRecOn with
  | nil => rfl
  | append_singleton xs x ih =>
    have seen : (nameStrands linkId xs).map (·.id) = ((strandPass linkId).run xs).seen := by
      rw [ih, Pass.seen_of_whole (by rw [shapes_strandPass, length_map]), map_map]
      rfl
    rw [nameStrands, zipIdx_append, foldl_append, Nat.zero_add,
      Pass.out_keeps (keeps_strand xs x), map_append, ← ih]
    change addStrand linkId (nameStrands linkId xs) (x, xs.length) = _
    rw [addStrand, seen]
    rfl

lemma nameStrands_eq_result (few : xs.length ≤ maxStrands) :
    nameStrands linkId xs =
      ((strandPass linkId).result xs).map (fun k => toStrand k.1 k.2) := by
  rw [nameStrands_eq, Pass.result, take_of_length_le]
  rw [Pass.length_out, shapes_strandPass, length_map]
  exact few

def strandRenewal (linkId : List Char) : (strandPass linkId).Renewal where
  back := toStrand
  echo index attempt :=
    Text.trim ((generatedIds linkId "-strand-".toList).name index attempt)
  shape_back := by
    intro x b id shape
    obtain rfl := Option.some.inj shape
    change some (strandShape (toStrand id (strandShape x))) = _
    simp only [strandShape, toStrand, Text.trim_trim]
  wish_back _ wish := nonEmpty_of_nonEmpty wish
  name_back index attempt _ := nonEmpty_generated linkId _ index attempt

end Strands

end ItOps.NetworkMap

/-!
# What a sanitized map looks like

Every link joins two nodes that exist, every strand is plugged into an interface of its
node, and ids are distinct.
-/

namespace ItOps.NetworkMap

open Naming List

structure WellFormedNode (node : NetworkNode) : Prop where
  fewInterfaces : node.interfaces.length ≤ 32
  interfaceIds : (node.interfaces.map (·.id)).Nodup
  interfaceValues : (node.interfaces.map (fun i => (i.name, i.address))).Nodup
  deepLinkIds : (node.deepLinks.map (·.id)).Nodup

/-- The id, if there is one, is that of an interface of a node with the node id. -/
def Plugged (nodes : List NetworkNode) (nodeId : List Char) (id : Option (List Char)) : Prop :=
  ∀ w ∈ id, ∃ node ∈ nodes, node.id = nodeId ∧ ∃ interface ∈ node.interfaces, interface.id = w

structure WellFormedLink (nodes : List NetworkNode) (link : NetworkLink) : Prop where
  apart : link.fromId ≠ link.toId
  fromNode : ∃ node ∈ nodes, node.id = link.fromId
  toNode : ∃ node ∈ nodes, node.id = link.toId
  someStrand : 1 ≤ link.strands.length
  fewStrands : link.strands.length ≤ 64
  strandIds : (link.strands.map (·.id)).Nodup
  plugged : ∀ strand ∈ link.strands, Plugged nodes link.fromId strand.fromInterfaceId ∧
    Plugged nodes link.toId strand.toInterfaceId
  untagged : ∀ native ∈ link.nativeVlanId, native ∉ link.taggedVlanIds
  tagged : link.taggedVlanIds.Nodup

structure WellFormed (graph : NetworkGraph) : Prop where
  nodes : ∀ node ∈ graph.nodes, WellFormedNode node
  links : ∀ link ∈ graph.links, WellFormedLink graph.nodes link

section Nodes

variable (node : NetworkNode)

lemma sanitizeSize_fields :
    (sanitizeSize node).id = node.id ∧ (sanitizeSize node).interfaces = node.interfaces ∧
      (sanitizeSize node).deepLinks = node.deepLinks := by
  rw [sanitizeSize]
  split
  · exact ⟨rfl, rfl, rfl⟩
  · dsimp only
    split <;> exact ⟨rfl, rfl, rfl⟩

lemma id_sanitizeNode : (sanitizeNode node).id = node.id :=
  (sanitizeSize_fields _).1

lemma interfaces_sanitizeNode :
    (sanitizeNode node).interfaces = sanitizeInterfaces node.id (foldAddresses node) :=
  (sanitizeSize_fields _).2.1

lemma deepLinks_sanitizeNode :
    (sanitizeNode node).deepLinks = sanitizeDeepLinks node.id node.deepLinks :=
  (sanitizeSize_fields _).2.2

variable (nodeId : List Char) (xs : List NetworkNodeInterface)

lemma nodup_values : ((interfacePass nodeId).shapes xs).Nodup := by
  induction xs using reverseRecOn with
  | nil => exact nodup_nil
  | append_singleton xs x ih =>
    by_cases keeps : ∃ value, (interfacePass nodeId).Keeps xs x value
    · obtain ⟨value, keeps⟩ := keeps
      rw [Pass.shapes_keeps keeps, ← concat_eq_append]
      exact ih.concat (of_decide_eq_false keeps.2)
    · rwa [Pass.shapes_drops (not_exists.mp keeps)]

lemma map_values_sanitizeInterfaces :
    (sanitizeInterfaces nodeId xs).map (fun i => (i.name, i.address)) =
      ((interfacePass nodeId).shapes xs).take 32 := by
  have values := Pass.map_result (P := interfacePass nodeId) xs
  rw [sanitizeInterfaces_eq, map_map]
  exact values

lemma wellFormedNode_sanitizeNode : WellFormedNode (sanitizeNode node) where
  fewInterfaces := by
    rw [interfaces_sanitizeNode, sanitizeInterfaces_eq, length_map]
    exact Pass.length_result_le _
  interfaceIds := by
    rw [interfaces_sanitizeNode, sanitizeInterfaces_eq, map_map]
    exact Pass.names_nodup _
  interfaceValues := by
    rw [interfaces_sanitizeNode, map_values_sanitizeInterfaces]
    exact (nodup_values _ _).sublist (take_sublist _ _)
  deepLinkIds := by
    rw [deepLinks_sanitizeNode, sanitizeDeepLinks_eq, map_map]
    exact Pass.names_nodup _

end Nodes

section Links
variable {nodes : List NetworkNode} {link : NetworkLink} {links : List NetworkLink}
  {interfaces fromInterfaces toInterfaces : List NetworkNodeInterface}
  {id address : Option (List Char)} {w : List Char}

lemma resolveInterface_eq_some : resolveInterface interfaces id = some w ↔
    id.bind nonEmpty = some w ∧ ∃ interface ∈ interfaces, interface.id = w := by
  rw [resolveInterface, Option.filter_eq_some_iff]
  simp only [any_eq_true, decide_eq_true_eq]

lemma interfaceAt_eq_some : interfaceAt interfaces address = some w ↔
    ∃ a, address.bind nonEmpty = some a ∧ ∃ interface,
      interfaces.find? (fun interface => interface.address = a) = some interface ∧
        interface.id = w := by
  simp only [interfaceAt, bind, Option.bind_eq_some_iff, Option.some.injEq]

lemma mem_of_interfaceAt (found : interfaceAt interfaces address = some w) :
    ∃ interface ∈ interfaces, interface.id = w := by
  obtain ⟨a, -, interface, found, id⟩ := interfaceAt_eq_some.mp found
  exact ⟨interface, mem_of_find?_eq_some found, id⟩

lemma plugged_of_mem {nodeId : List Char}
    (known : ∀ w ∈ id, ∃ interface ∈ interfacesOf nodes nodeId, interface.id = w) :
    Plugged nodes nodeId id := by
  intro w member
  obtain ⟨interface, within, same⟩ := known w member
  rw [interfacesOf] at within
  cases found : nodes.find? (fun node => node.id = nodeId) with
  | none =>
    rw [found] at within
    cases within
  | some node =>
    rw [found] at within
    have id := find?_some found
    exact ⟨node, mem_of_find?_eq_some found, of_decide_eq_true id, interface, within, same⟩

/-- What becomes of a strand, which is the first one or not. -/
def sanitizeStrand (link : NetworkLink) (fromInterfaces toInterfaces : List NetworkNodeInterface)
    (first : Bool) (strand : NetworkLinkStrand) : NetworkLinkStrand :=
  let strand := resolveStrand fromInterfaces toInterfaces strand
  if first then bindAddresses link fromInterfaces toInterfaces strand else strand

variable (strands : List NetworkLinkStrand)

lemma getElem?_strands (k : Nat) :
    ((strands.map (resolveStrand fromInterfaces toInterfaces)).modifyHead
      (bindAddresses link fromInterfaces toInterfaces))[k]? =
        strands[k]?.map (sanitizeStrand link fromInterfaces toInterfaces (k == 0)) := by
  cases strands with
  | nil => rfl
  | cons strand strands =>
    cases k with
    | zero => rfl
    | succ k =>
      simp only [map_cons, modifyHead_cons, getElem?_cons_succ, getElem?_map]
      rfl

variable (first : Bool) (strand : NetworkLinkStrand)

lemma id_sanitizeStrand :
    (sanitizeStrand link fromInterfaces toInterfaces first strand).id = strand.id := by
  cases first <;> rfl

/-- The interface that one end of a strand is plugged into. -/
def boundInterface (interfaces : List NetworkNodeInterface) (address : Option (List Char))
    (first : Bool) (id : Option (List Char)) : Option (List Char) :=
  (resolveInterface interfaces id).or (if first then interfaceAt interfaces address else none)

lemma fromInterfaceId_sanitizeStrand :
    (sanitizeStrand link fromInterfaces toInterfaces first strand).fromInterfaceId =
      boundInterface fromInterfaces link.fromAddress first strand.fromInterfaceId := by
  cases first with
  | true => rfl
  | false => exact Option.or_none.symm

lemma toInterfaceId_sanitizeStrand :
    (sanitizeStrand link fromInterfaces toInterfaces first strand).toInterfaceId =
      boundInterface toInterfaces link.toAddress first strand.toInterfaceId := by
  cases first with
  | true => rfl
  | false => exact Option.or_none.symm

lemma mem_of_boundInterface {first : Bool}
    (bound : boundInterface interfaces address first id = some w) :
    ∃ interface ∈ interfaces, interface.id = w := by
  rcases Option.or_eq_some_iff.mp bound with known | ⟨-, known⟩
  · exact (resolveInterface_eq_some.mp known).2
  · cases first with
    | true => exact mem_of_interfaceAt known
    | false => cases known

lemma length_nameStrands (linkId : List Char) (strands : List NetworkLinkStrand) :
    (nameStrands linkId strands).length = strands.length := by
  rw [nameStrands_eq, length_map, Pass.length_out, shapes_strandPass, length_map]

/-- The strands of a link, or those its older fields stand for. -/
def foldStrands (link : NetworkLink) : List NetworkLinkStrand :=
  if link.strands = [] then legacyStrands link else link.strands.take maxStrands

lemma migrateStrands_eq (link : NetworkLink) :
    migrateStrands link = nameStrands link.id (foldStrands link) := by
  rw [migrateStrands, foldStrands]
  by_cases none : link.strands = []
  · rw [if_pos none, none]
    exact if_pos rfl
  · rw [if_neg none]
    refine if_neg fun empty => none ?_
    have length := length_nameStrands link.id (link.strands.take maxStrands)
    rw [empty, length_nil, length_take] at length
    have positive : 0 < maxStrands := by decide
    exact length_eq_zero_iff.mp (by omega)

lemma length_foldStrands (link : NetworkLink) :
    1 ≤ (foldStrands link).length ∧ (foldStrands link).length ≤ maxStrands := by
  have positive : 1 ≤ maxStrands := by decide
  rw [foldStrands]
  split
  · simp only [legacyStrands, length_replicate]
    omega
  · next some =>
    have length := length_pos_iff.mpr some
    rw [length_take]
    omega

lemma map_id_strands :
    ((strands.map (resolveStrand fromInterfaces toInterfaces)).modifyHead
      (bindAddresses link fromInterfaces toInterfaces)).map (·.id) = strands.map (·.id) := by
  refine ext_getElem? fun k => ?_
  rw [getElem?_map, getElem?_strands, Option.map_map, getElem?_map]
  refine Option.map_congr fun strand _ => ?_
  exact id_sanitizeStrand _ strand

lemma nodup_migrateStrands (link : NetworkLink) : ((migrateStrands link).map (·.id)).Nodup := by
  rw [migrateStrands_eq, nameStrands_eq_result (length_foldStrands link).2, map_map]
  exact Pass.names_nodup _

lemma getElem?_sanitizeLink (nodes : List NetworkNode) (link : NetworkLink) (k : Nat) :
    (sanitizeLink nodes link).strands[k]? = (migrateStrands link)[k]?.map
      (sanitizeStrand link (interfacesOf nodes link.fromId) (interfacesOf nodes link.toId)
        (k == 0)) :=
  getElem?_strands _ k

lemma mem_strands {strand : NetworkLinkStrand}
    (member : strand ∈ (sanitizeLink nodes link).strands) : ∃ first, ∃ s ∈ migrateStrands link,
      strand = sanitizeStrand link (interfacesOf nodes link.fromId)
        (interfacesOf nodes link.toId) first s := by
  obtain ⟨k, read⟩ := mem_iff_getElem?.mp member
  rw [getElem?_sanitizeLink] at read
  obtain ⟨s, found, rfl⟩ := Option.map_eq_some_iff.mp read
  exact ⟨k == 0, s, mem_of_getElem? found, rfl⟩

/-- Distinct ids of VLANs that are trimmed and tagged only. -/
structure Tagged (native : Option (List Char)) (ids : List (List Char)) : Prop where
  distinct : ids.Nodup
  other : ∀ id ∈ ids, some id ≠ native
  trimmed : ∀ id ∈ ids, nonEmpty id = some id

lemma tagged_foldl {native : Option (List Char)} (ids kept : List (List Char))
    (trimmed : ∀ id ∈ ids, nonEmpty id = some id) (tagged : Tagged native kept) :
    Tagged native (ids.foldl (fun kept id =>
      if some id ≠ native ∧ id ∉ kept then kept ++ [id] else kept) kept) := by
  induction ids generalizing kept with
  | nil => exact tagged
  | cons id ids ih =>
    refine ih _ (fun a member => trimmed a (mem_cons_of_mem _ member)) ?_
    dsimp only
    split
    · next new =>
      refine ⟨?_, ?_, ?_⟩
      · rw [← concat_eq_append]
        exact tagged.distinct.concat new.2
      · intro a member
        rcases mem_append.mp member with old | last
        · exact tagged.other a old
        · exact mem_singleton.mp last ▸ new.1
      · intro a member
        rcases mem_append.mp member with old | last
        · exact tagged.trimmed a old
        · exact mem_singleton.mp last ▸ trimmed id mem_cons_self
    · exact tagged

lemma tagged_sanitizeVlans (native : Option (List Char)) (tagged : List (List Char)) :
    Tagged native (sanitizeVlans native tagged) := by
  refine tagged_foldl _ [] ?_ ⟨nodup_nil, by simp, by simp⟩
  intro id member
  obtain ⟨t, -, found⟩ := mem_filterMap.mp member
  exact nonEmpty_of_nonEmpty found

lemma map_id_sanitizeLink (nodes : List NetworkNode) (link : NetworkLink) :
    (sanitizeLink nodes link).strands.map (·.id) = (migrateStrands link).map (·.id) :=
  map_id_strands _

lemma length_sanitizeLink (nodes : List NetworkNode) (link : NetworkLink) :
    (sanitizeLink nodes link).strands.length = (foldStrands link).length := by
  have same := congrArg List.length (map_id_sanitizeLink nodes link)
  rwa [length_map, length_map, migrateStrands_eq, length_nameStrands] at same

lemma wellFormedLink_sanitizeLink (kept : link ∈ keptLinks nodes links) :
    WellFormedLink nodes (sanitizeLink nodes link) := by
  obtain ⟨-, joins⟩ := mem_filter.mp kept
  obtain ⟨apart, fromNode, toNode⟩ := of_decide_eq_true joins
  exact {
    apart
    fromNode := mem_map.mp fromNode
    toNode := mem_map.mp toNode
    someStrand := length_sanitizeLink nodes link ▸ (length_foldStrands link).1
    fewStrands := length_sanitizeLink nodes link ▸ (length_foldStrands link).2
    strandIds := by
      rw [map_id_sanitizeLink]
      exact nodup_migrateStrands link
    plugged := by
      intro strand member
      obtain ⟨first, s, -, rfl⟩ := mem_strands member
      rw [fromInterfaceId_sanitizeStrand, toInterfaceId_sanitizeStrand]
      exact ⟨plugged_of_mem fun w bound => mem_of_boundInterface bound,
        plugged_of_mem fun w bound => mem_of_boundInterface bound⟩
    untagged := fun native same member => (tagged_sanitizeVlans _ _).other native member same.symm
    tagged := (tagged_sanitizeVlans _ _).distinct }

end Links

lemma wellFormed_sanitizeGraph (graph : NetworkGraph) : WellFormed (sanitizeGraph graph) where
  nodes := by
    intro node member
    obtain ⟨n, -, rfl⟩ := mem_map.mp member
    exact wellFormedNode_sanitizeNode n
  links := by
    intro link member
    obtain ⟨l, kept, rfl⟩ := mem_map.mp member
    exact wellFormedLink_sanitizeLink kept

end ItOps.NetworkMap
