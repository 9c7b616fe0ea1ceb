import KKTerm.ItOps.NetworkIds

/-!
# Sanitizing a map again

Everything but the ids is left as it is by a second pass. The ids are, unless one was made
from a node or link id that begins with white space.
-/

namespace ItOps.NetworkMap

open Naming List Text

universe u v

section Fields

variable (kind : NetworkNodeKind) {low high : ℚ}

lemma clamp_bounds (ordered : low ≤ high) (value : ℚ) :
    low ≤ clamp low high value ∧ clamp low high value ≤ high := by
  rw [clamp]
  split
  · exact ⟨le_refl low, ordered⟩
  · next above =>
    split
    · exact ⟨ordered, le_refl high⟩
    · next below => exact ⟨not_lt.mp above, not_lt.mp below⟩

lemma clamp_of_mem {value : ℚ} (inside : low ≤ value ∧ value ≤ high) :
    clamp low high value = value := by
  rw [clamp, if_neg (not_lt.mpr inside.1), if_neg (not_lt.mpr inside.2)]

lemma clamp_clamp (ordered : low ≤ high) (value : ℚ) :
    clamp low high (clamp low high value) = clamp low high value :=
  clamp_of_mem (clamp_bounds ordered value)

variable {node : NetworkNode} {c : Char}

lemma sanitizeSize_geomap (geomap : node.kind = .geomap) :
    sanitizeSize node = { node with
      shape := .rectangle, width := max node.width 120, height := max node.height 44 } :=
  if_pos geomap

lemma sanitizeSize_rectangle (other : node.kind ≠ .geomap) (shape : node.shape = .rectangle) :
    sanitizeSize node = { node with
      width := clamp 120 maxNodeDimension node.width
      height := clamp 44 maxNodeDimension node.height } := by
  rw [sanitizeSize, if_neg other]
  exact if_neg (not_not.mpr shape)

lemma sanitizeSize_round (other : node.kind ≠ .geomap) (shape : node.shape ≠ .rectangle) :
    sanitizeSize node = { node with
      width := max (clamp 120 maxNodeDimension node.width) (clamp 44 maxNodeDimension node.height)
      height :=
        max (clamp 120 maxNodeDimension node.width) (clamp 44 maxNodeDimension node.height) } := by
  rw [sanitizeSize, if_neg other]
  exact if_pos shape

lemma sanitizeSize_sanitizeSize (node : NetworkNode) :
    sanitizeSize (sanitizeSize node) = sanitizeSize node := by
  have wide : (120 : ℚ) ≤ maxNodeDimension := by decide
  have high : (44 : ℚ) ≤ maxNodeDimension := by decide
  by_cases geomap : node.kind = .geomap
  · rw [sanitizeSize_geomap geomap, sanitizeSize_geomap]
    · simp only [max_assoc, max_self]
    · exact geomap
  · by_cases shape : node.shape = .rectangle
    · rw [sanitizeSize_rectangle geomap shape, sanitizeSize_rectangle]
      · simp only [clamp_clamp wide, clamp_clamp high]
      · exact geomap
      · exact shape
    · have width := clamp_bounds wide node.width
      have height := clamp_bounds high node.height
      have below := max_le width.2 height.2
      rw [sanitizeSize_round geomap shape, sanitizeSize_round]
      · simp only [clamp_of_mem ⟨le_max_of_le_left width.1, below⟩,
          clamp_of_mem ⟨le_max_of_le_right height.1, below⟩, max_self]
      · exact geomap
      · exact shape

lemma isAsciiHexdigit_iff : isAsciiHexdigit c = true ↔
    (0x30 ≤ c.toNat ∧ c.toNat ≤ 0x39) ∨ (0x61 ≤ c.toNat ∧ c.toNat ≤ 0x66) ∨
      (0x41 ≤ c.toNat ∧ c.toNat ≤ 0x46) := by
  simp only [isAsciiHexdigit, hexDigit]
  split
  · next digit => exact iff_of_true rfl (.inl digit)
  · split
    · next other small => exact iff_of_true rfl (.inr (.inl small))
    · split
      · next large => exact iff_of_true rfl (.inr (.inr large))
      · next digit small large => exact iff_of_false (by simp) (by tauto)

section
variable (digit : isAsciiHexdigit c = true)
include digit

lemma isAsciiHexdigit_toLower :
    isAsciiHexdigit c.toLower = true ∧ c.toLower.toLower = c.toLower := by
  rw [isAsciiHexdigit_iff] at digit ⊢
  have first := toLower_cases c
  have second := toLower_cases c.toLower
  constructor
  · rcases first with same | shift
    · rwa [same]
    · omega
  · rcases second with same | shift
    · exact same
    · rcases first with same | shift'
      · rw [same] at shift ⊢
        omega
      · omega

lemma isWhitespace_of_hexdigit : isWhitespace c = false := by
  rw [isAsciiHexdigit_iff] at digit
  rw [← Bool.not_eq_true]
  intro blank
  simp only [isWhitespace, Bool.or_eq_true, Bool.and_eq_true, decide_eq_true_eq,
    beq_iff_eq] at blank
  omega

lemma utf8Size_of_hexdigit : c.utf8Size = 1 := by
  rw [isAsciiHexdigit_iff] at digit
  rw [Char.utf8Size_eq_one_iff, UInt32.le_iff_toNat_le]
  change c.toNat ≤ 127
  omega

end

lemma byteLength_of_hexdigits {t : List Char} (digits : ∀ c ∈ t, isAsciiHexdigit c = true) :
    Text.byteLength t = t.length := by
  induction t with
  | nil => rfl
  | cons c t ih =>
    rw [byteLength_cons, utf8Size_of_hexdigit (digits c mem_cons_self),
      ih fun d member => digits d (mem_cons_of_mem c member), length_cons, Nat.add_comm]

/-- A color read from a text is `#` and six digits in small letters. -/
lemma sanitizeHexColor_again {value color : List Char}
    (found : sanitizeHexColor value = some color) : sanitizeHexColor color = some color := by
  rw [sanitizeHexColor] at found
  split at found
  · next shaped =>
    obtain ⟨length, head, digits⟩ := shaped
    cases found
    obtain ⟨tail, whole⟩ := head?_eq_some_iff.mp head
    rw [whole] at length digits ⊢
    have all : ∀ c ∈ tail, isAsciiHexdigit c = true := all_eq_true.mp digits
    have lower : asciiLower ('#' :: tail) = '#' :: tail.map Char.toLower := rfl
    have hex : ∀ c ∈ tail.map Char.toLower, isAsciiHexdigit c = true := by
      intro c member
      obtain ⟨d, inside, rfl⟩ := mem_map.mp member
      exact (isAsciiHexdigit_toLower (all d inside)).1
    have trimmed : trim ('#' :: tail.map Char.toLower) = '#' :: tail.map Char.toLower := by
      refine trim_of_dark fun c member => ?_
      rcases mem_cons.mp member with rfl | inside
      · decide
      · exact isWhitespace_of_hexdigit (hex c inside)
    have again : asciiLower ('#' :: tail.map Char.toLower) = '#' :: tail.map Char.toLower := by
      refine congrArg ('#' :: ·) ((map_map).trans (map_congr_left fun c inside => ?_))
      exact (isAsciiHexdigit_toLower (all c inside)).2
    rw [lower, sanitizeHexColor, trimmed, again]
    refine if_pos ⟨?_, rfl, all_eq_true.mpr hex⟩
    rw [byteLength_cons, byteLength_of_hexdigits all] at length
    rw [byteLength_cons, byteLength_of_hexdigits hex, length_map]
    exact length
  · cases found

lemma sanitizeIconKind_again (iconKind : Option NetworkNodeKind) :
    sanitizeIconKind kind (sanitizeIconKind kind iconKind) = sanitizeIconKind kind iconKind := by
  by_cases generic : kind = .generic
  · subst generic
    cases iconKind with
    | none => rfl
    | some icon => cases icon <;> rfl
  · have none : ∀ icon, sanitizeIconKind kind icon = none := fun _ => if_neg generic
    rw [none, none]

lemma sanitizeViewport_again (viewport : Option NetworkGeomapViewport) :
    sanitizeViewport kind (sanitizeViewport kind viewport) = sanitizeViewport kind viewport := by
  have zoom : (1 : ℚ) ≤ 4 := by decide
  have percent : (0 : ℚ) ≤ 100 := by decide
  by_cases geomap : kind = .geomap
  · simp only [sanitizeViewport, if_pos geomap, Option.getD_some, clamp_clamp zoom,
      clamp_clamp percent]
  · rw [sanitizeViewport, if_neg geomap, sanitizeViewport, if_neg geomap]

lemma bind_sanitizeHexColor (color : Option (List Char)) :
    (color.bind sanitizeHexColor).bind sanitizeHexColor = color.bind sanitizeHexColor := by
  cases found : color.bind sanitizeHexColor with
  | none => rfl
  | some w =>
    obtain ⟨t, -, found⟩ := Option.bind_eq_some_iff.mp found
    exact sanitizeHexColor_again found

lemma sanitizeNote_sanitizeNote (note : NetworkMapNote) :
    sanitizeNote (sanitizeNote note) = sanitizeNote note := by
  simp only [sanitizeNote, trim_trim, bind_sanitizeHexColor]
  rw [clamp_clamp (by decide), clamp_clamp (by decide)]

end Fields

section Nodes

/-- Everything about a node but its size. -/
def normalizeNode (node : NetworkNode) : NetworkNode :=
  { node with
    iconBackgroundColor := node.iconBackgroundColor.bind sanitizeHexColor
    interfaces := sanitizeInterfaces node.id (foldAddresses node)
    addresses := []
    legacyAddress := []
    iconKind := sanitizeIconKind node.kind node.iconKind
    deepLinks := sanitizeDeepLinks node.id node.deepLinks
    geomapViewport := sanitizeViewport node.kind node.geomapViewport }

variable (node : NetworkNode)

lemma sanitizeNode_eq : sanitizeNode node = sanitizeSize (normalizeNode node) :=
  rfl

lemma normalizeNode_sanitizeSize :
    normalizeNode (sanitizeSize node) = sanitizeSize (normalizeNode node) := by
  by_cases geomap : node.kind = .geomap
  · rw [sanitizeSize_geomap geomap, sanitizeSize_geomap]
    · rfl
    · exact geomap
  · by_cases shape : node.shape = .rectangle
    · rw [sanitizeSize_rectangle geomap shape, sanitizeSize_rectangle]
      · rfl
      · exact geomap
      · exact shape
    · rw [sanitizeSize_round geomap shape, sanitizeSize_round]
      · rfl
      · exact geomap
      · exact shape

lemma addresses_sanitizeNode :
    (sanitizeNode node).addresses = [] ∧ (sanitizeNode node).legacyAddress = [] := by
  rw [sanitizeNode_eq, sanitizeSize]
  split
  · exact ⟨rfl, rfl⟩
  · dsimp only
    split <;> exact ⟨rfl, rfl⟩

lemma foldAddresses_of_none {node : NetworkNode} (addresses : node.addresses = [])
    (legacy : node.legacyAddress = []) : foldAddresses node = node.interfaces := by
  rw [foldAddresses, addresses, legacy]
  split
  · next none => exact none.symm
  · rfl

lemma foldAddresses_sanitizeNode :
    foldAddresses (sanitizeNode node) = (sanitizeNode node).interfaces :=
  foldAddresses_of_none (addresses_sanitizeNode node).1 (addresses_sanitizeNode node).2

lemma sanitizeNode_again_iff :
    sanitizeNode (sanitizeNode node) = sanitizeNode node ↔
      sanitizeInterfaces node.id (sanitizeNode node).interfaces = (sanitizeNode node).interfaces ∧
        sanitizeDeepLinks node.id (sanitizeNode node).deepLinks =
          (sanitizeNode node).deepLinks := by
  constructor
  · intro same
    constructor
    · have interfaces := congrArg NetworkNode.interfaces same
      rwa [interfaces_sanitizeNode (sanitizeNode node), id_sanitizeNode,
        foldAddresses_sanitizeNode] at interfaces
    · have deepLinks := congrArg NetworkNode.deepLinks same
      rwa [deepLinks_sanitizeNode (sanitizeNode node), id_sanitizeNode] at deepLinks
  · rintro ⟨interfaces, deepLinks⟩
    have again : normalizeNode (normalizeNode node) = normalizeNode node := by
      have folded : foldAddresses (normalizeNode node) = (normalizeNode node).interfaces :=
        foldAddresses_of_none rfl rfl
      rw [interfaces_sanitizeNode] at interfaces
      rw [deepLinks_sanitizeNode] at deepLinks
      rw [normalizeNode, folded]
      simp only [normalizeNode, interfaces, deepLinks, bind_sanitizeHexColor,
        sanitizeIconKind_again, sanitizeViewport_again]
    rw [sanitizeNode_eq (sanitizeNode node), sanitizeNode_eq, normalizeNode_sanitizeSize, again,
      sanitizeSize_sanitizeSize]

lemma toInterface_injective : Function.Injective
    (fun k : List Char × (List Char × List Char) => toInterface k.1 k.2) := by
  rintro ⟨id, name, address⟩ ⟨id', name', address'⟩ same
  cases same
  rfl

/-- Ids are given again unless they were made from an id that begins with white space. -/
lemma renewed_iff {α : Type u} {β : Type v} {P : Pass (List Char) α β} (R : P.Renewal)
    {owner word : List Char} (scheme : P.scheme = generatedIds owner ('-' :: word))
    (echo : ∀ i s, R.echo i s = trim (P.scheme.name i s)) (xs : List α) :
    P.result (R.renew xs) = P.result xs ↔ (startsWithSpace owner = true → R.Settled xs) := by
  cases blank : startsWithSpace owner with
  | false =>
    refine iff_of_true (Pass.Renewal.renewed_of_plain (fun i s => ?_) xs) (by simp)
    rw [echo, scheme, trim_generated blank]
  | true =>
    have astray : R.Astray := by
      intro i s j t
      rw [echo, scheme]
      exact trim_generated_ne blank i s j t
    rw [Pass.Renewal.renewed_iff_settled astray]
    exact ⟨fun settled _ => settled, fun settled => settled rfl⟩

lemma sanitizeInterfaces_again_iff (nodeId : List Char) (xs : List NetworkNodeInterface) :
    sanitizeInterfaces nodeId (sanitizeInterfaces nodeId xs) = sanitizeInterfaces nodeId xs ↔
      (startsWithSpace nodeId = true → (interfaceRenewal nodeId).Settled xs) := by
  rw [← renewed_iff (interfaceRenewal nodeId) rfl (fun _ _ => rfl), sanitizeInterfaces_eq nodeId xs,
    sanitizeInterfaces_eq]
  exact (map_injective_iff.mpr toInterface_injective).eq_iff

lemma sanitizeDeepLinks_again_iff (nodeId : List Char) (xs : List NetworkNodeDeepLink) :
    sanitizeDeepLinks nodeId (sanitizeDeepLinks nodeId xs) = sanitizeDeepLinks nodeId xs ↔
      (startsWithSpace nodeId = true → (deepLinkRenewal nodeId).Settled xs) := by
  rw [← renewed_iff (deepLinkRenewal nodeId) rfl (fun _ _ => rfl), sanitizeDeepLinks_eq nodeId xs,
    sanitizeDeepLinks_eq]
  constructor
  · intro same
    refine Pass.Renewal.renewed_of_names ?_
    have ids := congrArg (map NetworkNodeDeepLink.id) same
    rwa [map_map, map_map] at ids
  · intro same
    exact congrArg (map fun k => toDeepLink k.1 k.2) same

end Nodes

section Links
variable {nodes : List NetworkNode} {link : NetworkLink} {strands : List NetworkLinkStrand}
  {interfaces : List NetworkNodeInterface} {id address : Option (List Char)}

variable (linkId : List Char) {native : Option (List Char)}

lemma map_id_nameStrands (strands : List NetworkLinkStrand) :
    (nameStrands linkId strands).map (·.id) = (strands.map (·.id)).zipIdx.foldl
        (fun ids x => ids ++ [uniqueStrandId ids linkId x.2 (nonEmpty x.1)]) [] := by
  induction strands using reverseRecOn with
  | nil => rfl
  | append_singleton strands x ih =>
    rw [map_append, zipIdx_append, foldl_append, ← ih, nameStrands,
      zipIdx_append, foldl_append, Nat.zero_add, Nat.zero_add, length_map]
    change (addStrand linkId (nameStrands linkId strands) (x, strands.length)).map (·.id) = _
    rw [addStrand, map_append]
    rfl

lemma nameStrands_again_iff (few : strands.length ≤ maxStrands) (linkId : List Char) :
    (nameStrands linkId (nameStrands linkId strands)).map (·.id) =
      (nameStrands linkId strands).map (·.id) ↔
        (startsWithSpace linkId = true → (strandRenewal linkId).Settled strands) := by
  have again : nameStrands linkId (nameStrands linkId strands) =
      ((strandPass linkId).result ((strandRenewal linkId).renew strands)).map
        (fun k => toStrand k.1 k.2) := by
    rw [nameStrands_eq_result few, nameStrands_eq_result]
    · rfl
    · rw [length_map]
      exact Pass.length_result_le strands
  rw [← renewed_iff (strandRenewal linkId) rfl (fun _ _ => rfl), again, nameStrands_eq_result few,
    map_map, map_map]
  constructor
  · intro same
    exact Pass.Renewal.renewed_of_names same
  · intro same
    rw [same]

lemma foldStrands_sanitizeLink (nodes : List NetworkNode) (link : NetworkLink) :
    foldStrands (sanitizeLink nodes link) = (sanitizeLink nodes link).strands := by
  have length := length_sanitizeLink nodes link
  have bounds := length_foldStrands link
  rw [foldStrands, if_neg, take_of_length_le]
  · rw [length]
    exact bounds.2
  · intro empty
    rw [empty, length_nil] at length
    omega

def unnamed (strand : NetworkLinkStrand) : NetworkLinkStrand :=
  { strand with id := [] }

lemma map_unnamed_nameStrands (strands : List NetworkLinkStrand) :
    (nameStrands linkId strands).map unnamed = strands.map strandShape := by
  have shapes := Pass.map_out (P := strandPass linkId) strands
  rw [shapes_strandPass] at shapes
  rw [nameStrands_eq, map_map, ← shapes]
  refine map_congr_left fun k member => ?_
  have shape : k.2 ∈ strands.map strandShape := shapes ▸ mem_map_of_mem member
  obtain ⟨x, -, same⟩ := mem_map.mp shape
  change unnamed (toStrand k.1 k.2) = k.2
  rw [← same]
  rfl

lemma strands_ext {strands others : List NetworkLinkStrand}
    (ids : strands.map (·.id) = others.map (·.id))
    (rest : strands.map unnamed = others.map unnamed) : strands = others := by
  induction strands generalizing others with
  | nil =>
    cases others with
    | nil => rfl
    | cons other others => cases ids
  | cons strand strands ih =>
    cases others with
    | nil => cases ids
    | cons other others =>
      obtain ⟨id, laterIds⟩ := List.cons.inj ids
      obtain ⟨part, laterParts⟩ := List.cons.inj rest
      obtain ⟨_, name, fromId, toId, speed⟩ := strand
      obtain ⟨_, name', fromId', toId', speed'⟩ := other
      cases part
      cases id
      rw [ih laterIds laterParts]

lemma unnamed_sanitizeLink (nodes : List NetworkNode) (link : NetworkLink) (k : Nat) :
    ((sanitizeLink nodes link).strands.map unnamed)[k]? = (foldStrands link)[k]?.map fun s =>
      sanitizeStrand link (interfacesOf nodes link.fromId) (interfacesOf nodes link.toId) (k == 0)
        (strandShape s) := by
  have shapes := congrArg (·[k]?) (map_unnamed_nameStrands link.id (foldStrands link))
  simp only [getElem?_map] at shapes
  have commutes : ∀ (first : Bool) (s : NetworkLinkStrand),
      unnamed (sanitizeStrand link (interfacesOf nodes link.fromId)
        (interfacesOf nodes link.toId) first s) = sanitizeStrand link
          (interfacesOf nodes link.fromId) (interfacesOf nodes link.toId) first (unnamed s) := by
    intro first s
    cases first <;> rfl
  have rest : (foldStrands link)[k]?.map (fun s => sanitizeStrand link
      (interfacesOf nodes link.fromId) (interfacesOf nodes link.toId) (k == 0) (strandShape s)) =
        ((foldStrands link)[k]?.map strandShape).map (sanitizeStrand link
          (interfacesOf nodes link.fromId) (interfacesOf nodes link.toId) (k == 0)) := by
    rw [Option.map_map]
    rfl
  rw [getElem?_map, getElem?_sanitizeLink, Option.map_map, migrateStrands_eq, rest, ← shapes,
    Option.map_map]
  exact Option.map_congr fun s _ => commutes _ s

lemma resolveInterface_again (interfaces : List NetworkNodeInterface) (id : Option (List Char)) :
    resolveInterface interfaces (resolveInterface interfaces id) =
      resolveInterface interfaces id := by
  cases found : resolveInterface interfaces id with
  | none => rfl
  | some w =>
    obtain ⟨trimmed, member⟩ := resolveInterface_eq_some.mp found
    obtain ⟨t, -, trimmed⟩ := Option.bind_eq_some_iff.mp trimmed
    exact resolveInterface_eq_some.mpr ⟨nonEmpty_of_nonEmpty trimmed, member⟩

/-- A second pass leaves the end of a strand where the first one plugged it in. -/
def SettledEnd (interfaces : List NetworkNodeInterface) (address id : Option (List Char)) : Prop :=
  resolveInterface interfaces id = none → ∀ w, interfaceAt interfaces address = some w →
    nonEmpty w = some w

lemma resolveInterface_boundInterface_iff (interfaces : List NetworkNodeInterface)
    (address id : Option (List Char)) (first : Bool) :
    resolveInterface interfaces (boundInterface interfaces address first id) =
      boundInterface interfaces address first id ↔
        (first = true → SettledEnd interfaces address id) := by
  rw [boundInterface]
  cases known : resolveInterface interfaces id with
  | some w =>
    refine iff_of_true ?_ (fun _ none => ?_)
    · rw [Option.some_or, ← known, resolveInterface_again]
    · cases none.symm.trans known
  | none =>
    rw [Option.none_or]
    cases first with
    | false => exact iff_of_true rfl (by simp)
    | true =>
      rw [if_pos rfl]
      cases bound : interfaceAt interfaces address with
      | none =>
        refine iff_of_true rfl (fun _ _ w some => ?_)
        cases bound.symm.trans some
      | some w =>
        rw [resolveInterface_eq_some]
        constructor
        · intro same _ _ v found
          obtain rfl := Option.some.inj (bound.symm.trans found)
          exact same.1
        · intro settled
          exact ⟨settled rfl known w bound, mem_of_interfaceAt bound⟩

lemma foldl_vlans (ids kept : List (List Char)) (tagged : Tagged native (kept ++ ids)) :
    ids.foldl (fun kept id =>
      if some id ≠ native ∧ id ∉ kept then kept ++ [id] else kept) kept = kept ++ ids := by
  induction ids generalizing kept with
  | nil => exact (append_nil kept).symm
  | cons id ids ih =>
    have fresh : id ∉ kept := fun member =>
      (nodup_append.mp tagged.distinct).2.2 id member id mem_cons_self rfl
    have other := tagged.other id (mem_append_right _ mem_cons_self)
    rw [append_cons] at tagged ⊢
    rw [foldl_cons, if_pos ⟨other, fresh⟩]
    exact ih _ tagged

lemma sanitizeVlans_of_tagged {ids : List (List Char)} (tagged : Tagged native ids) :
    sanitizeVlans native ids = ids := by
  have all : ids.filterMap nonEmpty = ids := by
    rw [filterMap_congr (g := some) tagged.trimmed, filterMap_some]
  rw [sanitizeVlans, all]
  exact foldl_vlans ids [] tagged

/-- A sanitized link has no addresses left that its first strand could be bound by. -/
lemma sanitizeStrand_sanitizeLink (nodes : List NetworkNode) (link : NetworkLink)
    (fromInterfaces toInterfaces : List NetworkNodeInterface) (first : Bool)
    (s : NetworkLinkStrand) :
    sanitizeStrand (sanitizeLink nodes link) fromInterfaces toInterfaces first s =
      resolveStrand fromInterfaces toInterfaces s := by
  cases first with
  | false => rfl
  | true =>
    have none : ∀ interfaces, interfaceAt interfaces none = none := fun _ => rfl
    change bindAddresses (sanitizeLink nodes link) fromInterfaces toInterfaces
      (resolveStrand fromInterfaces toInterfaces s) = _
    simp only [bindAddresses, sanitizeLink, none, Option.or_none]

lemma sanitizeStrand_again_iff (link : NetworkLink)
    (fromInterfaces toInterfaces : List NetworkNodeInterface) (first : Bool)
    (s : NetworkLinkStrand) :
    resolveStrand fromInterfaces toInterfaces
        (sanitizeStrand link fromInterfaces toInterfaces first s) =
      sanitizeStrand link fromInterfaces toInterfaces first s ↔
        (first = true → SettledEnd fromInterfaces link.fromAddress s.fromInterfaceId ∧
          SettledEnd toInterfaces link.toAddress s.toInterfaceId) := by
  have ends : ∀ t : NetworkLinkStrand, resolveStrand fromInterfaces toInterfaces t = t ↔
      resolveInterface fromInterfaces t.fromInterfaceId = t.fromInterfaceId ∧
        resolveInterface toInterfaces t.toInterfaceId = t.toInterfaceId := by
    intro t
    constructor
    · intro same
      exact ⟨congrArg NetworkLinkStrand.fromInterfaceId same,
        congrArg NetworkLinkStrand.toInterfaceId same⟩
    · rintro ⟨fromSame, toSame⟩
      rw [resolveStrand, fromSame, toSame]
  rw [ends, fromInterfaceId_sanitizeStrand, toInterfaceId_sanitizeStrand,
    resolveInterface_boundInterface_iff, resolveInterface_boundInterface_iff, ← forall_and]

lemma strandShape_strandShape (s : NetworkLinkStrand) :
    strandShape (strandShape s) = strandShape s := by
  simp only [strandShape, trim_trim]

lemma strandShape_sanitizeStrand (link : NetworkLink)
    (fromInterfaces toInterfaces : List NetworkNodeInterface) (first : Bool)
    (s : NetworkLinkStrand) :
    strandShape (sanitizeStrand link fromInterfaces toInterfaces first s) =
      sanitizeStrand link fromInterfaces toInterfaces first (strandShape s) := by
  cases first <;> rfl

/-- What a second pass makes of the strands of a sanitized link, but for their ids. -/
lemma unnamed_sanitizeLink_again (nodes : List NetworkNode) (link : NetworkLink) (k : Nat) :
    ((sanitizeLink nodes (sanitizeLink nodes link)).strands.map unnamed)[k]? =
      ((sanitizeLink nodes link).strands.map unnamed)[k]?.map
        (resolveStrand (interfacesOf nodes link.fromId) (interfacesOf nodes link.toId)) := by
  have second := unnamed_sanitizeLink nodes (sanitizeLink nodes link) k
  have first := unnamed_sanitizeLink nodes link k
  rw [foldStrands_sanitizeLink] at second
  have shape : (sanitizeLink nodes link).strands[k]?.map strandShape =
      ((sanitizeLink nodes link).strands.map unnamed)[k]? := by
    have parts : (sanitizeLink nodes link).strands[k]?.map strandShape =
        ((sanitizeLink nodes link).strands.map unnamed)[k]?.map strandShape := by
      rw [getElem?_map, Option.map_map]
      rfl
    rw [parts, first, Option.map_map]
    refine Option.map_congr fun s _ => ?_
    change strandShape (sanitizeStrand _ _ _ _ (strandShape s)) = _
    rw [strandShape_sanitizeStrand, strandShape_strandShape]
  rw [second, ← shape, Option.map_map]
  exact Option.map_congr fun s _ => sanitizeStrand_sanitizeLink nodes link _ _ _ _

lemma sanitizeLink_again_iff (nodes : List NetworkNode) (link : NetworkLink) :
    sanitizeLink nodes (sanitizeLink nodes link) = sanitizeLink nodes link ↔
      (startsWithSpace link.id = true → (strandRenewal link.id).Settled (foldStrands link)) ∧
        ∀ s ∈ (foldStrands link).head?,
          SettledEnd (interfacesOf nodes link.fromId) link.fromAddress s.fromInterfaceId ∧
            SettledEnd (interfacesOf nodes link.toId) link.toAddress s.toInterfaceId := by
  have rest : sanitizeLink nodes (sanitizeLink nodes link) = { sanitizeLink nodes link with
        strands := (sanitizeLink nodes (sanitizeLink nodes link)).strands } := by
    have tagged := sanitizeVlans_of_tagged
      (tagged_sanitizeVlans (link.nativeVlanId.bind nonEmpty) link.taggedVlanIds)
    rw [sanitizeLink]
    simp only [sanitizeLink, bind_nonEmpty, tagged]
  have whole : sanitizeLink nodes (sanitizeLink nodes link) = sanitizeLink nodes link ↔
      (sanitizeLink nodes (sanitizeLink nodes link)).strands =
        (sanitizeLink nodes link).strands := by
    constructor
    · intro same
      rw [same]
    · intro same
      rw [rest, same]
  have ids : (sanitizeLink nodes (sanitizeLink nodes link)).strands.map (·.id) =
      (sanitizeLink nodes link).strands.map (·.id) ↔
        (startsWithSpace link.id = true → (strandRenewal link.id).Settled (foldStrands link)) := by
    rw [← nameStrands_again_iff (length_foldStrands link).2, ← migrateStrands_eq,
      map_id_sanitizeLink, map_id_sanitizeLink, migrateStrands_eq, foldStrands_sanitizeLink,
      map_id_nameStrands, map_id_sanitizeLink, ← map_id_nameStrands]
    rfl
  have parts : (sanitizeLink nodes (sanitizeLink nodes link)).strands.map unnamed =
      (sanitizeLink nodes link).strands.map unnamed ↔ ∀ s ∈ (foldStrands link).head?,
        SettledEnd (interfacesOf nodes link.fromId) link.fromAddress s.fromInterfaceId ∧
          SettledEnd (interfacesOf nodes link.toId) link.toAddress s.toInterfaceId := by
    rw [List.ext_getElem?_iff]
    simp only [unnamed_sanitizeLink_again, unnamed_sanitizeLink nodes link, Option.map_map]
    constructor
    · intro same s head
      have first := same 0
      rw [← head?_eq_getElem?, Option.mem_def.mp head] at first
      exact (sanitizeStrand_again_iff link _ _ true (strandShape s)).mp (Option.some.inj first) rfl
    · intro settled k
      refine Option.map_congr fun s at_ => ?_
      refine (sanitizeStrand_again_iff link _ _ (k == 0) (strandShape s)).mpr fun first => ?_
      rw [beq_iff_eq] at first
      rw [first, ← head?_eq_getElem?] at at_
      exact settled s at_
  rw [whole, ← ids, ← parts]
  constructor
  · intro same
    rw [same]
    exact ⟨rfl, rfl⟩
  · rintro ⟨ids, parts⟩
    exact strands_ext ids parts

end Links

end ItOps.NetworkMap
