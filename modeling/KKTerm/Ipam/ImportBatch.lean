import KKTerm.Ipam.ImportPreview
import KKTerm.Library.Table

/-!
# Import of a batch

One transaction creates every record of a batch. A record that exists already is
skipped; any other failure rolls the whole batch back, so the tables are returned
only on success.
-/

namespace Ipam

open Fallible List Text Function Prod

def vlanIdMin : Nat := 1
def vlanIdMax : Nat := 4094
def maxImportRecords : Nat := 100000

def VlanOk (v : Vlan) : Prop :=
  (vlanIdMin ≤ v.vid ∧ v.vid ≤ vlanIdMax) ∧ v.accent ≤ 255

def SameVlan (old new : Vlan) : Prop :=
  old.id = new.id ∨ old.vid = new.vid

def SamePrefix (old new : IpPrefix) : Prop :=
  old.id = new.id ∨ old.vrf = new.vrf ∧ old.cidr = new.cidr

def SameAddress (old new : IpAddressRecord) : Prop :=
  old.id = new.id ∨ old.vrf = new.vrf ∧ old.address = new.address

instance vlanOkDecidable : DecidablePred VlanOk :=
  fun _ => inferInstanceAs (Decidable (_ ∧ _))

instance sameVlanDecidable : DecidableRel SameVlan :=
  fun _ _ => inferInstanceAs (Decidable (_ ∨ _))

instance samePrefixDecidable : DecidableRel SamePrefix :=
  fun _ _ => inferInstanceAs (Decidable (_ ∨ _))

instance sameAddressDecidable : DecidableRel SameAddress :=
  fun _ _ => inferInstanceAs (Decidable (_ ∨ _))

structure Tables where
  vlans : Table VlanOk SameVlan
  prefixes : Table (fun _ => True) SamePrefix
  addresses : Table (fun _ => True) SameAddress
  /-- The hosts with their sites. -/
  hosts : List (List Char × List Char)

/-- A blank reference is none. -/
def optionalId (value : Option (List Char)) : Option (List Char) :=
  (value.map Text.trim).filter (fun text => text ≠ [])

def readRow (row : Vlan) : Vlan :=
  { row with vid := max vlanIdMin (min row.vid vlanIdMax), accent := min row.accent 255 }

def listVlans (t : Tables) : List Vlan :=
  (t.vlans.rows.insertionSort (fun a b => a.vid ≤ b.vid)).map readRow

def vidOutOfRange : List Char :=
  "VLAN id must be between ".toList ++ Nat.toDigits 10 vlanIdMin ++ " and ".toList ++
    Nat.toDigits 10 vlanIdMax

def validateVid (vid : Nat) : Except (List Char) Nat := do
  reject (¬ (vlanIdMin ≤ vid ∧ vid ≤ vlanIdMax)) vidOutOfRange
  return vid

def createVlan (t : Tables) (id : List Char) (vid : Nat) (name description : List Char)
    (siteId : Option (List Char)) (accent : Nat) : Except (List Char) (Tables × Vlan) := do
  let vid ← validateVid vid
  let vlan : Vlan :=
    { id, vid, name := Text.trim name, description := Text.trim description
      siteId := optionalId siteId, accent }
  let vlans ← require (t.vlans.insertOrIgnore vlan)
    ("VLAN ".toList ++ Nat.toDigits 10 vlan.vid ++ " already exists".toList)
  return ({ t with vlans }, vlan)

def canonicalCidr (cidr : List Char) : Except (List Char) (List Char) :=
  (require (Prefix.parse cidr) ("'".toList ++ Text.trim cidr ++
    "' is not a valid IPv4 prefix (expected a.b.c.d/len)".toList)).map Prefix.toCidr

def createPrefix (t : Tables) (id cidr vrf role : List Char) (status : PrefixStatus)
    (description : List Char) (siteId vlanId : Option (List Char)) :
    Except (List Char) (Tables × IpPrefix) := do
  let cidr ← canonicalCidr cidr
  let row : IpPrefix :=
    { id, cidr, vrf := Text.trim vrf, role := Text.trim role, status
      description := Text.trim description, siteId := optionalId siteId
      vlanId := optionalId vlanId }
  let prefixes ← require (t.prefixes.insertOrIgnore row)
    ("prefix ".toList ++ row.cidr ++ " already exists in this VRF".toList)
  return ({ t with prefixes }, row)

/-- A host decides about the site of its addresses. -/
def effectiveAddressSite (t : Tables) (siteId hostId : Option (List Char)) : Option (List Char) :=
  ((optionalId hostId).bind (fun id => t.hosts.lookup id)).or (optionalId siteId)

def createAddress (t : Tables) (id address vrf : List Char) (status : AddressStatus)
    (dnsName : List Char) (deviceType : Option IpamDeviceType) (deviceModel description : List Char)
    (siteId hostId connectionId rackItemId : Option (List Char)) :
    Except (List Char) (Tables × IpAddressRecord) := do
  let value ← require (parseAddress address)
    ("'".toList ++ Text.trim address ++ "' is not a valid IPv4 address".toList)
  let record : IpAddressRecord :=
    { id, address := formatAddress value, vrf := Text.trim vrf, status
      dnsName := Text.trim dnsName, deviceType, deviceModel := Text.trim deviceModel
      description := Text.trim description, siteId := effectiveAddressSite t siteId hostId
      siteInherited := false, hostId := optionalId hostId, connectionId := optionalId connectionId
      rackItemId := optionalId rackItemId }
  let addresses ← require (t.addresses.insertOrIgnore record)
    (record.address ++ " is already assigned in this VRF".toList)
  return ({ t with addresses }, record)

structure IpamImportResult where
  vlans : Nat := 0
  prefixes : Nat := 0
  addresses : Nat := 0
  skipped : Nat := 0
  deriving DecidableEq

/-- The transaction with the keys it knows. `calls` counts the ids taken so far. -/
structure Import where
  tables : Tables
  vlansByVid : List (Nat × List Char)
  prefixKeys : List (List Char × List Char)
  addressKeys : List (List Char × List Char)
  result : IpamImportResult
  calls : Nat

/-- The source of ids: the answer to each call, for the kind asked for. -/
abbrev IdSource := Nat → String → List Char

section Loops
variable (newId : IdSource)

def Import.skip (s : Import) : Import :=
  { s with result := { s.result with skipped := s.result.skipped + 1 } }

def importVlan (s : Import) (input : IpamImportVlanInput) : Except (List Char) Import := do
  reject (¬ (vlanIdMin ≤ input.vid ∧ input.vid ≤ vlanIdMax)) vidOutOfRange
  if (s.vlansByVid.lookup input.vid).isSome then return s.skip
  else
    let (tables, vlan) ← createVlan s.tables (newId s.calls "vlan") input.vid input.name
      input.description input.siteId input.accent
    return { s with
      tables
      vlansByVid := (vlan.vid, vlan.id) :: s.vlansByVid
      result := { s.result with vlans := s.result.vlans + 1 }
      calls := s.calls + 1 }

def linkedVlan (vlansByVid : List (Nat × List Char)) : Option Nat →
    Except (List Char) (Option (List Char))
  | none => .ok none
  | some vid =>
    (require (vlansByVid.lookup vid)
      ("VLAN ".toList ++ Nat.toDigits 10 vid ++ " does not exist".toList)).map some

def importPrefix (s : Import) (input : IpamImportPrefixInput) : Except (List Char) Import := do
  let p ← require (Prefix.parse input.cidr)
    ("'".toList ++ Text.trim input.cidr ++ "' is not a valid IPv4 prefix".toList)
  let cidr := p.toCidr
  let vrf := Text.trim input.vrf
  if (vrf, cidr) ∈ s.prefixKeys then return s.skip
  else
    let vlanId ← linkedVlan s.vlansByVid input.vlanVid
    let (tables, _) ← createPrefix s.tables (newId s.calls "prefix") cidr vrf input.role input.status
      input.description input.siteId vlanId
    return { s with
      tables
      prefixKeys := (vrf, cidr) :: s.prefixKeys
      result := { s.result with prefixes := s.result.prefixes + 1 }
      calls := s.calls + 1 }

def importAddress (s : Import) (input : IpamImportAddressInput) : Except (List Char) Import := do
  let value ← require (parseAddress input.address)
    ("'".toList ++ Text.trim input.address ++ "' is not a valid IPv4 address".toList)
  let address := formatAddress value
  let vrf := Text.trim input.vrf
  if (vrf, address) ∈ s.addressKeys then return s.skip
  else
    let (tables, _) ← createAddress s.tables (newId s.calls "ipaddr") address vrf input.status
      input.dnsName input.deviceType input.deviceModel input.description input.siteId none none none
    return { s with
      tables
      addressKeys := (vrf, address) :: s.addressKeys
      result := { s.result with addresses := s.result.addresses + 1 }
      calls := s.calls + 1 }

def Import.start (t : Tables) : Import where
  tables := t
  vlansByVid := (listVlans t).foldl (fun known vlan => (vlan.vid, vlan.id) :: known) []
  prefixKeys := t.prefixes.rows.map (fun row => (row.vrf, row.cidr))
  addressKeys := t.addresses.rows.map (fun row => (row.vrf, row.address))
  result := {}
  calls := 0

def importBatch (t : Tables) (batch : IpamImportBatch) :
    Except (List Char) (IpamImportResult × Tables) := do
  reject (maxImportRecords < batch.vlans.length + batch.prefixes.length + batch.addresses.length)
    ("IPAM imports are limited to ".toList ++ Nat.toDigits 10 maxImportRecords ++ " records".toList)
  let s ← batch.vlans.foldlM (importVlan newId) (.start t)
  let s ← batch.prefixes.foldlM (importPrefix newId) s
  let s ← batch.addresses.foldlM (importAddress newId) s
  return (s.result, s.tables)

end Loops

structure FreshIds (newId : IdSource) (t : Tables) : Prop where
  apart : ∀ kind, Function.Injective (fun n => newId n kind)
  vlans : ∀ n, ∀ v ∈ t.vlans.rows, v.id ≠ newId n "vlan"
  prefixes : ∀ n, ∀ r ∈ t.prefixes.rows, r.id ≠ newId n "prefix"
  addresses : ∀ n, ∀ r ∈ t.addresses.rows, r.id ≠ newId n "ipaddr"

def vids (t : Tables) : List Nat :=
  t.vlans.rows.map Vlan.vid

def prefixKeys (t : Tables) : List (List Char × List Char) :=
  t.prefixes.rows.map (fun row => (row.vrf, row.cidr))

def addressKeys (t : Tables) : List (List Char × List Char) :=
  t.addresses.rows.map (fun row => (row.vrf, row.address))

structure Agrees (newId : IdSource) (s : Import) : Prop where
  vids : ∀ vid, (s.vlansByVid.lookup vid).isSome = true ↔ vid ∈ vids s.tables
  prefixKeys : ∀ key, key ∈ s.prefixKeys ↔ key ∈ prefixKeys s.tables
  addressKeys : ∀ key, key ∈ s.addressKeys ↔ key ∈ addressKeys s.tables
  vlanIds : ∀ n, s.calls ≤ n → ∀ v ∈ s.tables.vlans.rows, v.id ≠ newId n "vlan"
  prefixIds : ∀ n, s.calls ≤ n → ∀ r ∈ s.tables.prefixes.rows, r.id ≠ newId n "prefix"
  addressIds : ∀ n, s.calls ≤ n → ∀ r ∈ s.tables.addresses.rows, r.id ≠ newId n "ipaddr"

section Rounds
variable {newId : IdSource} {t : Tables} {s : Import}

lemma readRow_vid {v : Vlan} (h : VlanOk v) : (readRow v).vid = v.vid := by
  have range := h.1
  simp only [vlanIdMin, vlanIdMax] at range
  simp only [readRow, vlanIdMin, vlanIdMax]
  omega

lemma mem_listVlans_vid {vid : Nat} : (∃ v ∈ listVlans t, v.vid = vid) ↔ vid ∈ vids t := by
  constructor
  · rintro ⟨v, member, rfl⟩
    obtain ⟨row, sorted, rfl⟩ := mem_map.mp member
    have stored := (perm_insertionSort _ _).mem_iff.mp sorted
    rw [readRow_vid (t.vlans.checked row stored)]
    exact mem_map_of_mem stored
  · intro member
    obtain ⟨row, stored, rfl⟩ := mem_map.mp member
    exact ⟨readRow row, mem_map_of_mem ((perm_insertionSort _ _).mem_iff.mpr stored),
      readRow_vid (t.vlans.checked row stored)⟩

lemma isSome_lookup_cons {k vid : Nat} {id : List Char} {known : List (Nat × List Char)} :
    (((k, id) :: known).lookup vid).isSome = true ↔ vid = k ∨ (known.lookup vid).isSome = true := by
  rw [lookup_cons]
  by_cases same : vid = k
  · simp [same]
  · rw [beq_false_of_ne same]
    simp [same]

lemma known_iff (vlans : List Vlan) (known : List (Nat × List Char)) (vid : Nat) :
    ((vlans.foldl (fun known vlan => (vlan.vid, vlan.id) :: known) known).lookup vid).isSome = true ↔
      (known.lookup vid).isSome = true ∨ ∃ v ∈ vlans, v.vid = vid := by
  induction vlans generalizing known with
  | nil => simp
  | cons v vlans ih =>
    rw [foldl_cons, ih, isSome_lookup_cons, exists_mem_cons_iff, eq_comm]
    tauto

lemma agrees_start (fresh : FreshIds newId t) : Agrees newId (.start t) where
  vids vid := by
    rw [Import.start, known_iff, mem_listVlans_vid]
    simp
  prefixKeys _ := Iff.rfl
  addressKeys _ := Iff.rfl
  vlanIds n _ := fresh.vlans n
  prefixIds n _ := fresh.prefixes n
  addressIds n _ := fresh.addresses n

/-- The ids still to come stay apart from the rows when one of them is used. -/
lemma fresh_push {α : Type} {id : α → List Char} {source : Nat → List Char}
    (apart : Injective source) {rows : List α} {row : α} {calls : Nat}
    (before : ∀ n, calls ≤ n → ∀ r ∈ rows, id r ≠ source n) (own : id row = source calls) (n : Nat)
    (later : calls + 1 ≤ n) : ∀ r ∈ rows ++ [row], id r ≠ source n := by
  intro r stored same
  rcases mem_append.mp stored with old | last
  · exact before n (Nat.le_of_succ_le later) r old same
  · rw [mem_singleton.mp last, own] at same
    exact Nat.ne_of_lt later (apart same)

/-- What the creation of a VLAN changes, and what it leaves alone. -/
structure VlanCreated (s : Import) (input : IpamImportVlanInput) (s' : Import) : Prop where
  vids : vids s'.tables = vids s.tables ++ [input.vid]
  prefixes : s'.tables.prefixes = s.tables.prefixes
  addresses : s'.tables.addresses = s.tables.addresses
  result : s'.result = { s.result with vlans := s.result.vlans + 1 }

lemma importVlan_created (agrees : Agrees newId s)
    (apart : ∀ kind, Injective (fun n => newId n kind)) {input : IpamImportVlanInput}
    (range : 1 ≤ input.vid ∧ input.vid ≤ 4094) (accent : input.accent ≤ 255)
    (new : input.vid ∉ vids s.tables) :
    ∃ s', importVlan newId s input = .ok s' ∧ Agrees newId s' ∧ VlanCreated s input s' := by
  have unknown : (s.vlansByVid.lookup input.vid).isSome = false := by
    rw [Bool.eq_false_iff]
    exact fun known => new ((agrees.vids _).mp known)
  set vlan : Vlan :=
    { id := newId s.calls "vlan", vid := input.vid, name := trim input.name
      description := trim input.description, siteId := optionalId input.siteId
      accent := input.accent } with vlan_eq
  have accepts : s.tables.vlans.Accepts vlan := by
    refine ⟨⟨range, accent⟩, fun old stored conflict => ?_⟩
    rcases conflict with id | vid
    · exact agrees.vlanIds s.calls (Nat.le_refl _) old stored id
    · exact new (mem_map.mpr ⟨old, stored, vid⟩)
  let s' : Import :=
    { s with
      tables := { s.tables with vlans := s.tables.vlans.push vlan accepts }
      vlansByVid := (input.vid, newId s.calls "vlan") :: s.vlansByVid
      result := { s.result with vlans := s.result.vlans + 1 }
      calls := s.calls + 1 }
  have keys : Ipam.vids s'.tables = Ipam.vids s.tables ++ [input.vid] := map_append
  have agrees' : Agrees newId s' := by
    constructor
    · intro vid
      rw [isSome_lookup_cons, agrees.vids, keys, mem_append, mem_singleton, or_comm]
    · exact agrees.prefixKeys
    · exact agrees.addressKeys
    · exact fresh_push (apart "vlan") agrees.vlanIds rfl
    · intro n later
      exact agrees.prefixIds n (Nat.le_of_succ_le later)
    · intro n later
      exact agrees.addressIds n (Nat.le_of_succ_le later)
  refine ⟨s', ?_, agrees', ⟨keys, rfl, rfl, rfl⟩⟩
  have valid : reject (¬ (vlanIdMin ≤ input.vid ∧ input.vid ≤ vlanIdMax)) vidOutOfRange = .ok () :=
    reject_eq_ok.mpr (not_not.mpr range)
  simp only [importVlan, createVlan, validateVid, valid, unknown, bind, Except.bind, pure,
    Except.pure, ← vlan_eq, Table.insertOrIgnore_of_accepts accepts, require]
  rfl

/-- What the creation of a prefix changes, and what it leaves alone. -/
structure PrefixCreated (s : Import) (input : IpamImportPrefixInput) (s' : Import) : Prop where
  prefixes : prefixKeys s'.tables = prefixKeys s.tables ++ [(input.vrf, input.cidr)]
  vlans : s'.tables.vlans = s.tables.vlans
  addresses : s'.tables.addresses = s.tables.addresses
  result : s'.result = { s.result with prefixes := s.result.prefixes + 1 }

lemma linkedVlan_of_known (known : List (Nat × List Char)) {vlanVid : Option Nat}
    (h : ∀ vid ∈ vlanVid, (known.lookup vid).isSome = true) :
    ∃ vlanId, linkedVlan known vlanVid = .ok vlanId := by
  cases vlanVid with
  | none => exact ⟨none, rfl⟩
  | some vid =>
    obtain ⟨id, found⟩ := Option.isSome_iff_exists.mp (h vid rfl)
    refine ⟨some id, ?_⟩
    rw [linkedVlan, found]
    rfl

lemma importPrefix_created (agrees : Agrees newId s)
    (apart : ∀ kind, Injective (fun n => newId n kind)) {input : IpamImportPrefixInput}
    {p : Prefix} (cidr : input.cidr = p.toCidr) (vrf : trim input.vrf = input.vrf)
    (linked : ∀ vid ∈ input.vlanVid, vid ∈ vids s.tables)
    (new : (input.vrf, input.cidr) ∉ prefixKeys s.tables) :
    ∃ s', importPrefix newId s input = .ok s' ∧ Agrees newId s' ∧ PrefixCreated s input s' := by
  have unknown : (input.vrf, p.toCidr) ∉ s.prefixKeys := by
    rw [← cidr]
    exact fun known => new ((agrees.prefixKeys _).mp known)
  obtain ⟨vlanId, link⟩ := linkedVlan_of_known s.vlansByVid
    (fun vid member => (agrees.vids vid).mpr (linked vid member))
  set row : IpPrefix :=
    { id := newId s.calls "prefix", cidr := p.toCidr, vrf := input.vrf, role := trim input.role
      status := input.status, description := trim input.description
      siteId := optionalId input.siteId, vlanId := optionalId vlanId } with row_eq
  have accepts : s.tables.prefixes.Accepts row := by
    refine ⟨trivial, fun old stored conflict => ?_⟩
    rcases conflict with id | ⟨sameVrf, sameCidr⟩
    · exact agrees.prefixIds s.calls (Nat.le_refl _) old stored id
    · refine new (mem_map.mpr ⟨old, stored, ?_⟩)
      rw [sameVrf, sameCidr, cidr]
  let s' : Import :=
    { s with
      tables := { s.tables with prefixes := s.tables.prefixes.push row accepts }
      prefixKeys := (input.vrf, p.toCidr) :: s.prefixKeys
      result := { s.result with prefixes := s.result.prefixes + 1 }
      calls := s.calls + 1 }
  have keys : Ipam.prefixKeys s'.tables =
      Ipam.prefixKeys s.tables ++ [(input.vrf, input.cidr)] := by
    rw [cidr]
    exact map_append
  have agrees' : Agrees newId s' := by
    constructor
    · exact agrees.vids
    · intro key
      rw [mem_cons, agrees.prefixKeys, keys, mem_append, mem_singleton, or_comm, cidr]
    · exact agrees.addressKeys
    · intro n later
      exact agrees.vlanIds n (Nat.le_of_succ_le later)
    · exact fresh_push (apart "prefix") agrees.prefixIds rfl
    · intro n later
      exact agrees.addressIds n (Nat.le_of_succ_le later)
  refine ⟨s', ?_, agrees', ⟨keys, rfl, rfl, rfl⟩⟩
  simp only [importPrefix, createPrefix, canonicalCidr, cidr, p.parse_toCidr, vrf, unknown, link,
    bind, Except.bind, pure, Except.pure, Except.map, ← row_eq,
    Table.insertOrIgnore_of_accepts accepts, require, Option.elim, if_false]
  rfl

/-- What the creation of an address changes, and what it leaves alone. -/
structure AddressCreated (s : Import) (input : IpamImportAddressInput) (s' : Import) : Prop where
  addresses : addressKeys s'.tables = addressKeys s.tables ++ [(input.vrf, input.address)]
  vlans : s'.tables.vlans = s.tables.vlans
  prefixes : s'.tables.prefixes = s.tables.prefixes
  result : s'.result = { s.result with addresses := s.result.addresses + 1 }

lemma importAddress_created (agrees : Agrees newId s)
    (apart : ∀ kind, Injective (fun n => newId n kind)) {input : IpamImportAddressInput}
    {value : UInt32} (address : input.address = formatAddress value)
    (vrf : trim input.vrf = input.vrf) (new : (input.vrf, input.address) ∉ addressKeys s.tables) :
    ∃ s', importAddress newId s input = .ok s' ∧ Agrees newId s' ∧ AddressCreated s input s' := by
  have unknown : (input.vrf, formatAddress value) ∉ s.addressKeys := by
    rw [← address]
    exact fun known => new ((agrees.addressKeys _).mp known)
  set record : IpAddressRecord :=
    { id := newId s.calls "ipaddr", address := formatAddress value, vrf := input.vrf
      status := input.status, dnsName := trim input.dnsName, deviceType := input.deviceType
      deviceModel := trim input.deviceModel, description := trim input.description
      siteId := effectiveAddressSite s.tables input.siteId none, siteInherited := false
      hostId := optionalId none, connectionId := optionalId none, rackItemId := optionalId none }
    with record_eq
  have accepts : s.tables.addresses.Accepts record := by
    refine ⟨trivial, fun old stored conflict => ?_⟩
    rcases conflict with id | ⟨sameVrf, sameAddress⟩
    · exact agrees.addressIds s.calls (Nat.le_refl _) old stored id
    · refine new (mem_map.mpr ⟨old, stored, ?_⟩)
      rw [sameVrf, sameAddress, address]
  let s' : Import :=
    { s with
      tables := { s.tables with addresses := s.tables.addresses.push record accepts }
      addressKeys := (input.vrf, formatAddress value) :: s.addressKeys
      result := { s.result with addresses := s.result.addresses + 1 }
      calls := s.calls + 1 }
  have keys : Ipam.addressKeys s'.tables =
      Ipam.addressKeys s.tables ++ [(input.vrf, input.address)] := by
    rw [address]
    exact map_append
  have agrees' : Agrees newId s' := by
    constructor
    · exact agrees.vids
    · exact agrees.prefixKeys
    · intro key
      rw [mem_cons, agrees.addressKeys, keys, mem_append, mem_singleton, or_comm, address]
    · intro n later
      exact agrees.vlanIds n (Nat.le_of_succ_le later)
    · intro n later
      exact agrees.prefixIds n (Nat.le_of_succ_le later)
    · exact fresh_push (apart "ipaddr") agrees.addressIds rfl
  refine ⟨s', ?_, agrees', ⟨keys, rfl, rfl, rfl⟩⟩
  simp only [importAddress, createAddress, address, parseAddress_formatAddress, vrf, unknown,
    bind, Except.bind, pure, Except.pure, ← record_eq, Table.insertOrIgnore_of_accepts accepts,
    require, Option.elim, if_false]
  rfl

end Rounds

/-- The preview was made from what the tables hold. Rows with an unreadable prefix are not shown. -/
structure Reflects (ctx : ParseContext) (t : Tables) : Prop where
  vlans : ∀ vid, (∃ v ∈ ctx.vlans, v.vid = vid) ↔ vid ∈ vids t
  prefixes : ∀ row : IpPrefix, (Prefix.parse row.cidr).isSome →
    ((∃ n ∈ ctx.prefixes, n.row.vrf = row.vrf ∧ n.row.cidr = row.cidr) ↔
      (row.vrf, row.cidr) ∈ prefixKeys t)
  addresses : ∀ key, (∃ r ∈ ctx.addresses, (r.vrf, r.address) = key) ↔ key ∈ addressKeys t

section Batch
variable {newId : IdSource} {t : Tables} {ctx : ParseContext} {batch : IpamImportBatch}

lemma vids_nodup (t : Tables) : (vids t).Nodup :=
  pairwise_map.mpr (t.vlans.apart.imp (fun apart same => apart (.inr same)))

lemma prefixKeys_nodup (t : Tables) : (prefixKeys t).Nodup :=
  pairwise_map.mpr (t.prefixes.apart.imp (fun apart same =>
    apart (.inr (mk.inj same))))

lemma addressKeys_nodup (t : Tables) : (addressKeys t).Nodup :=
  pairwise_map.mpr (t.addresses.apart.imp (fun apart same =>
    apart (.inr (mk.inj same))))

/-- The state of a loop over the records of one kind that started at `s`. -/
structure Loop {κ τ : Type} (newId : IdSource) (keys : Tables → List κ) (others : Tables → τ)
    (add : IpamImportResult → Nat → IpamImportResult) (s b : Import) : Prop where
  agrees : Agrees newId b
  others : others b.tables = others s.tables
  counts : ∃ n, b.result = add s.result n ∧ (keys b.tables).length = (keys s.tables).length + n

/-- Records of one kind are all created, each in a round of its own. -/
lemma importAll_created {ι κ τ : Type} {importOne : Import → ι → Except (List Char) Import}
    {key : ι → κ} {keys : Tables → List κ} {s : Import} {inputs : List ι}
    (others : Tables → τ) (add : IpamImportResult → Nat → IpamImportResult)
    (none_ : ∀ r, add r 0 = r) (more : ∀ r m n, add (add r m) n = add r (m + n))
    (round : ∀ b, ∀ i ∈ inputs, Agrees newId b → others b.tables = others s.tables →
      key i ∉ keys b.tables → ∃ b', importOne b i = .ok b' ∧ Agrees newId b' ∧
        others b'.tables = others b.tables ∧ keys b'.tables = keys b.tables ++ [key i] ∧
        b'.result = add b.result 1)
    (agrees : Agrees newId s) (nodup : (keys s.tables ++ inputs.map key).Nodup) :
    ∃ s', inputs.foldlM importOne s = .ok s' ∧ Agrees newId s' ∧
      keys s'.tables = keys s.tables ++ inputs.map key ∧ others s'.tables = others s.tables ∧
      s'.result = add s.result inputs.length := by
  have creates : ∀ b, ∀ i ∈ inputs, Loop newId keys others add s b → key i ∉ keys b.tables →
      ∃ b', importOne b i = .ok b' ∧ Loop newId keys others add s b' ∧
        keys b'.tables = keys b.tables ++ [key i] := by
    intro b i member h new
    obtain ⟨b', created, agrees', same, grown, result'⟩ := round b i member h.agrees h.others new
    obtain ⟨n, result, count⟩ := h.counts
    refine ⟨b', created, ⟨agrees', same.trans h.others, n + 1, ?_, ?_⟩, grown⟩
    · rw [result', result, more]
    · rw [grown, length_append, count]
      rfl
  obtain ⟨s', done, h, grown⟩ := foldlM_creates (Loop newId keys others add s)
    (fun b => keys b.tables) creates ⟨agrees, rfl, 0, (none_ _).symm, rfl⟩ nodup
  obtain ⟨n, result, count⟩ := h.counts
  have total : n = inputs.length := by
    rw [grown, length_append, length_map] at count
    omega
  exact ⟨s', done, h.agrees, grown, h.others, total ▸ result⟩

lemma importVlans_created {s : Import} (agrees : Agrees newId s)
    (apart : ∀ kind, Injective (fun n => newId n kind)) {inputs : List IpamImportVlanInput}
    (ranges : ∀ i ∈ inputs, 1 ≤ i.vid ∧ i.vid ≤ 4094) (accents : ∀ i ∈ inputs, i.accent ≤ 255)
    (nodup : (vids s.tables ++ inputs.map IpamImportVlanInput.vid).Nodup) :
    ∃ s', inputs.foldlM (importVlan newId) s = .ok s' ∧ Agrees newId s' ∧
      vids s'.tables = vids s.tables ++ inputs.map IpamImportVlanInput.vid ∧
      (s'.tables.prefixes, s'.tables.addresses) = (s.tables.prefixes, s.tables.addresses) ∧
      s'.result = { s.result with vlans := s.result.vlans + inputs.length } := by
  refine importAll_created (fun t => (t.prefixes, t.addresses))
    (fun r n => { r with vlans := r.vlans + n }) (fun _ => rfl)
    (fun r m n => by simp only [Nat.add_assoc]) (fun b i member h _ new => ?_) agrees nodup
  obtain ⟨b', created, agrees', change⟩ :=
    importVlan_created h apart (ranges i member) (accents i member) new
  exact ⟨b', created, agrees', Prod.ext change.prefixes change.addresses, change.vids, change.result⟩

lemma importPrefixes_created {s : Import} (agrees : Agrees newId s)
    (apart : ∀ kind, Injective (fun n => newId n kind)) {inputs : List IpamImportPrefixInput}
    (cidrs : ∀ i ∈ inputs, ∃ p : Prefix, i.cidr = p.toCidr)
    (vrfs : ∀ i ∈ inputs, trim i.vrf = i.vrf)
    (linked : ∀ i ∈ inputs, ∀ vid ∈ i.vlanVid, vid ∈ vids s.tables)
    (nodup : (prefixKeys s.tables ++ inputs.map (fun i => (i.vrf, i.cidr))).Nodup) :
    ∃ s', inputs.foldlM (importPrefix newId) s = .ok s' ∧ Agrees newId s' ∧
      prefixKeys s'.tables = prefixKeys s.tables ++ inputs.map (fun i => (i.vrf, i.cidr)) ∧
      (s'.tables.vlans, s'.tables.addresses) = (s.tables.vlans, s.tables.addresses) ∧
      s'.result = { s.result with prefixes := s.result.prefixes + inputs.length } := by
  refine importAll_created (fun t => (t.vlans, t.addresses))
    (fun r n => { r with prefixes := r.prefixes + n }) (fun _ => rfl)
    (fun r m n => by simp only [Nat.add_assoc]) (fun b i member h same new => ?_) agrees nodup
  obtain ⟨p, cidr⟩ := cidrs i member
  have known : ∀ vid ∈ i.vlanVid, vid ∈ vids b.tables := by
    intro vid named
    rw [vids, (mk.inj same).1]
    exact linked i member vid named
  obtain ⟨b', created, agrees', change⟩ :=
    importPrefix_created h apart cidr (vrfs i member) known new
  exact ⟨b', created, agrees', Prod.ext change.vlans change.addresses, change.prefixes,
    change.result⟩

lemma importAddresses_created {s : Import} (agrees : Agrees newId s)
    (apart : ∀ kind, Injective (fun n => newId n kind))
    {inputs : List IpamImportAddressInput}
    (texts : ∀ i ∈ inputs, ∃ value, i.address = formatAddress value)
    (vrfs : ∀ i ∈ inputs, trim i.vrf = i.vrf)
    (nodup : (addressKeys s.tables ++ inputs.map (fun i => (i.vrf, i.address))).Nodup) :
    ∃ s', inputs.foldlM (importAddress newId) s = .ok s' ∧ Agrees newId s' ∧
      addressKeys s'.tables = addressKeys s.tables ++ inputs.map (fun i => (i.vrf, i.address)) ∧
      (s'.tables.vlans, s'.tables.prefixes) = (s.tables.vlans, s.tables.prefixes) ∧
      s'.result = { s.result with addresses := s.result.addresses + inputs.length } := by
  refine importAll_created (fun t => (t.vlans, t.prefixes))
    (fun r n => { r with addresses := r.addresses + n }) (fun _ => rfl)
    (fun r m n => by simp only [Nat.add_assoc]) (fun b i member h _ new => ?_) agrees nodup
  obtain ⟨value, address⟩ := texts i member
  obtain ⟨b', created, agrees', change⟩ :=
    importAddress_created h apart address (vrfs i member) new
  exact ⟨b', created, agrees', Prod.ext change.vlans change.prefixes, change.addresses,
    change.result⟩

section
variable (importable : Importable ctx batch)
include importable

section
variable (reflects : Reflects ctx t)
include reflects

lemma newVids_nodup : (vids t ++ batch.vlans.map IpamImportVlanInput.vid).Nodup := by
  refine nodup_append.mpr ⟨vids_nodup t, importable.vidsNodup, ?_⟩
  rintro vid stored _ new rfl
  obtain ⟨i, member, rfl⟩ := mem_map.mp new
  obtain ⟨v, shown, same⟩ := (reflects.vlans _).mpr stored
  exact importable.newVids i member v shown same

lemma newPrefixKeys_nodup :
    (prefixKeys t ++ batch.prefixes.map (fun i => (i.vrf, i.cidr))).Nodup := by
  refine nodup_append.mpr ⟨prefixKeys_nodup t, importable.prefixesNodup, ?_⟩
  rintro key stored _ new rfl
  obtain ⟨i, member, rfl⟩ := mem_map.mp new
  obtain ⟨p, canonical⟩ := importable.cidrs i member
  have readable : (Prefix.parse i.cidr).isSome := by
    rw [canonical, p.parse_toCidr]
    rfl
  obtain ⟨n, shown, same⟩ :=
    (reflects.prefixes { id := [], cidr := i.cidr, vrf := i.vrf } readable).mpr stored
  exact importable.newPrefixes i member n shown same

lemma newAddressKeys_nodup :
    (addressKeys t ++ batch.addresses.map (fun i => (i.vrf, i.address))).Nodup := by
  refine nodup_append.mpr ⟨addressKeys_nodup t, importable.addressesNodup, ?_⟩
  rintro key stored _ new rfl
  obtain ⟨i, member, rfl⟩ := mem_map.mp new
  obtain ⟨r, shown, same⟩ := (reflects.addresses _).mpr stored
  exact importable.newAddresses i member r shown (mk.inj same)

/-- The records of a batch that was checked against the tables are all created. -/
lemma importBatch_creates (fresh : FreshIds newId t)
    (size : batch.vlans.length + batch.prefixes.length + batch.addresses.length ≤ maxImportRecords) :
    ∃ result t', importBatch newId t batch = .ok (result, t') ∧
      result = { vlans := batch.vlans.length, prefixes := batch.prefixes.length
                 addresses := batch.addresses.length, skipped := 0 } ∧
      vids t' = vids t ++ batch.vlans.map (·.vid) ∧
      prefixKeys t' = prefixKeys t ++ batch.prefixes.map (fun i => (i.vrf, i.cidr)) ∧
      addressKeys t' = addressKeys t ++ batch.addresses.map (fun i => (i.vrf, i.address)) := by
  obtain ⟨s₁, first, agrees₁, vids₁, others₁, result₁⟩ :=
    importVlans_created (agrees_start fresh) fresh.apart importable.vids importable.accents
      (newVids_nodup importable reflects)
  have linked : ∀ i ∈ batch.prefixes, ∀ vid ∈ i.vlanVid, vid ∈ vids s₁.tables := by
    intro i member vid named
    rw [vids₁]
    rcases importable.linked i member vid named with stored | created
    · exact mem_append_left _ ((reflects.vlans vid).mp stored)
    · exact mem_append_right _ (mem_map.mpr created)
  have keys₁ : prefixKeys s₁.tables = prefixKeys t := by
    rw [prefixKeys, (mk.inj others₁).1]
    rfl
  obtain ⟨s₂, second, agrees₂, keys₂, others₂, result₂⟩ :=
    importPrefixes_created agrees₁ fresh.apart importable.cidrs importable.prefixVrfs linked
      (keys₁ ▸ newPrefixKeys_nodup importable reflects)
  have ips₂ : addressKeys s₂.tables = addressKeys t := by
    rw [addressKeys, (mk.inj others₂).2, (mk.inj others₁).2]
    rfl
  obtain ⟨s₃, third, _, keys₃, others₃, result₃⟩ :=
    importAddresses_created agrees₂ fresh.apart importable.addresses importable.addressVrfs
      (ips₂ ▸ newAddressKeys_nodup importable reflects)
  have small : reject (maxImportRecords <
      batch.vlans.length + batch.prefixes.length + batch.addresses.length)
      ("IPAM imports are limited to ".toList ++ Nat.toDigits 10 maxImportRecords ++
        " records".toList) = .ok () := reject_eq_ok.mpr (Nat.not_lt.mpr size)
  refine ⟨s₃.result, s₃.tables, ?_, ?_, ?_, ?_, ?_⟩
  · rw [importBatch, small]
    simp only [bind, Except.bind, first, second, third]
    rfl
  · rw [result₃, result₂, result₁]
    simp [Import.start]
  · rw [vids, (mk.inj others₃).1, (mk.inj others₂).1]
    exact vids₁
  · rw [prefixKeys, (mk.inj others₃).2]
    exact keys₂.trans (congrArg (· ++ _) keys₁)
  · rw [keys₃, ips₂]

end

end

end Batch

end Ipam
