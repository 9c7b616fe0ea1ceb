import KKTerm.Ipam.Export

/-!
# Export and import

What was exported is previewed without errors and skips, and the batch lists the
same records in the same order. The cells are read back one kind at a time; the
file around them adds a byte order mark, quotes and line breaks.
-/

namespace Ipam

open Delimited
open JsText hiding trim
open Text
open Option hiding all_eq_true any_eq_false any_eq_true map_id map_map mem_map mem_map_of_mem
open Fallible Admission List

lemma isSpace_of_mem_formatAddress {value : UInt32} {c : Char} (h : c ∈ formatAddress value) :
    isSpace c = false := by
  rcases mem_formatAddress h with rfl | digit
  · rfl
  · exact isSpace_of_isDigit digit

lemma trim_formatAddress (value : UInt32) :
    JsText.trim (formatAddress value) = formatAddress value :=
  JsText.trim_of_dark (fun _ hc => isSpace_of_mem_formatAddress hc)

/-- The four octets as digits to the base 256. -/
lemma octets_summed {value a b c d : UInt32} (ha : a = value >>> 24 &&& 0xff)
    (hb : b = value >>> 16 &&& 0xff) (hc : c = value >>> 8 &&& 0xff) (hd : d = value &&& 0xff) :
    (((0 * 256 + a) * 256 + b) * 256 + c) * 256 + d = value := by
  have bound := value.toNat_lt
  have first : a.toNat = value.toNat / 2 ^ 24 % 2 ^ 8 := by
    rw [ha, toNat_octet, UInt32.toNat_shiftRight, Nat.shiftRight_eq_div_pow]
    rfl
  have second : b.toNat = value.toNat / 2 ^ 16 % 2 ^ 8 := by
    rw [hb, toNat_octet, UInt32.toNat_shiftRight, Nat.shiftRight_eq_div_pow]
    rfl
  have third : c.toNat = value.toNat / 2 ^ 8 % 2 ^ 8 := by
    rw [hc, toNat_octet, UInt32.toNat_shiftRight, Nat.shiftRight_eq_div_pow]
    rfl
  have fourth : d.toNat = value.toNat % 2 ^ 8 := by rw [hd, toNat_octet]
  have base : (256 : UInt32).toNat = 256 := rfl
  have zero : (0 : UInt32).toNat = 0 := rfl
  apply UInt32.toNat.inj
  simp only [UInt32.toNat_add, UInt32.toNat_mul, first, second, third, fourth, base, zero]
  omega

lemma parseIpv4_formatAddress (value : UInt32) : parseIpv4 (formatAddress value) = some value := by
  have octet : ∀ sofar word : UInt32, (if (formatOctet word).length ≤ 3 then
      ((digits (formatOctet word)).filter (fun octet => octet ≤ 255)).map
        (fun octet => sofar * 256 + UInt32.ofNat octet) else none) =
      some (sofar * 256 + (word &&& 0xff)) := by
    intro sofar word
    have small : (word &&& 0xff).toNat ≤ 255 := Nat.le_of_lt_succ (toNat_octet_lt word)
    rw [if_pos (length_formatOctet word), formatOctet, digits_toDigits, filter_some,
      if_pos (decide_eq_true small), map_some, UInt32.ofNat_toNat]
  rw [parseIpv4, trim_formatAddress, split_formatAddress]
  simp only [foldlM_cons, foldlM_nil, octet, bind_eq_bind, bind_some, length_cons, length_nil]
  exact congrArg some (octets_summed rfl rfl rfl rfl)

lemma previewLength_toDigits {length : Nat} (h : length ≤ 32) :
    previewLength (Nat.toDigits 10 length) = some length := by
  have short : (Nat.toDigits 10 length).length ≤ 2 := by
    rw [Nat.length_toDigits_le_iff (by decide) (by decide)]
    omega
  rw [previewLength, if_pos short, digits_toDigits, filter_some, if_pos (decide_eq_true h)]

lemma trim_toCidr (p : Prefix) : JsText.trim p.toCidr = p.toCidr := by
  apply JsText.trim_of_dark
  intro c hc
  rw [Prefix.toCidr, mem_append, mem_cons] at hc
  rcases hc with h | rfl | h
  · exact isSpace_of_mem_formatAddress h
  · rfl
  · exact isSpace_of_isDigit (isDigit_of_mem_toDigits h)

lemma previewCidr_toCidr (p : Prefix) :
    ∃ preview, previewCidr p.toCidr = some preview ∧ preview.cidr = p.toCidr := by
  have slash : '/' ∉ formatAddress p.network := by
    intro member
    rcases mem_formatAddress member with h | h <;> cases h
  have parts : Text.split '/' (JsText.trim p.toCidr) =
      [formatAddress p.network, Nat.toDigits 10 p.length] := by
    rw [trim_toCidr, Prefix.toCidr, split_append slash, split_of_not_mem (not_mem_toDigits rfl)]
  rw [previewCidr, parts]
  simp only [previewLength_toDigits p.length_le, parseIpv4_formatAddress, bind_eq_bind, bind_some]
  refine ⟨_, rfl, ?_⟩
  simp only [formatIpv4_eq, mask_eq p.length_le, p.aligned, Prefix.toCidr]

section Keys
variable {α κ : Type} [DecidableEq κ] {f : α → κ} {l : List α} {x : α}

/-- Of the elements of a key there is one when the keys are different. -/
lemma filter_key (nodup : (l.map f).Nodup) (h : x ∈ l) : l.filter (fun y => f y = f x) = [x] := by
  induction l with
  | nil => cases h
  | cons y l ih =>
    rw [map_cons, nodup_cons] at nodup
    rcases mem_cons.mp h with rfl | later
    · have others : l.filter (fun y => f y = f x) = [] := by
        refine filter_eq_nil_iff.mpr fun z hz same => ?_
        exact nodup.1 (of_decide_eq_true same ▸ mem_map_of_mem hz)
      rw [filter_cons, if_pos (decide_eq_true rfl), others]
    · have different : f y ≠ f x := fun same => nodup.1 (same ▸ mem_map_of_mem later)
      rw [filter_cons, if_neg (by simpa using different), ih nodup.2 later]

lemma find?_key (nodup : (l.map f).Nodup) (h : x ∈ l) : l.find? (fun y => f y = f x) = some x := by
  rw [← head?_filter, filter_key nodup h]
  rfl

lemma find?_reverse_key (nodup : (l.map f).Nodup) (k : κ) :
    l.reverse.find? (fun y => f y = k) = l.find? (fun y => f y = k) := by
  cases found : l.find? (fun y => f y = k) with
  | none =>
    rw [find?_eq_none] at found ⊢
    exact fun y hy => found y (mem_reverse.mp hy)
  | some x =>
    have key : f x = k := by simpa using find?_some found
    have member := mem_of_find?_eq_some found
    rw [← key]
    refine find?_key ?_ (mem_reverse.mpr member)
    rw [map_reverse]
    exact nodup_reverse.mpr nodup

end Keys

section References
variable {trim : List Char → List Char} {m : JsText.CaseMap} {src : IpamExportSource}

lemma resolveSite_siteName (stored : Storable trim m src) (rowNumber : Nat)
    (kind : IpamImportRowKind) (label : List Char) (siteId : Option (List Char)) :
    resolveSite m src.sites rowNumber kind label (JsText.trim (siteName src.sites siteId)) =
      .ok (keptSite src.sites siteId) := by
  rw [siteName, find?_reverse_key stored.siteIdsNodup]
  cases found : src.sites.find? (fun site => site.id = siteId.getD []) with
  | none =>
    have gone : keptSite src.sites siteId = none := by
      cases siteId with
      | none => rfl
      | some id =>
        rw [find?_eq_none] at found
        have absent : src.sites.any (fun site => site.id = id) = false := any_eq_false.mpr found
        rw [keptSite, filter_some, absent]
        rfl
    rw [gone]
    rfl
  | some site =>
    have member := mem_of_find?_eq_some found
    have key : site.id = siteId.getD [] := by simpa using find?_some found
    have named := stored.siteNames site member
    have kept : keptSite src.sites siteId = some site.id := by
      cases siteId with
      | none => exact absurd key (stored.siteIds site member)
      | some id =>
        have present : src.sites.any (fun site => site.id = id) = true :=
          any_eq_true.mpr ⟨site, member, decide_eq_true key⟩
        rw [keptSite, filter_some, present, key]
        rfl
    have only := filter_key stored.siteNamesNodup member
    rw [map_some, getD_some, resolveSite, if_neg named, kept]
    simp only [only]

lemma vlanCell_eq (stored : Storable trim m src) (vlanId : Option (List Char)) :
    vlanCell src.vlans vlanId =
      ((vlanId.bind (fun id => src.vlans.find? (fun v => v.id = id))).map
        (fun v => Nat.toDigits 10 v.vid)).getD [] := by
  cases vlanId with
  | none => rfl
  | some id =>
    by_cases empty : id = []
    · have absent : src.vlans.find? (fun v => v.id = id) = none := by
        refine find?_eq_none.mpr fun v hv same => ?_
        exact stored.vlanIds v hv ((of_decide_eq_true same).trans empty)
      rw [vlanCell, filter_some, if_neg (by simpa using empty), bind_some, absent]
      rfl
    · rw [vlanCell, filter_some, if_pos (by simpa using empty), bind_some]
      simp only [find?_reverse_key stored.vlanIdsNodup]

end References

lemma PrefixStatus.trim_text (status : PrefixStatus) :
    JsText.trim status.text = status.text ∧ status.text ≠ [] := by
  cases status <;> decide

lemma AddressStatus.trim_text (status : AddressStatus) :
    JsText.trim status.text = status.text ∧ status.text ≠ [] := by
  cases status <;> decide

lemma valueAt_of_place {row : List (List Char)} {name : String} {place : Nat} {cell : List Char}
    (named : column ipamImportHeaders name.toList = some place) (at_place : row[place]? = some cell) :
    valueAt ipamImportHeaders row name = JsText.trim cell := by
  rw [valueAt, named, bind_some, at_place, getD_some]

lemma column_vlanId : column ipamImportHeaders "vlan_id".toList = some 9 := by decide
lemma column_vrf : column ipamImportHeaders "vrf".toList = some 3 := by decide
lemma column_status : column ipamImportHeaders "status".toList = some 5 := by decide
lemma column_name : column ipamImportHeaders "name".toList = some 10 := by decide
lemma column_site : column ipamImportHeaders "site".toList = some 11 := by decide
lemma column_description : column ipamImportHeaders "description".toList = some 12 := by decide

section Cells
variable {sites : List Site} {vlans : List Vlan} {v : Vlan} {p : IpPrefix} {r : IpAddressRecord}

lemma vlanRow_cells (sites : List Site) (v : Vlan) :
    valueAt ipamImportHeaders (vlanRow sites v) "vlan_id" = Nat.toDigits 10 v.vid ∧
      valueAt ipamImportHeaders (vlanRow sites v) "name" = JsText.trim v.name ∧
      valueAt ipamImportHeaders (vlanRow sites v) "site" = JsText.trim (siteName sites v.siteId) ∧
      valueAt ipamImportHeaders (vlanRow sites v) "description" = JsText.trim v.description ∧
      valueAt ipamImportHeaders (vlanRow sites v) "accent" = Nat.toDigits 10 v.accent := by
  have accent : column ipamImportHeaders "accent".toList = some 13 := by decide
  refine ⟨?_, ?_, ?_, ?_, ?_⟩
  · rw [valueAt_of_place column_vlanId rfl, trim_toDigits]
  · exact valueAt_of_place column_name rfl
  · exact valueAt_of_place column_site rfl
  · exact valueAt_of_place column_description rfl
  · rw [valueAt_of_place accent rfl, trim_toDigits]

lemma prefixRow_cells (sites : List Site) (vlans : List Vlan) (p : IpPrefix) :
    valueAt ipamImportHeaders (prefixRow sites vlans p) "cidr" = JsText.trim p.cidr ∧
      valueAt ipamImportHeaders (prefixRow sites vlans p) "vrf" = JsText.trim p.vrf ∧
      valueAt ipamImportHeaders (prefixRow sites vlans p) "role" = JsText.trim p.role ∧
      valueAt ipamImportHeaders (prefixRow sites vlans p) "status" = p.status.text ∧
      valueAt ipamImportHeaders (prefixRow sites vlans p) "vlan_id" =
        JsText.trim (vlanCell vlans p.vlanId) ∧
      valueAt ipamImportHeaders (prefixRow sites vlans p) "site" =
        JsText.trim (siteName sites p.siteId) ∧
      valueAt ipamImportHeaders (prefixRow sites vlans p) "description" =
        JsText.trim p.description := by
  have cidr : column ipamImportHeaders "cidr".toList = some 1 := by decide
  have role : column ipamImportHeaders "role".toList = some 4 := by decide
  refine ⟨?_, ?_, ?_, ?_, ?_, ?_, ?_⟩
  · exact valueAt_of_place cidr rfl
  · exact valueAt_of_place column_vrf rfl
  · exact valueAt_of_place role rfl
  · rw [valueAt_of_place column_status rfl, p.status.trim_text.1]
  · exact valueAt_of_place column_vlanId rfl
  · exact valueAt_of_place column_site rfl
  · exact valueAt_of_place column_description rfl

lemma IpamDeviceType.trim_text (type : IpamDeviceType) :
    JsText.trim type.text = type.text ∧ type.text ≠ [] := by
  cases type <;> decide

lemma addressRow_cells (sites : List Site) (r : IpAddressRecord) :
    valueAt ipamImportHeaders (addressRow sites r) "address" = JsText.trim r.address ∧
      valueAt ipamImportHeaders (addressRow sites r) "vrf" = JsText.trim r.vrf ∧
      valueAt ipamImportHeaders (addressRow sites r) "status" = r.status.text ∧
      valueAt ipamImportHeaders (addressRow sites r) "hostname" = JsText.trim r.dnsName ∧
      valueAt ipamImportHeaders (addressRow sites r) "device_type" =
        (r.deviceType.map IpamDeviceType.text).getD [] ∧
      valueAt ipamImportHeaders (addressRow sites r) "device_model" = JsText.trim r.deviceModel ∧
      valueAt ipamImportHeaders (addressRow sites r) "site" =
        JsText.trim (if r.siteInherited then [] else siteName sites r.siteId) ∧
      valueAt ipamImportHeaders (addressRow sites r) "description" =
        JsText.trim r.description := by
  have address : column ipamImportHeaders "address".toList = some 2 := by decide
  have hostname : column ipamImportHeaders "hostname".toList = some 6 := by decide
  have deviceType : column ipamImportHeaders "device_type".toList = some 7 := by decide
  have deviceModel : column ipamImportHeaders "device_model".toList = some 8 := by decide
  refine ⟨?_, ?_, ?_, ?_, ?_, ?_, ?_, ?_⟩
  · exact valueAt_of_place address rfl
  · exact valueAt_of_place column_vrf rfl
  · rw [valueAt_of_place column_status rfl, r.status.trim_text.1]
  · exact valueAt_of_place hostname rfl
  · rw [valueAt_of_place deviceType rfl]
    cases r.deviceType with
    | none => rfl
    | some type => exact type.trim_text.1
  · exact valueAt_of_place deviceModel rfl
  · exact valueAt_of_place column_site rfl
  · exact valueAt_of_place column_description rfl

end Cells

lemma vlanId_toDigits {vid : Nat} (h : 1 ≤ vid ∧ vid ≤ 4094) :
    vlanId (Nat.toDigits 10 vid) = some vid := by
  rw [vlanId, strictInteger, digits_toDigits, filter_some, if_pos (by simpa using h)]

lemma find?_prefixStatus (status : PrefixStatus) :
    prefixStatuses.find? (fun s => s.text = status.text) = some status := by
  cases status <;> decide

lemma find?_addressStatus (status : AddressStatus) :
    addressStatuses.find? (fun s => s.text = status.text) = some status := by
  cases status <;> decide

lemma ascii_of_all {text : List Char} (h : text.all (fun c => c.toNat < 0x80)) :
    ∀ c ∈ text, c.toNat < 0x80 :=
  fun c member => of_decide_eq_true (all_eq_true.mp h c member)

lemma IpamDeviceType.ascii_text (type : IpamDeviceType) : ∀ c ∈ type.text, c.toNat < 0x80 :=
  ascii_of_all (by cases type <;> decide)

lemma find?_deviceType (m : CaseMap) (type : IpamDeviceType) :
    deviceTypes.find? (fun t => m.toLowerCase t.text = m.toLowerCase type.text) = some type := by
  have lowered : ∀ t : IpamDeviceType, m.toLowerCase t.text = asciiLower t.text :=
    fun t => m.ascii t.text t.ascii_text
  simp only [lowered]
  cases type <;> decide

section Rows
variable {m : JsText.CaseMap} {src : IpamExportSource} {e : ImportEntry}

lemma readVlan_vlanRow (stored : Storable JsText.trim m src) {v : Vlan} (h : v ∈ src.vlans)
    (row : e.row = vlanRow src.sites v) :
    readVlan m ipamImportHeaders (importContext src) e = .ok (exportedVlan src.sites v) := by
  obtain ⟨vid, name, site, description, accent⟩ := vlanRow_cells src.sites v
  have small : decide (v.accent ≤ 255) = true := decide_eq_true (stored.accents v h)
  simp only [readVlan, row, vid, name, site, description, accent, reject, Nat.toDigits_ne_nil,
    if_false, vlanId_toDigits (stored.vids v h), require, Option.elim, strictInteger,
    digits_toDigits, filter_some, small, if_true, (stored.vlanTexts v h).1,
    (stored.vlanTexts v h).2]
  have found := resolveSite_siteName stored e.rowNumber .vlan (vlanLabel v.vid) v.siteId
  simp only [bind, Except.bind, importContext, found]
  rfl

lemma readVlanVid_vlanCell (stored : Storable JsText.trim m src) {vids : List Nat}
    (known : ∀ v ∈ src.vlans, v.vid ∈ vids) (cidr : List Char) (vlanId : Option (List Char)) :
    readVlanVid vids e cidr (JsText.trim (vlanCell src.vlans vlanId)) =
      .ok (vlanId.bind (fun id => (src.vlans.find? (fun v => v.id = id)).map Vlan.vid)) := by
  rw [vlanCell_eq stored]
  have named : vlanId.bind (fun id => (src.vlans.find? (fun v => v.id = id)).map Vlan.vid) =
      (vlanId.bind (fun id => src.vlans.find? (fun v => v.id = id))).map Vlan.vid := by
    rw [Option.map_bind]
    rfl
  rw [named]
  cases found : vlanId.bind (fun id => src.vlans.find? (fun v => v.id = id)) with
  | none => rfl
  | some v =>
    obtain ⟨id, _, first⟩ := bind_eq_some_iff.mp found
    have member := mem_of_find?_eq_some first
    rw [map_some, getD_some, trim_toDigits, readVlanVid,
      if_neg Nat.toDigits_ne_nil, vlanId_toDigits (stored.vids v member)]
    have available : reject (v.vid ∉ vids)
        (issue e.rowNumber (some .ipPrefix) cidr (.unknownVlan v.vid)) = .ok () :=
      reject_eq_ok.mpr (not_not.mpr (known v member))
    simp only [require, Option.elim, bind, Except.bind, available]
    rfl

lemma toCidr_ne_nil (p : Prefix) : p.toCidr ≠ [] := by
  simp [Prefix.toCidr]

lemma formatAddress_ne_nil (value : UInt32) : formatAddress value ≠ [] := by
  simp [formatAddress]

lemma readPrefix_prefixRow (stored : Storable JsText.trim m src) {n : IpamPrefixNode}
    (h : n ∈ src.prefixes) {vids : List Nat} (known : ∀ v ∈ src.vlans, v.vid ∈ vids)
    (row : e.row = prefixRow src.sites src.vlans n.row) :
    readPrefix m ipamImportHeaders (importContext src) vids e =
      .ok (exportedPrefix src.sites src.vlans n.row) := by
  obtain ⟨cidr, vrf, role, status, vlan, site, description⟩ :=
    prefixRow_cells src.sites src.vlans n.row
  obtain ⟨p, canonical⟩ := stored.cidrs n h
  obtain ⟨preview, read, shown⟩ := previewCidr_toCidr p
  obtain ⟨vrfText, roleText, descriptionText⟩ := stored.prefixTexts n h
  have text : statusText ipamImportHeaders e = n.row.status.text := by
    rw [statusText, row, status]
    exact if_neg n.row.status.trim_text.2
  simp only [readPrefix, row, cidr, vrf, role, vlan, site, description, canonical, trim_toCidr, text,
    reject, toCidr_ne_nil, if_false, read, require, Option.elim, find?_prefixStatus, vrfText,
    roleText, descriptionText]
  have linked := readVlanVid_vlanCell (e := e) stored known p.toCidr n.row.vlanId
  have found := resolveSite_siteName stored e.rowNumber .ipPrefix p.toCidr n.row.siteId
  simp only [bind, Except.bind, importContext, shown, linked, found]
  rw [exportedPrefix, canonical]
  rfl

lemma readDeviceType_text (address : List Char) (deviceType : Option IpamDeviceType) :
    readDeviceType m e address ((deviceType.map IpamDeviceType.text).getD []) = .ok deviceType := by
  cases deviceType with
  | none => rfl
  | some type =>
    rw [map_some, getD_some, readDeviceType, if_neg type.trim_text.2, find?_deviceType]
    rfl

lemma readAddress_addressRow (stored : Storable JsText.trim m src) {r : IpAddressRecord}
    (h : r ∈ src.addresses) (row : e.row = addressRow src.sites r) :
    readAddress m ipamImportHeaders (importContext src) e = .ok (exportedAddress src.sites r) := by
  obtain ⟨address, vrf, status, dnsName, deviceType, deviceModel, site, description⟩ :=
    addressRow_cells src.sites r
  obtain ⟨value, canonical⟩ := stored.addresses r h
  obtain ⟨vrfText, dnsText, modelText, descriptionText⟩ := stored.addressTexts r h
  have text : statusText ipamImportHeaders e = r.status.text := by
    rw [statusText, row, status]
    exact if_neg r.status.trim_text.2
  simp only [readAddress, row, address, vrf, dnsName, deviceType, deviceModel, site, description,
    canonical, trim_formatAddress, text, reject, formatAddress_ne_nil, if_false,
    parseIpv4_formatAddress, formatIpv4_eq, require, Option.elim, find?_addressStatus, vrfText,
    dnsText, modelText, descriptionText, readDeviceType_text]
  have found : resolveSite m src.sites e.rowNumber .address (formatAddress value)
      (JsText.trim (if r.siteInherited then [] else siteName src.sites r.siteId)) =
      .ok (if r.siteInherited then none else keptSite src.sites r.siteId) := by
    cases r.siteInherited with
    | true => rfl
    | false => exact resolveSite_siteName stored _ _ _ _
  simp only [bind, Except.bind, importContext, found]
  rw [exportedAddress, canonical]
  rfl

end Rows

lemma ofType_append (type : String) (l l' : List ImportEntry) :
    ofType type (l ++ l') = ofType type l ++ ofType type l' :=
  filter_append l l'

variable {type : String} {l : List ImportEntry} {α : Type}

lemma ofType_same (h : ∀ e ∈ l, e.type = type.toList) : ofType type l = l :=
  filter_eq_self.mpr (fun e he => decide_eq_true (h e he))

lemma ofType_other {other : String} (h : ∀ e ∈ l, e.type = other.toList)
    (different : other.toList ≠ type.toList) : ofType type l = [] :=
  filter_eq_nil_iff.mpr (fun e he same => different ((h e he).symm.trans (of_decide_eq_true same)))

lemma forall₂_read {ι ρ : Type} {read : ImportEntry → Except ρ ι} {made : α → ι}
    {row : α → List (List Char)} {records : List α} {entries : List ImportEntry}
    (rows : entries.map (·.row) = records.map row)
    (reads : ∀ a ∈ records, ∀ e : ImportEntry, e.row = row a → read e = .ok (made a)) :
    Forall₂ (fun e i => read e = .ok i) entries (records.map made) := by
  induction records generalizing entries with
  | nil =>
    rw [map_nil, map_eq_nil_iff] at rows
    rw [rows]
    exact .nil
  | cons a records ih =>
    obtain ⟨e, rest, rfl, first, later⟩ := map_eq_cons_iff.mp rows
    exact .cons (reads a mem_cons_self e first)
      (ih later (fun b hb => reads b (mem_cons_of_mem a hb)))

lemma vrfKey_inj {vrf vrf' address address' : List Char} (h : '\x00' ∉ address)
    (h' : '\x00' ∉ address') (same : vrfKey vrf address = vrfKey vrf' address') :
    vrf = vrf' ∧ address = address' := by
  have turned := congrArg reverse same
  simp only [vrfKey, reverse_append, reverse_cons, append_assoc, singleton_append] at turned
  have cut := congrArg (splitOnce '\x00') turned
  rw [splitOnce_append (fun member => h (mem_reverse.mp member)),
    splitOnce_append (fun member => h' (mem_reverse.mp member))] at cut
  obtain ⟨addresses, vrfs⟩ := Prod.mk.inj (Option.some.inj cut)
  exact ⟨reverse_injective vrfs, reverse_injective addresses⟩

lemma not_mem_formatAddress {value : UInt32} : '\x00' ∉ formatAddress value := by
  intro member
  rcases mem_formatAddress member with h | h <;> cases h

lemma not_mem_toCidr {p : Prefix} : '\x00' ∉ p.toCidr := by
  intro member
  rw [Prefix.toCidr, mem_append, mem_cons] at member
  rcases member with h | h | h
  · exact not_mem_formatAddress h
  · cases h
  · exact not_mem_toDigits rfl h

lemma vrfKeys_nodup {l : List α} {vrf address : α → List Char}
    (clean : ∀ a ∈ l, '\x00' ∉ address a) (nodup : (l.map (fun a => (vrf a, address a))).Nodup) :
    (l.map (fun a => vrfKey (vrf a) (address a))).Nodup := by
  refine Nodup.map_on (fun a ha b hb same => ?_) (Nodup.of_map _ nodup)
  exact inj_on_of_nodup_map nodup ha hb
    (Prod.mk.injEq _ _ _ _ ▸ vrfKey_inj (clean a ha) (clean b hb) same)

section File
variable {m : JsText.CaseMap} {src : IpamExportSource}

lemma type_of_row {e : ImportEntry} {type : String} {cells : List (List Char)}
    (ascii : ∀ c ∈ type.toList, c.toNat < 0x80)
    (plain : asciiLower (JsText.trim type.toList) = type.toList ∧
      JsText.trim type.toList = type.toList)
    (row : e.row = type.toList :: cells)
    (typed : e.type = m.toLowerCase (valueAt ipamImportHeaders e.row "record_type")) :
    e.type = type.toList := by
  have first : column ipamImportHeaders "record_type".toList = some 0 := by decide
  rw [typed, row, valueAt_of_place first rfl, plain.2, m.ascii _ ascii]
  rw [plain.2] at plain
  exact plain.1

variable {entries : List ImportEntry}

lemma types_of_rows {α : Type} {items : List α} {made : α → List (List Char)} {type : String}
    (ascii : ∀ c ∈ type.toList, c.toNat < 0x80)
    (plain : asciiLower (JsText.trim type.toList) = type.toList ∧
      JsText.trim type.toList = type.toList)
    (first : ∀ a, ∃ cells, made a = type.toList :: cells)
    (rows : entries.map (·.row) = items.map made)
    (typed : ∀ e ∈ entries, e.type = m.toLowerCase (valueAt ipamImportHeaders e.row "record_type")) :
    ∀ e ∈ entries, e.type = type.toList := by
  intro e member
  obtain ⟨a, _, row⟩ := mem_map.mp (rows ▸ mem_map_of_mem member)
  obtain ⟨cells, shape⟩ := first a
  exact type_of_row ascii plain (row.symm.trans shape) (typed e member)

section
variable (stored : Storable JsText.trim m src)
include stored

lemma vlans_accepted (rows : entries.map (·.row) = src.vlans.map (vlanRow src.sites)) :
    ((vlanPolicy m ipamImportHeaders (importContext src)).run entries).accepted =
      src.vlans.map (exportedVlan src.sites) := by
  refine Policy.run_accepts (forall₂_read rows (fun v hv e row => readVlan_vlanRow stored hv row))
    (fun _ _ => rfl) ?_
  rw [map_map]
  exact stored.vidsNodup

/-- The prefix rows are read after the VLAN rows, so every exported vid is available to them. -/
lemma vids_available (rows : entries.map (·.row) = src.vlans.map (vlanRow src.sites)) :
    ∀ v ∈ src.vlans, v.vid ∈ availableVids (importContext src)
      ((vlanPolicy m ipamImportHeaders (importContext src)).run entries) := by
  intro v hv
  refine mem_append_right _ ((Policy.run_sound _ entries).accepted_seen ?_)
  rw [vlans_accepted stored rows, map_map]
  exact mem_map_of_mem (f := fun v => (exportedVlan src.sites v).vid) hv

lemma prefixes_accepted {vids : List Nat} (known : ∀ v ∈ src.vlans, v.vid ∈ vids)
    (rows : entries.map (·.row) = src.prefixes.map (fun n => prefixRow src.sites src.vlans n.row)) :
    ((prefixPolicy m ipamImportHeaders (importContext src) vids).run entries).accepted =
      src.prefixes.map (fun n => exportedPrefix src.sites src.vlans n.row) := by
  refine Policy.run_accepts (forall₂_read rows
    (fun n hn e row => readPrefix_prefixRow stored hn known row)) (fun _ _ => rfl) ?_
  rw [map_map]
  refine vrfKeys_nodup (fun n hn => ?_) stored.prefixesNodup
  obtain ⟨p, canonical⟩ := stored.cidrs n hn
  show '\x00' ∉ n.row.cidr
  rw [canonical]
  exact not_mem_toCidr

lemma addresses_accepted (rows : entries.map (·.row) = src.addresses.map (addressRow src.sites)) :
    ((addressPolicy m ipamImportHeaders (importContext src)).run entries).accepted =
      src.addresses.map (exportedAddress src.sites) := by
  refine Policy.run_accepts (forall₂_read rows
    (fun r hr e row => readAddress_addressRow stored hr row)) (fun _ _ => rfl) ?_
  rw [map_map]
  refine vrfKeys_nodup (fun r hr => ?_) stored.addressesNodup
  obtain ⟨value, canonical⟩ := stored.addresses r hr
  show '\x00' ∉ r.address
  rw [canonical]
  exact not_mem_formatAddress

lemma parseEntries_exported (rows : entries.map (·.row) = exportedRows src)
    (typed : ∀ e ∈ entries, e.type = m.toLowerCase (valueAt ipamImportHeaders e.row "record_type")) :
    (parseEntries m ipamImportHeaders (importContext src) entries).batch = exportedBatch src := by
  obtain ⟨both, ea, rfl, rows, rowsA⟩ := map_eq_append_iff.mp rows
  obtain ⟨ev, ep, rfl, rowsV, rowsP⟩ := map_eq_append_iff.mp rows
  have vlans : ∀ e ∈ ev, e.type = "vlan".toList :=
    types_of_rows (ascii_of_all (by decide)) (by decide) (fun _ => ⟨_, rfl⟩) rowsV
      (fun e he => typed e (by simp [he]))
  have prefixes : ∀ e ∈ ep, e.type = "prefix".toList :=
    types_of_rows (ascii_of_all (by decide)) (by decide) (fun _ => ⟨_, rfl⟩) rowsP
      (fun e he => typed e (by simp [he]))
  have addresses : ∀ e ∈ ea, e.type = "address".toList :=
    types_of_rows (ascii_of_all (by decide)) (by decide) (fun _ => ⟨_, rfl⟩) rowsA
      (fun e he => typed e (by simp [he]))
  have onlyV : ofType "vlan" (ev ++ ep ++ ea) = ev := by
    rw [ofType_append, ofType_append, ofType_same vlans, ofType_other prefixes (by decide),
      ofType_other addresses (by decide), append_nil, append_nil]
  have onlyP : ofType "prefix" (ev ++ ep ++ ea) = ep := by
    rw [ofType_append, ofType_append, ofType_other vlans (by decide), ofType_same prefixes,
      ofType_other addresses (by decide), nil_append, append_nil]
  have onlyA : ofType "address" (ev ++ ep ++ ea) = ea := by
    rw [ofType_append, ofType_append, ofType_other vlans (by decide),
      ofType_other prefixes (by decide), ofType_same addresses]
    rfl
  simp only [parseEntries, summarize, onlyV, onlyP, onlyA, vlans_accepted stored rowsV,
    prefixes_accepted stored (vids_available stored rowsV) rowsP, addresses_accepted stored rowsA,
    exportedBatch]

end

/-- A header row that is read as the import columns. -/
def ReadsHeaders (m : JsText.CaseMap) (header : List (List Char)) : Prop :=
  readHeaders m header = ipamImportHeaders ∧ header.any (fun cell => JsText.trim cell ≠ [])

lemma nonEmptyRows_of_all {rows : List (List (List Char))}
    (h : ∀ row ∈ rows, row.any (fun cell => JsText.trim cell ≠ [])) :
    (nonEmptyRows rows).map (·.row) = rows := by
  have all : nonEmptyRows rows =
      rows.zipIdx.map (fun placed => { row := placed.1, rowNumber := placed.2 + 1 }) := by
    refine filter_eq_self.mpr fun r hr => ?_
    obtain ⟨placed, member, rfl⟩ := mem_map.mp hr
    exact h placed.1 (fst_mem_of_mem_zipIdx member)
  rw [all, map_map]
  exact zipIdx_map_fst 0 rows

lemma exportedRows_nonEmpty (src : IpamExportSource) :
    ∀ row ∈ exportedRows src, row.any (fun cell => JsText.trim cell ≠ []) := by
  intro row member
  simp only [exportedRows, mem_append, mem_map] at member
  rcases member with (⟨v, _, rfl⟩ | ⟨n, _, rfl⟩) | ⟨r, _, rfl⟩
  · exact any_eq_true.mpr ⟨"vlan".toList, mem_cons_self, by decide⟩
  · exact any_eq_true.mpr ⟨"prefix".toList, mem_cons_self, by decide⟩
  · exact any_eq_true.mpr ⟨"address".toList, mem_cons_self, by decide⟩

lemma ready_total (rows : List IpamImportPreviewRow) :
    rows.countP (IsReady .vlan) + rows.countP (IsReady .ipPrefix) + rows.countP (IsReady .address) ≤
      rows.countP (fun row => row.state = .ready) := by
  induction rows with
  | nil => exact Nat.le_refl 0
  | cons r rows ih =>
    have once : (if IsReady .vlan r then 1 else 0) + (if IsReady .ipPrefix r then 1 else 0) +
        (if IsReady .address r then 1 else 0) ≤ if decide (r.state = .ready) then 1 else 0 := by
      obtain ⟨_, kind, _, state, _⟩ := r
      cases state <;> rcases kind with _ | _ | _ | _ <;> simp [IsReady]
    simp only [countP_cons]
    omega

/-- When the batch has every exported record, no row is left for a skip or an error. -/
lemma nothing_rejected (rows : entries.map (·.row) = exportedRows src)
    (batch : (parseEntries m ipamImportHeaders (importContext src) entries).batch =
      exportedBatch src) :
    (parseEntries m ipamImportHeaders (importContext src) entries).skipped = 0 ∧
      (parseEntries m ipamImportHeaders (importContext src) entries).errors = 0 := by
  have length : (parseEntries m ipamImportHeaders (importContext src) entries).rows.length =
      (exportedRows src).length := by
    rw [(parseEntries_rows_perm entries).length_eq, ← length_map IpamImportPreviewRow.rowNumber,
      (kindRows_rowNumbers entries).length_eq, ← rows, length_map, length_map]
  have ready : (exportedRows src).length ≤
      (parseEntries m ipamImportHeaders (importContext src) entries).ready := by
    have kinds := ready_total (parseEntries m ipamImportHeaders (importContext src) entries).rows
    rw [parseEntries_ready, parseEntries_ready, parseEntries_ready, batch] at kinds
    simp only [IpamImportBatch.count, exportedBatch, length_map] at kinds
    simp only [exportedRows, length_append, length_map]
    exact kinds
  have total : (parseEntries m ipamImportHeaders (importContext src) entries).ready +
      (parseEntries m ipamImportHeaders (importContext src) entries).skipped +
      (parseEntries m ipamImportHeaders (importContext src) entries).errors =
      (parseEntries m ipamImportHeaders (importContext src) entries).rows.length :=
    summarize_total _ _ _
  constructor <;> omega

lemma recovers_of_header (stored : Storable JsText.trim m src) {header : List (List Char)}
    (reads : ReadsHeaders m header) : Recovers m src (header :: exportedRows src) := by
  set rows := header :: exportedRows src with rows_eq
  have all : (nonEmptyRows rows).map (·.row) = rows := by
    refine nonEmptyRows_of_all fun row member => ?_
    rcases mem_cons.mp member with rfl | exported
    · exact reads.2
    · exact exportedRows_nonEmpty src row exported
  obtain ⟨first, data, shape, top, below⟩ := map_eq_cons_iff.mp (all.trans rows_eq)
  have headers : readHeaders m first.row = ipamImportHeaders := by
    rw [top]
    exact reads.1
  have present : "record_type".toList ∈ ipamImportHeaders := by decide
  obtain ⟨entries, entries_eq⟩ : ∃ entries, entries = data.map (importEntry m ipamImportHeaders) :=
    ⟨_, rfl⟩
  have parsed : parseIpamImportRows m rows (importContext src) =
      parseEntries m ipamImportHeaders (importContext src) entries := by
    rw [parseIpamImportRows, shape]
    simp only [headers, if_pos present, entries_eq]
  have entryRows : entries.map (·.row) = exportedRows src := by
    rw [entries_eq, map_map]
    exact below
  have typed : ∀ e ∈ entries,
      e.type = m.toLowerCase (valueAt ipamImportHeaders e.row "record_type") := by
    rw [entries_eq]
    intro e member
    obtain ⟨r, _, rfl⟩ := mem_map.mp member
    rfl
  have batch := parseEntries_exported stored entryRows typed
  obtain ⟨skipped, errors⟩ := nothing_rejected entryRows batch
  rw [Recovers, parsed]
  exact ⟨errors, skipped, batch⟩

end File

/-- The header row with the byte order mark that the reader left in place. -/
def markedHeaders : List (List Char) :=
  match ipamImportHeaders with
  | first :: rest => (JsText.byteOrderMark :: first) :: rest
  | [] => []

lemma readsHeaders_of_cells {m : CaseMap} {header : List (List Char)}
    (cells : header.map (fun cell => JsText.trim (stripMark cell)) = ipamImportHeaders)
    (some_cell : header.any (fun cell => JsText.trim cell ≠ [])) : ReadsHeaders m header := by
  refine ⟨?_, some_cell⟩
  have lowered : ∀ name ∈ ipamImportHeaders, m.toLowerCase name = name := by
    have plain : ∀ name ∈ ipamImportHeaders,
        name.all (fun c => c.toNat < 0x80) ∧ asciiLower name = name := by decide
    intro name member
    rw [m.ascii name (ascii_of_all (plain name member).1), (plain name member).2]
  have split : readHeaders m header =
      (header.map (fun cell => JsText.trim (stripMark cell))).map m.toLowerCase := by
    rw [map_map]
    rfl
  rw [split, cells]
  exact (map_congr_left lowered).trans (map_id ipamImportHeaders)

lemma ipamDelimitedText_eq (rows : List (List (List Char))) (delimiter : Char) :
    ipamDelimitedText rows delimiter = byteOrderMark :: write delimiter rows :=
  rfl

lemma readDelimited_bytes (dropMark : Bool) (rows : List (List (List Char))) (delimiter : Char) :
    readDelimited dropMark delimiter (ipamDelimitedBytes rows delimiter) = Delimited.read delimiter
        (if dropMark then write delimiter rows else ipamDelimitedText rows delimiter) := by
  rw [readDelimited, ipamDelimitedBytes, String.toByteArray_ofList, utf8Decode?_utf8Encode,
    bind_some, ipamDelimitedText_eq]
  rfl

lemma exportedRows_ne_nil (src : IpamExportSource) : ∀ row ∈ exportedRows src, row ≠ [] := by
  intro row member empty
  have some_cell := exportedRows_nonEmpty src row member
  rw [empty] at some_cell
  cases some_cell

/-- With or without the mark the reader finds the exported rows below a readable header. -/
lemma readDelimited_export (m : CaseMap) (src : IpamExportSource) (dropMark : Bool)
    {delimiter : Char} (either : delimiter = ',' ∨ delimiter = '\t') :
    ∃ header, ReadsHeaders m header ∧
      readDelimited dropMark delimiter (ipamDelimitedBytes (buildIpamExportRows src) delimiter) =
        some (header :: exportedRows src) := by
  have quote : delimiter ≠ '"' := by rcases either with rfl | rfl <;> decide
  have carriage : delimiter ≠ '\r' := by rcases either with rfl | rfl <;> decide
  have nonempty : ∀ header, header ≠ [] → ∀ row ∈ header :: exportedRows src, row ≠ [] := by
    intro header named row member
    rcases mem_cons.mp member with rfl | exported
    · exact named
    · exact exportedRows_ne_nil src row exported
  cases dropMark with
  | true =>
    refine ⟨ipamImportHeaders, readsHeaders_of_cells (by decide) (by decide), ?_⟩
    rw [readDelimited_bytes]
    exact read_write (cons_ne_nil _ _) (nonempty _ (by decide)) quote carriage
  | false =>
    refine ⟨markedHeaders, readsHeaders_of_cells (by decide) (by decide), ?_⟩
    have mark : ¬ Special delimiter byteOrderMark := by rcases either with rfl | rfl <;> decide
    have bare : "record_type".toList.all (fun c => ¬ Special delimiter c) := by
      rcases either with rfl | rfl <;> decide
    have marked : ipamDelimitedText (buildIpamExportRows src) delimiter =
        write delimiter (markedHeaders :: exportedRows src) :=
      cons_write mark
        (fun c member => of_decide_eq_true (all_eq_true.mp bare c member)) _ _
    rw [readDelimited_bytes, if_neg Bool.false_ne_true, marked]
    exact read_write (cons_ne_nil _ _) (nonempty _ (by decide)) quote carriage

/-- Exported records are imported again, from the rows and from a delimited file. -/
theorem import_export (m : JsText.CaseMap) (src : IpamExportSource)
    (stored : Storable JsText.trim m src) :
    Recovers m src (buildIpamExportRows src) ∧
      ∀ delimiter, delimiter = ',' ∨ delimiter = '\t' → ∀ dropMark, ∃ rows,
        readDelimited dropMark delimiter (ipamDelimitedBytes (buildIpamExportRows src) delimiter) =
          some rows ∧ Recovers m src rows := by
  refine ⟨recovers_of_header stored (readsHeaders_of_cells (by decide) (by decide)), ?_⟩
  intro delimiter either dropMark
  obtain ⟨header, reads, read⟩ := readDelimited_export m src dropMark either
  exact ⟨_, read, recovers_of_header stored reads⟩

/-- Records with delimiters, quotes and line breaks in their texts, and a reference to a site
that is gone. -/
def quotedSource : IpamExportSource where
  prefixes :=
    [{ row := { id := "p".toList, cidr := "10.20.30.0/24".toList, vrf := "corp".toList
                role := "a,b".toList, siteId := some "gone".toList, vlanId := some "v".toList }
       parentId := none, depth := 0, network := "10.20.30.0".toList
       broadcast := "10.20.30.255".toList, firstUsable := "10.20.30.1".toList
       lastUsable := "10.20.30.254".toList, usable := 254, used := 1, childCount := 0
       addressCount := 1 }]
  addresses :=
    [{ id := "a".toList, address := "10.20.30.10".toList, vrf := "corp".toList
       deviceType := some .accessPoint, description := ['x', '\r', '\n', 'y']
       siteId := some "s".toList, siteInherited := true }]
  sites := [{ id := "s".toList, name := "HQ".toList }]
  vlans :=
    [{ id := "v".toList, vid := 30, name := ['"', 'M', '"'], siteId := some "s".toList, accent := 255 }]

lemma quotedSource_storable : Storable JsText.trim .ofAscii quotedSource where
  vlanTexts := by decide
  prefixTexts := by decide
  addressTexts := by decide
  vids := by decide
  accents := by decide
  vidsNodup := by decide
  vlanIds := by decide
  vlanIdsNodup := by decide
  cidrs n hn := ⟨.of 0x0a141e00 24 (by decide), by
    rw [mem_singleton.mp hn]
    decide⟩
  prefixesNodup := by decide
  addresses r hr := ⟨0x0a141e0a, by
    rw [mem_singleton.mp hr]
    decide⟩
  addressesNodup := by decide
  siteIds := by decide
  siteIdsNodup := by decide
  siteNames := by decide
  siteNamesNodup := by decide

theorem quotedSource_imported : ∃ rows, readDelimited false ','
    (ipamDelimitedBytes (buildIpamExportRows quotedSource) ',') = some rows ∧
      Recovers .ofAscii quotedSource rows :=
  (import_export .ofAscii quotedSource quotedSource_storable).2 ',' (.inl rfl) false

/-- The backend stores a leading byte order mark, which the import trims. -/
def markedSource : IpamExportSource where
  prefixes := []
  addresses := []
  sites := []
  vlans := [{ id := "v".toList, vid := 30, name := [JsText.byteOrderMark, 'a'] }]

theorem markedSource_altered : Storable Text.trim .ofAscii markedSource ∧
    ¬ Recovers .ofAscii markedSource (buildIpamExportRows markedSource) := by
  refine ⟨?_, ?_⟩
  · constructor <;> simp [markedSource]
    decide
  · unfold Recovers
    decide +kernel

end Ipam
