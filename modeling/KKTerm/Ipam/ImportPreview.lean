import KKTerm.Ipam.Import

/-!
# What the preview promises

Each data row has one row in the preview, at its place in the file. The rows
marked as ready are those of the batch, and what is in the batch is well formed.
-/

namespace Ipam

open Fallible Admission List JsText

/-- The row of a record that could not be read. -/
structure Faulty (kind : IpamImportRowKind) (entry : ImportEntry) (r : IpamImportPreviewRow) : Prop where
  rowNumber : r.rowNumber = entry.rowNumber
  kind : r.kind = some kind
  state : r.state = .error

section Reading
variable {m : JsText.CaseMap} {headers : List (List Char)} {ctx : ParseContext}
  {entry : ImportEntry} {kind : IpamImportRowKind}

lemma faulty_issue (label : List Char) (what : IpamImportIssue) :
    Faulty kind entry (issue entry.rowNumber (some kind) label what) :=
  ⟨rfl, rfl, rfl⟩

lemma resolveSite_faulty (sites : List Site) (label raw : List Char) :
    ErrorsSatisfy (Faulty kind entry) (resolveSite m sites entry.rowNumber kind label raw) := by
  by_cases blank : raw = []
  · rw [resolveSite, if_pos blank]
    exact errorsSatisfy_ok _
  · rw [resolveSite, if_neg blank]
    split
    · exact errorsSatisfy_error (faulty_issue _ _)
    · exact errorsSatisfy_ok _
    · exact errorsSatisfy_error (faulty_issue _ _)

lemma readVlan_faulty (entry : ImportEntry) :
    ErrorsSatisfy (Faulty .vlan entry) (readVlan m headers ctx entry) := by
  refine errorsSatisfy_bind (errorsSatisfy_reject (faulty_issue _ _)) fun _ => ?_
  refine errorsSatisfy_bind (errorsSatisfy_require (faulty_issue _ _)) fun vid => ?_
  refine errorsSatisfy_bind (resolveSite_faulty _ _ _) fun siteId => ?_
  refine errorsSatisfy_bind (errorsSatisfy_require (faulty_issue _ _)) fun accent => ?_
  exact errorsSatisfy_ok _

variable (availableVids : List Nat)

lemma readVlanVid_faulty (cidr rawVid : List Char) :
    ErrorsSatisfy (Faulty .ipPrefix entry) (readVlanVid availableVids entry cidr rawVid) := by
  by_cases blank : rawVid = []
  · rw [readVlanVid, if_pos blank]
    exact errorsSatisfy_ok _
  · rw [readVlanVid, if_neg blank]
    refine errorsSatisfy_bind (errorsSatisfy_require (faulty_issue _ _)) fun vid => ?_
    refine errorsSatisfy_bind (errorsSatisfy_reject (faulty_issue _ _)) fun _ => ?_
    exact errorsSatisfy_ok _

lemma readPrefix_faulty (entry : ImportEntry) :
    ErrorsSatisfy (Faulty .ipPrefix entry) (readPrefix m headers ctx availableVids entry) := by
  refine errorsSatisfy_bind (errorsSatisfy_reject (faulty_issue _ _)) fun _ => ?_
  refine errorsSatisfy_bind (errorsSatisfy_require (faulty_issue _ _)) fun preview => ?_
  refine errorsSatisfy_bind (errorsSatisfy_require (faulty_issue _ _)) fun status => ?_
  refine errorsSatisfy_bind (readVlanVid_faulty _ _ _) fun vlanVid => ?_
  refine errorsSatisfy_bind (resolveSite_faulty _ _ _) fun siteId => ?_
  exact errorsSatisfy_ok _

lemma readDeviceType_faulty (address rawDeviceType : List Char) :
    ErrorsSatisfy (Faulty .address entry) (readDeviceType m entry address rawDeviceType) := by
  by_cases blank : rawDeviceType = []
  · rw [readDeviceType, if_pos blank]
    exact errorsSatisfy_ok _
  · rw [readDeviceType, if_neg blank]
    refine errorsSatisfy_bind (errorsSatisfy_require (faulty_issue _ _)) fun type => ?_
    exact errorsSatisfy_ok _

lemma readAddress_faulty (entry : ImportEntry) :
    ErrorsSatisfy (Faulty .address entry) (readAddress m headers ctx entry) := by
  refine errorsSatisfy_bind (errorsSatisfy_reject (faulty_issue _ _)) fun _ => ?_
  refine errorsSatisfy_bind (errorsSatisfy_require (faulty_issue _ _)) fun addressValue => ?_
  refine errorsSatisfy_bind (errorsSatisfy_require (faulty_issue _ _)) fun status => ?_
  refine errorsSatisfy_bind (readDeviceType_faulty _ _) fun deviceType => ?_
  refine errorsSatisfy_bind (resolveSite_faulty _ _ _) fun siteId => ?_
  exact errorsSatisfy_ok _

end Reading

/-- A policy whose rows are those of one kind of record. -/
structure OfKind {κ ι : Type} (kind : IpamImportRowKind)
    (p : Policy ImportEntry κ ι IpamImportPreviewRow) : Prop where
  faulty : ∀ e, ErrorsSatisfy (Faulty kind e) (p.read e)
  noted : ∃ label type, p.note = note kind label type

section Kinds
variable {m : JsText.CaseMap} {headers : List (List Char)} {ctx : ParseContext} {vids : List Nat}
variable {κ ι : Type} {kind : IpamImportRowKind} {p : Policy ImportEntry κ ι IpamImportPreviewRow}

lemma vlanPolicy_ofKind : OfKind .vlan (vlanPolicy m headers ctx) :=
  ⟨readVlan_faulty, _, _, rfl⟩

lemma prefixPolicy_ofKind : OfKind .ipPrefix (prefixPolicy m headers ctx vids) :=
  ⟨readPrefix_faulty vids, _, _, rfl⟩

lemma addressPolicy_ofKind : OfKind .address (addressPolicy m headers ctx) :=
  ⟨readAddress_faulty, _, _, rfl⟩

lemma OfKind.row (h : OfKind kind p) {e : ImportEntry} {r : IpamImportPreviewRow}
    (logs : p.Logs e r) : r.rowNumber = e.rowNumber ∧ r.kind = some kind := by
  cases logs with
  | unreadable failed => exact ⟨(h.faulty e r failed).rowNumber, (h.faulty e r failed).kind⟩
  | noted read v =>
    obtain ⟨label, type, noted⟩ := h.noted
    rw [noted]
    cases v <;> exact ⟨rfl, rfl⟩

def IsReady (kind : IpamImportRowKind) (r : IpamImportPreviewRow) : Bool :=
  r.kind = some kind ∧ r.state = .ready

variable [DecidableEq κ]

lemma OfKind.rowNumbers (h : OfKind kind p) (entries : List ImportEntry) :
    (p.run entries).log.map IpamImportPreviewRow.rowNumber = entries.map (·.rowNumber) :=
  (Policy.run_sound p entries).map_log (fun _ _ logs => (h.row logs).1)

lemma OfKind.countP_ready (h : OfKind kind p) (entries : List ImportEntry)
    (other : IpamImportRowKind) :
    (p.run entries).log.countP (IsReady other) =
      if other = kind then (p.run entries).accepted.length else 0 := by
  by_cases same : other = kind
  · rw [if_pos same, same]
    refine Policy.countP_log ?_ ?_ entries
    · intro e r failed
      rw [IsReady, (h.faulty e r failed).state]
      simp
    · intro e i v
      obtain ⟨label, type, noted⟩ := h.noted
      rw [noted]
      cases v <;> simp [note, issue, IsReady]
  · rw [if_neg same, countP_eq_zero]
    intro r member
    obtain ⟨e, _, logs⟩ := (Policy.run_sound p entries).logs_of_mem member
    rw [IsReady, (h.row logs).2]
    simp [Ne.symm same]

end Kinds

lemma perm_filter_or {α : Type} {p q : α → Bool} (apart : ∀ x, p x = true → q x = false)
    (l : List α) : (l.filter p ++ l.filter q).Perm (l.filter (fun x => p x || q x)) := by
  have first : (l.filter (fun x => p x || q x)).filter p = l.filter p := by
    rw [filter_filter]
    refine filter_congr fun x _ => ?_
    cases p x <;> simp
  have second : (l.filter (fun x => p x || q x)).filter (fun x => !p x) = l.filter q := by
    rw [filter_filter]
    refine filter_congr fun x _ => ?_
    cases hp : p x with
    | false => simp
    | true => simp [apart x hp]
  have parts := filter_append_perm p (l.filter (fun x => p x || q x))
  rwa [first, second] at parts

/-- Entries sorted by three different types, with a rest of no such type. -/
lemma types_perm {a b c : List Char} (hab : a ≠ b) (hac : a ≠ c) (hbc : b ≠ c)
    (entries : List ImportEntry) :
    (entries.filter (fun e => e.type = a) ++ entries.filter (fun e => e.type = b) ++
      entries.filter (fun e => e.type = c) ++
      entries.filter (fun e => e.type ∉ [a, b, c])).Perm entries := by
  have two := perm_filter_or (p := fun e : ImportEntry => e.type = a) (q := fun e => e.type = b)
    (by simp only [decide_eq_true_eq, decide_eq_false_iff_not]; grind) entries
  have three := perm_filter_or (p := fun e : ImportEntry => e.type = a || e.type = b)
    (q := fun e => e.type = c)
    (by simp only [Bool.or_eq_true, decide_eq_true_eq, decide_eq_false_iff_not]; grind) entries
  have rest := filter_append_perm
    (fun e : ImportEntry => (e.type = a || e.type = b) || e.type = c) entries
  have others : (fun e : ImportEntry => decide (e.type ∉ [a, b, c])) =
      fun e => !((e.type = a || e.type = b) || e.type = c) := by
    funext e
    simp [Bool.and_assoc]
  rw [others]
  exact (((two.append_right _).trans three).append_right _).trans rest

lemma ofType_perm (entries : List ImportEntry) :
    (ofType "vlan" entries ++ ofType "prefix" entries ++ ofType "address" entries ++
      entries.filter (fun entry => entry.type ∉ recordTypes)).Perm entries :=
  types_perm (by decide) (by decide) (by decide) entries

def IpamImportBatch.count (batch : IpamImportBatch) : IpamImportRowKind → Nat
  | .vlan => batch.vlans.length
  | .ipPrefix => batch.prefixes.length
  | .address => batch.addresses.length

section Preview
variable {m : JsText.CaseMap} {headers : List (List Char)} {ctx : ParseContext}

/-- The rows in the order of the kinds. -/
def kindRows (m : JsText.CaseMap) (headers : List (List Char)) (ctx : ParseContext)
    (entries : List ImportEntry) : List IpamImportPreviewRow :=
  let vlans := (vlanPolicy m headers ctx).run (ofType "vlan" entries)
  vlans.log ++
    ((prefixPolicy m headers ctx (availableVids ctx vlans)).run (ofType "prefix" entries)).log ++
    ((addressPolicy m headers ctx).run (ofType "address" entries)).log ++
    (entries.filter (fun entry => entry.type ∉ recordTypes)).map unsupported

variable (entries : List ImportEntry)

lemma parseEntries_rows_perm :
    (parseEntries m headers ctx entries).rows.Perm (kindRows m headers ctx entries) :=
  perm_insertionSort _ _

lemma kindRows_rowNumbers :
    ((kindRows m headers ctx entries).map IpamImportPreviewRow.rowNumber).Perm
      (entries.map (·.rowNumber)) := by
  have numbers : (kindRows m headers ctx entries).map IpamImportPreviewRow.rowNumber =
      (ofType "vlan" entries ++ ofType "prefix" entries ++ ofType "address" entries ++
        entries.filter (fun entry => entry.type ∉ recordTypes)).map (·.rowNumber) := by
    simp only [kindRows, map_append, vlanPolicy_ofKind.rowNumbers,
      prefixPolicy_ofKind.rowNumbers, addressPolicy_ofKind.rowNumbers, map_map]
    rfl
  rw [numbers]
  exact (ofType_perm entries).map _

lemma parseEntries_rowNumbers {entries : List ImportEntry}
    (ascending : (entries.map (·.rowNumber)).Pairwise (· < ·)) :
    (parseEntries m headers ctx entries).rows.map IpamImportPreviewRow.rowNumber =
      entries.map (·.rowNumber) := by
  have same : ((parseEntries m headers ctx entries).rows.map IpamImportPreviewRow.rowNumber).Perm
      (entries.map (·.rowNumber)) :=
    ((parseEntries_rows_perm entries).map _).trans (kindRows_rowNumbers entries)
  have sorted : ((parseEntries m headers ctx entries).rows.map
      IpamImportPreviewRow.rowNumber).Pairwise (· ≤ ·) :=
    pairwise_map.mpr (pairwise_insertionSort _ _)
  exact Perm.eq_of_pairwise' sorted (ascending.imp Nat.le_of_lt) same

lemma parseEntries_ready (kind : IpamImportRowKind) :
    (parseEntries m headers ctx entries).rows.countP (IsReady kind) =
      (parseEntries m headers ctx entries).batch.count kind := by
  have others : ((entries.filter (fun entry => entry.type ∉ recordTypes)).map unsupported).countP
      (IsReady kind) = 0 := by
    rw [countP_eq_zero]
    intro r member
    obtain ⟨e, _, rfl⟩ := mem_map.mp member
    simp [IsReady, unsupported, issue]
  rw [(parseEntries_rows_perm entries).countP_eq, kindRows]
  simp only [countP_append, vlanPolicy_ofKind.countP_ready, prefixPolicy_ofKind.countP_ready,
    addressPolicy_ofKind.countP_ready, others]
  cases kind <;> simp [parseEntries, summarize, IpamImportBatch.count]

end Preview

lemma summarize_total (batch : IpamImportBatch) (rows : List IpamImportPreviewRow)
    (fileIssue : Option IpamImportIssue) :
    (summarize batch rows fileIssue).ready + (summarize batch rows fileIssue).skipped +
      (summarize batch rows fileIssue).errors = rows.length := by
  simp only [summarize]
  induction rows with
  | nil => rfl
  | cons r rows ih =>
    simp only [countP_cons, length_cons]
    cases r.state <;> simp <;> omega


lemma formatIpv4_eq (value : UInt32) : formatIpv4 value = formatAddress value := by
  simp [formatIpv4, formatAddress, formatOctet, intercalate]

variable {length : Nat} {text : List Char}

lemma mask_eq (h : length ≤ 32) :
    (if length = 0 then 0 else (0xffffffff : UInt32) <<< UInt32.ofNat (32 - length)) =
      netmask length := by
  rw [netmask, Nat.min_eq_left h]

lemma previewLength_le (h : previewLength text = some length) : length ≤ 32 := by
  by_cases short : text.length ≤ 2
  · rw [previewLength, if_pos short] at h
    simpa using (Option.filter_eq_some_iff.mp h).2
  · rw [previewLength, if_neg short] at h
    cases h

lemma previewCidr_eq_some {preview : CidrPreview} (h : previewCidr text = some preview) :
    ∃ p : Prefix, preview.cidr = p.toCidr := by
  rw [previewCidr] at h
  split at h
  · rename_i addressText lengthText _
    simp only [Option.bind_eq_bind, Option.bind_eq_some_iff] at h
    obtain ⟨length, read, address, _, done⟩ := h
    have small := previewLength_le read
    refine ⟨.of address length small, ?_⟩
    cases done
    simp only [Prefix.toCidr, Prefix.of, formatIpv4_eq, mask_eq small]
  · cases h

section Inversion
variable {m : JsText.CaseMap} {headers : List (List Char)} {ctx : ParseContext}
  {entry : ImportEntry}

lemma vlanId_eq_some {value : List Char} {vid : Nat} (h : vlanId value = some vid) :
    1 ≤ vid ∧ vid ≤ 4094 := by
  have range := (Option.filter_eq_some_iff.mp h).2
  simpa using range

lemma readVlan_eq_ok {i : IpamImportVlanInput} (h : readVlan m headers ctx entry = .ok i) :
    (1 ≤ i.vid ∧ i.vid ≤ 4094) ∧ i.accent ≤ 255 := by
  simp only [readVlan, bind_eq_ok, require_eq_ok] at h
  obtain ⟨_, _, vid, read, siteId, _, accent, accepted, done⟩ := h
  cases done
  have small := (Option.filter_eq_some_iff.mp accepted).2
  exact ⟨vlanId_eq_some read, by simpa using small⟩

lemma readVlanVid_eq_ok {vids : List Nat} {cidr rawVid : List Char} {vlanVid : Option Nat}
    (h : readVlanVid vids entry cidr rawVid = .ok vlanVid) : ∀ vid ∈ vlanVid, vid ∈ vids := by
  by_cases blank : rawVid = []
  · rw [readVlanVid, if_pos blank] at h
    cases h
    rintro vid ⟨⟩
  · rw [readVlanVid, if_neg blank] at h
    simp only [bind_eq_ok, require_eq_ok] at h
    obtain ⟨vid, _, ⟨⟩, available, done⟩ := h
    cases done
    rintro vid' ⟨⟩
    exact not_not.mp (reject_eq_ok.mp available)

lemma readPrefix_eq_ok {vids : List Nat} {i : IpamImportPrefixInput}
    (h : readPrefix m headers ctx vids entry = .ok i) :
    (∃ p : Prefix, i.cidr = p.toCidr) ∧ i.vrf = valueAt headers entry.row "vrf" ∧
      ∀ vid ∈ i.vlanVid, vid ∈ vids := by
  simp only [readPrefix, bind_eq_ok, require_eq_ok] at h
  obtain ⟨_, _, preview, read, status, _, vlanVid, linked, siteId, _, done⟩ := h
  cases done
  exact ⟨previewCidr_eq_some read, rfl, readVlanVid_eq_ok linked⟩

lemma readAddress_eq_ok {i : IpamImportAddressInput} (h : readAddress m headers ctx entry = .ok i) :
    (∃ value, i.address = formatAddress value) ∧ i.vrf = valueAt headers entry.row "vrf" := by
  simp only [readAddress, bind_eq_ok, require_eq_ok] at h
  obtain ⟨_, _, value, _, status, _, type, _, siteId, _, done⟩ := h
  cases done
  exact ⟨⟨value, formatIpv4_eq value⟩, rfl⟩

end Inversion

/-- Both languages trim each cell alike. -/
def CellsAlike (rows : List (List (List Char))) : Prop :=
  ∀ row ∈ rows, ∀ cell ∈ row, JsText.trim cell = Text.trim cell

lemma valueAt_alike {row : List (List Char)}
    (alike : ∀ cell ∈ row, trim cell = Text.trim cell) (headers : List (List Char))
    (name : String) : Text.trim (valueAt headers row name) = valueAt headers row name := by
  rw [valueAt]
  cases found : (column headers name.toList).bind (row[·]?) with
  | none => rfl
  | some cell =>
    obtain ⟨index, _, at_index⟩ := Option.bind_eq_some_iff.mp found
    rw [Option.getD_some, alike cell (mem_of_getElem? at_index), Text.trim_trim]

lemma trim_valueAt (headers row : List (List Char)) (name : String) :
    trim (valueAt headers row name) = valueAt headers row name :=
  trim_trim _

/-- What the backend needs of a batch, given what is stored. -/
structure Importable (ctx : ParseContext) (batch : IpamImportBatch) : Prop where
  vids : ∀ i ∈ batch.vlans, 1 ≤ i.vid ∧ i.vid ≤ 4094
  accents : ∀ i ∈ batch.vlans, i.accent ≤ 255
  newVids : ∀ i ∈ batch.vlans, ∀ v ∈ ctx.vlans, v.vid ≠ i.vid
  vidsNodup : (batch.vlans.map IpamImportVlanInput.vid).Nodup
  cidrs : ∀ i ∈ batch.prefixes, ∃ p : Prefix, i.cidr = p.toCidr
  prefixVrfs : ∀ i ∈ batch.prefixes, Text.trim i.vrf = i.vrf
  newPrefixes : ∀ i ∈ batch.prefixes, ∀ n ∈ ctx.prefixes, ¬ (n.row.vrf = i.vrf ∧ n.row.cidr = i.cidr)
  prefixesNodup : (batch.prefixes.map (fun i => (i.vrf, i.cidr))).Nodup
  linked : ∀ i ∈ batch.prefixes, ∀ vid ∈ i.vlanVid,
    (∃ v ∈ ctx.vlans, v.vid = vid) ∨ ∃ v ∈ batch.vlans, v.vid = vid
  addresses : ∀ i ∈ batch.addresses, ∃ value, i.address = formatAddress value
  addressVrfs : ∀ i ∈ batch.addresses, Text.trim i.vrf = i.vrf
  newAddresses : ∀ i ∈ batch.addresses, ∀ r ∈ ctx.addresses, ¬ (r.vrf = i.vrf ∧ r.address = i.address)
  addressesNodup : (batch.addresses.map (fun i => (i.vrf, i.address))).Nodup

lemma importable_empty (ctx : ParseContext) : Importable ctx {} := by
  constructor <;> simp

section Batch
variable {m : JsText.CaseMap} {headers : List (List Char)} {ctx : ParseContext}
  {entries : List ImportEntry}

lemma ofType_subset {type : String} {e : ImportEntry} (h : e ∈ ofType type entries) : e ∈ entries :=
  mem_of_mem_filter h

/-- A VLAN that a prefix may name is stored or among those to create. -/
lemma available_cases {vid : Nat}
    (h : vid ∈ availableVids ctx ((vlanPolicy m headers ctx).run entries)) :
    (∃ v ∈ ctx.vlans, v.vid = vid) ∨
      ∃ v ∈ ((vlanPolicy m headers ctx).run entries).accepted, v.vid = vid := by
  rcases mem_append.mp h with stored | seen
  · exact .inl (mem_map.mp stored)
  · rcases (Policy.run_sound _ entries).covered vid seen with taken | accepted
    · obtain ⟨v, member, same⟩ := any_eq_true.mp taken
      exact .inl ⟨v, member, of_decide_eq_true same⟩
    · exact .inr (mem_map.mp accepted)

lemma parseEntries_importable (alike : ∀ e ∈ entries, ∀ cell ∈ e.row, trim cell = Text.trim cell) :
    Importable ctx (parseEntries m headers ctx entries).batch := by
  have vlans := Policy.run_sound (vlanPolicy m headers ctx) (ofType "vlan" entries)
  have prefixes := Policy.run_sound (prefixPolicy m headers ctx (availableVids ctx
    ((vlanPolicy m headers ctx).run (ofType "vlan" entries)))) (ofType "prefix" entries)
  have addresses := Policy.run_sound (addressPolicy m headers ctx) (ofType "address" entries)
  constructor
  · intro i hi
    obtain ⟨e, _, read⟩ := vlans.origin i hi
    exact (readVlan_eq_ok read).1
  · intro i hi
    obtain ⟨e, _, read⟩ := vlans.origin i hi
    exact (readVlan_eq_ok read).2
  · intro i hi v hv same
    have free := any_eq_false.mp (vlans.fresh i hi) v hv
    exact free (decide_eq_true same)
  · exact vlans.nodup
  · intro i hi
    obtain ⟨e, _, read⟩ := prefixes.origin i hi
    exact (readPrefix_eq_ok read).1
  · intro i hi
    obtain ⟨e, member, read⟩ := prefixes.origin i hi
    rw [(readPrefix_eq_ok read).2.1]
    exact valueAt_alike (alike e (ofType_subset member)) _ _
  · rintro i hi n hn ⟨vrf, cidr⟩
    obtain ⟨e, _, read⟩ := prefixes.origin i hi
    have trimmed : trim n.row.vrf = i.vrf := by rw [vrf, (readPrefix_eq_ok read).2.1, trim_valueAt]
    have free := any_eq_false.mp (prefixes.fresh i hi) n hn
    exact free (decide_eq_true (by rw [trimmed, cidr]; rfl))
  · exact Nodup.of_map (fun pair : List Char × List Char => vrfKey pair.1 pair.2)
      (by rw [map_map]; exact prefixes.nodup)
  · intro i hi vid hvid
    obtain ⟨e, _, read⟩ := prefixes.origin i hi
    exact available_cases ((readPrefix_eq_ok read).2.2 vid hvid)
  · intro i hi
    obtain ⟨e, _, read⟩ := addresses.origin i hi
    exact (readAddress_eq_ok read).1
  · intro i hi
    obtain ⟨e, member, read⟩ := addresses.origin i hi
    rw [(readAddress_eq_ok read).2]
    exact valueAt_alike (alike e (ofType_subset member)) _ _
  · rintro i hi r hr ⟨vrf, address⟩
    obtain ⟨e, _, read⟩ := addresses.origin i hi
    have trimmed : trim r.vrf = i.vrf := by rw [vrf, (readAddress_eq_ok read).2, trim_valueAt]
    have free := any_eq_false.mp (addresses.fresh i hi) r hr
    exact free (decide_eq_true (by rw [trimmed, address]; rfl))
  · exact Nodup.of_map (fun pair : List Char × List Char => vrfKey pair.1 pair.2)
      (by rw [map_map]; exact addresses.nodup)

end Batch

/-- The non-blank rows below the first one. -/
def dataRows (rows : List (List (List Char))) : List ImportRow :=
  (nonEmptyRows rows).tail

/-- The first non-blank row has no column for the type of a record. -/
def MissingHeader (m : JsText.CaseMap) (rows : List (List (List Char))) : Prop :=
  ∃ first ∈ (nonEmptyRows rows).head?, "record_type".toList ∉ readHeaders m first.row

section File
variable {m : JsText.CaseMap} {rows : List (List (List Char))} {ctx : ParseContext}

lemma row_mem_of_nonEmptyRows {r : ImportRow} (h : r ∈ nonEmptyRows rows) : r.row ∈ rows := by
  obtain ⟨⟨row, index⟩, member, rfl⟩ := mem_map.mp (mem_of_mem_filter h)
  exact fst_mem_of_mem_zipIdx member

lemma nonEmptyRows_ascending (rows : List (List (List Char))) :
    ((nonEmptyRows rows).map (·.rowNumber)).Pairwise (· < ·) := by
  have places : (rows.zipIdx.map Prod.snd).Pairwise (· < ·) := by
    rw [zipIdx_map_snd]
    exact pairwise_lt_range'
  refine Pairwise.sublist (filter_sublist.map _) ?_
  rw [map_map, pairwise_map]
  exact (pairwise_map.mp places).imp (fun before => Nat.succ_lt_succ before)

lemma dataRows_ascending (rows : List (List (List Char))) :
    ((dataRows rows).map (·.rowNumber)).Pairwise (· < ·) :=
  (nonEmptyRows_ascending rows).sublist ((tail_sublist _).map _)

lemma parseIpamImportRows_missing (h : MissingHeader m rows) (ctx : ParseContext) :
    parseIpamImportRows m rows ctx = summarize {} [] (some (.missingHeader "record_type".toList)) := by
  obtain ⟨first, head, missing⟩ := h
  obtain ⟨data, shape⟩ := head?_eq_some_iff.mp head
  rw [parseIpamImportRows, shape]
  exact if_neg missing

/-- Without rows there are no entries, whatever the headers. -/
lemma parseIpamImportRows_present (h : ¬ MissingHeader m rows) (ctx : ParseContext) :
    ∃ headers, parseIpamImportRows m rows ctx =
      parseEntries m headers ctx ((dataRows rows).map (importEntry m headers)) := by
  rw [parseIpamImportRows, dataRows]
  cases shape : nonEmptyRows rows with
  | nil => exact ⟨[], rfl⟩
  | cons first data =>
    have present : "record_type".toList ∈ readHeaders m first.row := by
      by_contra missing
      exact h ⟨first, by rw [shape]; rfl, missing⟩
    exact ⟨readHeaders m first.row, if_pos present⟩

/-- The preview has one row for each data row, in the order of the file. -/
lemma preview_rowNumbers (h : ¬ MissingHeader m rows) (ctx : ParseContext) :
    (parseIpamImportRows m rows ctx).rows.map IpamImportPreviewRow.rowNumber =
      (dataRows rows).map (·.rowNumber) := by
  obtain ⟨headers, shape⟩ := parseIpamImportRows_present h ctx
  have numbers : ((dataRows rows).map (importEntry m headers)).map (·.rowNumber) =
      (dataRows rows).map (·.rowNumber) := by
    rw [map_map]
    rfl
  rw [shape, parseEntries_rowNumbers, numbers]
  rw [numbers]
  exact dataRows_ascending rows

lemma preview_total (m : CaseMap) (rows : List (List (List Char))) (ctx : ParseContext) :
    let parsed := parseIpamImportRows m rows ctx
    parsed.ready + parsed.skipped + parsed.errors = parsed.rows.length := by
  by_cases missing : MissingHeader m rows
  · rw [parseIpamImportRows_missing missing]
    rfl
  · obtain ⟨headers, shape⟩ := parseIpamImportRows_present missing ctx
    rw [shape]
    exact summarize_total _ _ _

lemma preview_ready (m : CaseMap) (rows : List (List (List Char))) (ctx : ParseContext)
    (kind : IpamImportRowKind) :
    (parseIpamImportRows m rows ctx).rows.countP (IsReady kind) =
      (parseIpamImportRows m rows ctx).batch.count kind := by
  by_cases missing : MissingHeader m rows
  · rw [parseIpamImportRows_missing missing]
    cases kind <;> rfl
  · obtain ⟨headers, shape⟩ := parseIpamImportRows_present missing ctx
    rw [shape]
    exact parseEntries_ready _ kind

lemma batch_importable (alike : CellsAlike rows) (m : CaseMap) (ctx : ParseContext) :
    Importable ctx (parseIpamImportRows m rows ctx).batch := by
  by_cases missing : MissingHeader m rows
  · rw [parseIpamImportRows_missing missing]
    exact importable_empty ctx
  · obtain ⟨headers, shape⟩ := parseIpamImportRows_present missing ctx
    rw [shape]
    apply parseEntries_importable
    intro e member
    obtain ⟨r, data, rfl⟩ := mem_map.mp member
    exact alike r.row (row_mem_of_nonEmptyRows (mem_of_mem_tail data))

end File

end Ipam
