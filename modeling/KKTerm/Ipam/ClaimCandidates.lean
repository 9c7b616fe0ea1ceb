import KKTerm.Ipam.Import

/-!
# Claim candidates

Connections and hosts named by a literal address are offered for the default routing table.
What is documented and what was offered before are compared as texts, so two spellings of an
address are two addresses.
-/

namespace Ipam

open JsText List

structure ClaimConnection where
  id : List Char
  name : List Char
  host : List Char

structure ClaimHost where
  id : List Char
  siteId : List Char
  hostname : List Char
  label : List Char
  connectionIds : List (List Char)

inductive ClaimOrigin where
  | connection
  | host
  deriving DecidableEq

structure ClaimCandidate where
  address : List Char
  label : List Char
  origin : ClaimOrigin
  connectionId : Option (List Char)
  siteId : Option (List Char)
  hostId : Option (List Char)
  deriving DecidableEq

/-- The spellings of the default routing table. -/
def takenAddresses (existing : List IpAddressRecord) : List (List Char) :=
  (existing.filter (fun record => (trim record.vrf).isEmpty)).map (·.address)

/-- An offer holds its text as it was found. What was seen are the addresses so far. -/
def offer (taken : List (List Char)) (candidates : List ClaimCandidate) (raw : ClaimCandidate) :
    List ClaimCandidate :=
  let address := trim raw.address
  if parseIpv4 address = none ∨ address ∈ taken ∨ address ∈ candidates.map (·.address) then
    candidates
  else candidates ++ [{ raw with address }]

def offers (connections : List ClaimConnection) (hosts : List ClaimHost) : List ClaimCandidate :=
  connections.map (fun connection =>
    { address := connection.host, label := connection.name, origin := .connection
      connectionId := some connection.id, siteId := none, hostId := none }) ++
  hosts.map (fun host =>
    { address := host.hostname
      label := if (trim host.label).isEmpty then host.hostname else trim host.label
      origin := .host, connectionId := host.connectionIds.head?, siteId := some host.siteId
      hostId := some host.id })

def collectClaimCandidates (connections : List ClaimConnection) (hosts : List ClaimHost)
    (existing : List IpAddressRecord) : List ClaimCandidate :=
  ((offers connections hosts).foldl (offer (takenAddresses existing)) []).mergeSort
    (fun left right => (parseIpv4 left.address).getD 0 ≤ (parseIpv4 right.address).getD 0)

section
variable (connections : List ClaimConnection) (hosts : List ClaimHost)
  (existing : List IpAddressRecord)

/-- The texts that a connection or a host is named by. -/
def claimNames : List (List Char) :=
  connections.map (·.host) ++ hosts.map (·.hostname)

/-- Some row of the default routing table documents the address. -/
def DocumentedByDefault (value : UInt32) : Prop :=
  ∃ record ∈ existing, trim record.vrf = [] ∧ parseIpv4 record.address = some value

structure NewAndDistinct (candidates : List ClaimCandidate) : Prop where
  distinct : (candidates.map fun candidate => parseIpv4 candidate.address).Nodup
  new : ∀ candidate ∈ candidates, ∀ value, parseIpv4 candidate.address = some value →
    ¬ DocumentedByDefault existing value
  complete : ∀ name ∈ claimNames connections hosts, ∀ value, parseIpv4 name = some value →
    ¬ DocumentedByDefault existing value →
      (candidates.map fun candidate => parseIpv4 candidate.address).count (some value) = 1

/-- A name whose spelling is not documented has no documented spelling, and no other spelling
among such names. -/
def OneSpelling : Prop :=
  ∀ name ∈ claimNames connections hosts, trim name ∉ takenAddresses existing →
    ∀ value, parseIpv4 name = some value → ¬ DocumentedByDefault existing value ∧
      ∀ other ∈ claimNames connections hosts, trim other ∉ takenAddresses existing →
        parseIpv4 other = some value → trim other = trim name

lemma parseIpv4_trim (text : List Char) : parseIpv4 (trim text) = parseIpv4 text := by
  rw [parseIpv4, trim_trim, parseIpv4]

/-- The candidates are the offered spellings of addresses that are not documented so. -/
lemma foldl_offer (taken : List (List Char)) (raws : List ClaimCandidate) :
    ((raws.foldl (offer taken) []).map (·.address)).Nodup ∧
      ∀ t, t ∈ (raws.foldl (offer taken) []).map (·.address) ↔
        t ∈ raws.map (fun raw => trim raw.address) ∧ parseIpv4 t ≠ none ∧ t ∉ taken := by
  induction raws using reverseRecOn with
  | nil => exact ⟨nodup_nil, fun t => iff_of_false not_mem_nil fun h => not_mem_nil h.1⟩
  | append_singleton raws raw ih =>
    rw [foldl_concat, offer]
    split
    · rename_i refused
      refine ⟨ih.1, fun t => ?_⟩
      rw [ih.2, map_append, mem_append, map_singleton, mem_singleton]
      constructor
      · rintro ⟨old, fresh⟩
        exact ⟨.inl old, fresh⟩
      · rintro ⟨old | rfl, valid, undocumented⟩
        · exact ⟨old, valid, undocumented⟩
        · exact (ih.2 _).mp ((refused.resolve_left valid).resolve_left undocumented)
    · rename_i accepted
      obtain ⟨valid, undocumented, unseen⟩ := by simpa only [not_or] using accepted
      rw [map_append, map_singleton]
      refine ⟨nodup_append.mpr ⟨ih.1, nodup_singleton _, ?_⟩, fun t => ?_⟩
      · rintro t old other member rfl
        obtain rfl := mem_singleton.mp member
        exact unseen old
      · rw [mem_append, ih.2, map_append, mem_append, map_singleton, mem_singleton]
        constructor
        · rintro (⟨old, fresh⟩ | rfl)
          · exact ⟨.inl old, fresh⟩
          · exact ⟨.inr rfl, valid, undocumented⟩
        · rintro ⟨old | rfl, fresh⟩
          · exact .inl ⟨old, fresh⟩
          · exact .inr rfl

lemma offers_addresses : (offers connections hosts).map (fun raw => trim raw.address) =
    (claimNames connections hosts).map trim := by
  simp [offers, claimNames, Function.comp_def]

lemma candidates_nodup :
    ((collectClaimCandidates connections hosts existing).map (·.address)).Nodup :=
  ((mergeSort_perm _ _).map _).nodup_iff.mpr (foldl_offer _ _).1

lemma mem_candidates (t : List Char) :
    t ∈ (collectClaimCandidates connections hosts existing).map (·.address) ↔
      (∃ name ∈ claimNames connections hosts, trim name = t) ∧ parseIpv4 t ≠ none ∧
        t ∉ takenAddresses existing := by
  rw [collectClaimCandidates, ((mergeSort_perm _ _).map _).mem_iff, (foldl_offer _ _).2,
    offers_addresses, mem_map]

lemma documentedByDefault_of_taken {t : List Char} {value : UInt32}
    (taken : t ∈ takenAddresses existing) (parsed : parseIpv4 t = some value) :
    DocumentedByDefault existing value := by
  obtain ⟨record, member, rfl⟩ := mem_map.mp taken
  obtain ⟨member, blank⟩ := mem_filter.mp member
  exact ⟨record, member, isEmpty_iff.mp blank, parsed⟩

/-- The candidates are new and distinct exactly when the spellings agree. -/
theorem collectClaimCandidates_iff :
    NewAndDistinct connections hosts existing (collectClaimCandidates connections hosts existing) ↔
      OneSpelling connections hosts existing := by
  have texts := mem_candidates connections hosts existing
  have values : (collectClaimCandidates connections hosts existing).map
      (fun candidate => parseIpv4 candidate.address) =
        ((collectClaimCandidates connections hosts existing).map (·.address)).map parseIpv4 := by
    rw [map_map]
    rfl
  constructor
  · intro good name member undocumented value parsed
    have listed : ∀ other ∈ claimNames connections hosts, trim other ∉ takenAddresses existing →
        parseIpv4 other = some value →
          trim other ∈ (collectClaimCandidates connections hosts existing).map (·.address) := by
      intro other member undocumented parsed
      rw [texts, parseIpv4_trim, parsed]
      exact ⟨⟨other, member, rfl⟩, Option.some_ne_none value, undocumented⟩
    have here := listed name member undocumented parsed
    constructor
    · obtain ⟨candidate, found, same⟩ := mem_map.mp here
      exact good.new candidate found value (by rw [same, parseIpv4_trim, parsed])
    · intro other member' undocumented' parsed'
      refine inj_on_of_nodup_map (values ▸ good.distinct) (listed other member' undocumented' parsed')
        here ?_
      rw [parseIpv4_trim, parseIpv4_trim, parsed, parsed']
  · intro one
    have distinct : (collectClaimCandidates connections hosts existing |>.map
        fun candidate => parseIpv4 candidate.address).Nodup := by
      rw [values]
      refine (candidates_nodup connections hosts existing).map_on ?_
      intro t ht t' ht' same
      obtain ⟨⟨name, member, rfl⟩, valid, undocumented⟩ := (texts t).mp ht
      obtain ⟨⟨other, member', rfl⟩, -, undocumented'⟩ := (texts t').mp ht'
      obtain ⟨value, parsed⟩ := Option.ne_none_iff_exists'.mp valid
      rw [parsed, parseIpv4_trim] at same
      rw [parseIpv4_trim] at parsed
      exact ((one name member undocumented value parsed).2 other member' undocumented'
        same.symm).symm
    refine ⟨distinct, ?_, ?_⟩
    · intro candidate found value parsed
      obtain ⟨⟨name, member, same⟩, -, undocumented⟩ := (texts _).mp (mem_map_of_mem found)
      rw [← same] at undocumented
      rw [← same, parseIpv4_trim] at parsed
      exact (one name member undocumented value parsed).1
    · intro name member value parsed new
      have listed := (texts (trim name)).mpr ⟨⟨name, member, rfl⟩,
        by rw [parseIpv4_trim, parsed]; exact Option.some_ne_none value, fun taken =>
          new (documentedByDefault_of_taken existing taken (by rw [parseIpv4_trim, parsed]))⟩
      obtain ⟨candidate, found, same⟩ := mem_map.mp listed
      have value_listed := mem_map_of_mem (f := fun candidate => parseIpv4 candidate.address) found
      rw [same, parseIpv4_trim, parsed] at value_listed
      exact count_eq_one_of_mem distinct value_listed

end

/-- A zero before an octet makes another text of the same address. -/
theorem two_spellings :
    ¬ NewAndDistinct
      [⟨['a'], ['a'], "10.0.0.1".toList⟩, ⟨['b'], ['b'], "10.0.0.01".toList⟩] [] []
      (collectClaimCandidates
        [⟨['a'], ['a'], "10.0.0.1".toList⟩, ⟨['b'], ['b'], "10.0.0.01".toList⟩] [] []) := by
  intro good
  have distinct := ((mergeSort_perm _ _).map _).nodup_iff.mp good.distinct
  exact absurd distinct (by decide +kernel)

end Ipam
