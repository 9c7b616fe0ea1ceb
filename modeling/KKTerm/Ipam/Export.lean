import KKTerm.Ipam.ImportPreview
import KKTerm.Library.Delimited

/-!
# Export to the import columns

The stored records are written into the columns of the import, VLANs first, then
prefixes, then addresses. References are written by name or number: a site by its
name, the VLAN of a prefix by its number.
-/

namespace Ipam

open Delimited JsText

structure IpamExportSource where
  prefixes : List IpamPrefixNode
  addresses : List IpAddressRecord
  sites : List Site
  vlans : List Vlan

/-- Of two sites of one id the last is found. -/
def siteName (sites : List Site) (siteId : Option (List Char)) : List Char :=
  ((sites.reverse.find? (fun site => site.id = siteId.getD [])).map Site.name).getD []

/-- An empty id is no reference. -/
def vlanCell (vlans : List Vlan) (vlanId : Option (List Char)) : List Char :=
  match vlanId.filter (fun id => id ≠ []) with
  | some id => ((vlans.reverse.find? (fun vlan => vlan.id = id)).map
      (fun vlan => Nat.toDigits 10 vlan.vid)).getD []
  | none => []

def vlanRow (sites : List Site) (vlan : Vlan) : List (List Char) :=
  ["vlan".toList, [], [], [], [], [], [], [], [], Nat.toDigits 10 vlan.vid, vlan.name,
    siteName sites vlan.siteId, vlan.description, Nat.toDigits 10 vlan.accent]

def prefixRow (sites : List Site) (vlans : List Vlan) (p : IpPrefix) : List (List Char) :=
  ["prefix".toList, p.cidr, [], p.vrf, p.role, p.status.text, [], [], [], vlanCell vlans p.vlanId,
    [], siteName sites p.siteId, p.description, []]

def addressRow (sites : List Site) (address : IpAddressRecord) : List (List Char) :=
  ["address".toList, [], address.address, address.vrf, [], address.status.text, address.dnsName,
    (address.deviceType.map IpamDeviceType.text).getD [], address.deviceModel, [], [],
    if address.siteInherited then [] else siteName sites address.siteId, address.description, []]

def exportedRows (src : IpamExportSource) : List (List (List Char)) :=
  src.vlans.map (vlanRow src.sites) ++
    src.prefixes.map (fun node => prefixRow src.sites src.vlans node.row) ++
    src.addresses.map (addressRow src.sites)

def buildIpamExportRows (src : IpamExportSource) : List (List (List Char)) :=
  ipamImportHeaders :: exportedRows src

def escapeDelimitedCell (value : List Char) (delimiter : Char) : List Char :=
  escape delimiter value

/-- The text begins with a byte order mark. -/
def ipamDelimitedText (rows : List (List (List Char))) (delimiter : Char) : List Char :=
  let body := lineBreak.intercalate (rows.map (fun row =>
    [delimiter].intercalate (row.map (fun cell => escapeDelimitedCell cell delimiter))))
  byteOrderMark :: (body ++ lineBreak)

def ipamDelimitedBytes (rows : List (List (List Char))) (delimiter : Char) : ByteArray :=
  (String.ofList (ipamDelimitedText rows delimiter)).toByteArray

/-- A reader of delimited files, which may drop the byte order mark or keep it. -/
def readDelimited (dropMark : Bool) (delimiter : Char) (bytes : ByteArray) :
    Option (List (List (List Char))) :=
  bytes.utf8Decode?.bind (fun text =>
    read delimiter (if dropMark then stripMark text.toList else text.toList))

/-- A reference to a site that is gone is dropped. -/
def keptSite (sites : List Site) (siteId : Option (List Char)) : Option (List Char) :=
  siteId.filter (fun id => sites.any (fun site => site.id = id))

def exportedVlan (sites : List Site) (vlan : Vlan) : IpamImportVlanInput where
  vid := vlan.vid
  name := vlan.name
  description := vlan.description
  siteId := keptSite sites vlan.siteId
  accent := vlan.accent

def exportedPrefix (sites : List Site) (vlans : List Vlan) (p : IpPrefix) : IpamImportPrefixInput where
  cidr := p.cidr
  vrf := p.vrf
  role := p.role
  status := p.status
  description := p.description
  siteId := keptSite sites p.siteId
  vlanVid := p.vlanId.bind (fun id => (vlans.find? (fun vlan => vlan.id = id)).map Vlan.vid)

def exportedAddress (sites : List Site) (address : IpAddressRecord) : IpamImportAddressInput where
  address := address.address
  vrf := address.vrf
  status := address.status
  dnsName := address.dnsName
  deviceType := address.deviceType
  deviceModel := address.deviceModel
  description := address.description
  siteId := if address.siteInherited then none else keptSite sites address.siteId

def exportedBatch (src : IpamExportSource) : IpamImportBatch where
  vlans := src.vlans.map (exportedVlan src.sites)
  prefixes := src.prefixes.map (fun node => exportedPrefix src.sites src.vlans node.row)
  addresses := src.addresses.map (exportedAddress src.sites)

/-- The records are as the backend stores them, with the texts trimmed by the given function. -/
structure Storable (trim : List Char → List Char) (m : CaseMap) (src : IpamExportSource) :
    Prop where
  vlanTexts : ∀ v ∈ src.vlans, trim v.name = v.name ∧ trim v.description = v.description
  prefixTexts : ∀ n ∈ src.prefixes, trim n.row.vrf = n.row.vrf ∧ trim n.row.role = n.row.role ∧
    trim n.row.description = n.row.description
  addressTexts : ∀ r ∈ src.addresses, trim r.vrf = r.vrf ∧ trim r.dnsName = r.dnsName ∧
    trim r.deviceModel = r.deviceModel ∧ trim r.description = r.description
  vids : ∀ v ∈ src.vlans, 1 ≤ v.vid ∧ v.vid ≤ 4094
  accents : ∀ v ∈ src.vlans, v.accent ≤ 255
  vidsNodup : (src.vlans.map Vlan.vid).Nodup
  vlanIds : ∀ v ∈ src.vlans, v.id ≠ []
  vlanIdsNodup : (src.vlans.map Vlan.id).Nodup
  cidrs : ∀ n ∈ src.prefixes, ∃ p : Prefix, n.row.cidr = p.toCidr
  prefixesNodup : (src.prefixes.map (fun n => (n.row.vrf, n.row.cidr))).Nodup
  addresses : ∀ r ∈ src.addresses, ∃ value, r.address = formatAddress value
  addressesNodup : (src.addresses.map (fun r => (r.vrf, r.address))).Nodup
  siteIds : ∀ site ∈ src.sites, site.id ≠ []
  siteIdsNodup : (src.sites.map Site.id).Nodup
  siteNames : ∀ site ∈ src.sites, JsText.trim site.name ≠ []
  siteNamesNodup : (src.sites.map (fun site => m.toLowerCase (JsText.trim site.name))).Nodup

/-- The context of an install with the same sites and no records. -/
def importContext (src : IpamExportSource) : ParseContext where
  sites := src.sites
  vlans := []
  prefixes := []
  addresses := []

/-- The rows are previewed without errors and skips, and the batch is that of the records. -/
def Recovers (m : CaseMap) (src : IpamExportSource) (rows : List (List (List Char))) : Prop :=
  let parsed := parseIpamImportRows m rows (importContext src)
  parsed.errors = 0 ∧ parsed.skipped = 0 ∧ parsed.batch = exportedBatch src

end Ipam
