import KKTerm.Ipam.PrefixTree
import KKTerm.Library.Admission
import KKTerm.Library.Fallible

/-!
# Preview of an import file

The rows of a file become one batch of records to create. The three kinds are
read one after another, VLANs first, since a prefix may name a VLAN that stands
below it. Rows that are skipped or malformed stay out of the batch.
-/

namespace Ipam

open Fallible Admission JsText

structure Site where
  id : List Char
  name : List Char
  deriving DecidableEq

structure Vlan where
  id : List Char
  vid : Nat
  name : List Char := []
  description : List Char := []
  siteId : Option (List Char) := none
  accent : Nat := 0
  deriving DecidableEq

structure IpamImportVlanInput where
  vid : Nat
  name : List Char
  description : List Char
  siteId : Option (List Char)
  accent : Nat
  deriving DecidableEq

structure IpamImportPrefixInput where
  cidr : List Char
  vrf : List Char
  role : List Char
  status : PrefixStatus
  description : List Char
  siteId : Option (List Char)
  vlanVid : Option Nat
  deriving DecidableEq

structure IpamImportAddressInput where
  address : List Char
  vrf : List Char
  status : AddressStatus
  dnsName : List Char
  deviceType : Option IpamDeviceType
  deviceModel : List Char
  description : List Char
  siteId : Option (List Char)
  deriving DecidableEq

structure IpamImportBatch where
  vlans : List IpamImportVlanInput := []
  prefixes : List IpamImportPrefixInput := []
  addresses : List IpamImportAddressInput := []
  deriving DecidableEq

def ipamImportHeaders : List (List Char) :=
  ["record_type", "cidr", "address", "vrf", "role", "status", "hostname", "device_type",
    "device_model", "vlan_id", "name", "site", "description", "accent"].map String.toList

inductive IpamImportRowKind where
  | vlan
  | ipPrefix
  | address
  deriving DecidableEq

inductive IpamImportRowState where
  | ready
  | skipped
  | error
  deriving DecidableEq

/-- The code of an issue with the values of its text. -/
inductive IpamImportIssue where
  | missingHeader (field : List Char)
  | unsupportedType (type : List Char)
  | requiredField (field : List Char) (type : IpamImportRowKind)
  | invalidField (field value : List Char)
  | unknownSite (site : List Char)
  | ambiguousSite (site : List Char)
  | unknownVlan (vid : Nat)
  | duplicateFile (type : List Char)
  | existingRecord
  deriving DecidableEq

structure IpamImportPreviewRow where
  rowNumber : Nat
  kind : Option IpamImportRowKind
  label : List Char
  state : IpamImportRowState
  issue : Option IpamImportIssue
  deriving DecidableEq

structure ParsedIpamImport where
  batch : IpamImportBatch
  rows : List IpamImportPreviewRow
  fileIssue : Option IpamImportIssue
  ready : Nat
  skipped : Nat
  errors : Nat
  deriving DecidableEq

structure ParseContext where
  sites : List Site
  vlans : List Vlan
  prefixes : List IpamPrefixNode
  addresses : List IpAddressRecord

def PrefixStatus.text : PrefixStatus → List Char
  | .container => "container".toList
  | .active => "active".toList
  | .reserved => "reserved".toList
  | .deprecated => "deprecated".toList

def AddressStatus.text : AddressStatus → List Char
  | .active => "active".toList
  | .reserved => "reserved".toList
  | .deprecated => "deprecated".toList

def IpamDeviceType.text : IpamDeviceType → List Char
  | .router => "router".toList
  | .switch => "switch".toList
  | .firewall => "firewall".toList
  | .server => "server".toList
  | .storage => "storage".toList
  | .accessPoint => "accessPoint".toList
  | .desktop => "desktop".toList
  | .printer => "printer".toList
  | .camera => "camera".toList
  | .voip => "voip".toList
  | .iot => "iot".toList

def prefixStatuses : List PrefixStatus :=
  [.container, .active, .reserved, .deprecated]

def addressStatuses : List AddressStatus :=
  [.active, .reserved, .deprecated]

def deviceTypes : List IpamDeviceType :=
  [.router, .switch, .firewall, .server, .storage, .accessPoint, .desktop, .printer, .camera,
    .voip, .iot]

/-- Digits only; a number of any length. -/
def strictInteger (value : List Char) : Option Nat :=
  Text.digits value

def parseIpv4 (text : List Char) : Option UInt32 :=
  let parts := Text.split '.' (trim text)
  if parts.length = 4 then
    parts.foldlM (fun value part =>
      if part.length ≤ 3 then
        ((Text.digits part).filter (fun octet => octet ≤ 255)).map
          (fun octet => value * 256 + UInt32.ofNat octet)
      else none) 0
  else none

def formatIpv4 (value : UInt32) : List Char :=
  ['.'].intercalate
    (([24, 16, 8, 0] : List UInt32).map
      (fun shift => Nat.toDigits 10 ((value >>> shift) &&& 0xff).toNat))

structure CidrPreview where
  cidr : List Char
  network : List Char
  broadcast : List Char
  firstUsable : List Char
  lastUsable : List Char
  usable : Nat

/-- One or two digits. -/
def previewLength (lengthText : List Char) : Option Nat :=
  if lengthText.length ≤ 2 then (Text.digits lengthText).filter (fun length => length ≤ 32) else none

def previewCidr (text : List Char) : Option CidrPreview :=
  match Text.split '/' (trim text) with
  | [addressText, lengthText] => do
    let length ← previewLength lengthText
    let address ← parseIpv4 addressText
    let mask : UInt32 := if length = 0 then 0 else 0xffffffff <<< UInt32.ofNat (32 - length)
    let network := address &&& mask
    let broadcast := network ||| ~~~ mask
    let size := 2 ^ (32 - length)
    return {
      cidr := formatIpv4 network ++ '/' :: Nat.toDigits 10 length
      network := formatIpv4 network
      broadcast := formatIpv4 broadcast
      firstUsable := formatIpv4 (if 31 ≤ length then network else network + 1)
      lastUsable := formatIpv4 (if 31 ≤ length then broadcast else broadcast - 1)
      usable := if 31 ≤ length then size else size - 2 }
  | _ => none

structure ImportRow where
  row : List (List Char)
  rowNumber : Nat

structure ImportEntry extends ImportRow where
  type : List Char

def nonEmptyRows (rows : List (List (List Char))) : List ImportRow :=
  (rows.zipIdx.map (fun (row, index) => { row, rowNumber := index + 1 })).filter
    (fun r => r.row.any (fun cell => trim cell ≠ []))

def readHeaders (m : CaseMap) (row : List (List Char)) : List (List Char) :=
  row.map (fun value => m.toLowerCase (trim (stripMark value)))

/-- Of two columns of one name the last is read. -/
def column (headers : List (List Char)) (name : List Char) : Option Nat :=
  (List.range headers.length).foldl (Loops.keepLast (fun index => headers[index]? = some name)) none

def valueAt (headers row : List (List Char)) (name : String) : List Char :=
  trim (((column headers name.toList).bind (row[·]?)).getD [])

def issue (rowNumber : Nat) (kind : Option IpamImportRowKind) (label : List Char)
    (what : IpamImportIssue) (state : IpamImportRowState := .error) : IpamImportPreviewRow where
  rowNumber := rowNumber
  kind := kind
  label := label
  state := state
  issue := some what

def required (rowNumber : Nat) (kind : IpamImportRowKind) (field : String) : IpamImportPreviewRow :=
  issue rowNumber (some kind) [] (.requiredField field.toList kind)

def resolveSite (m : CaseMap) (sites : List Site) (rowNumber : Nat) (kind : IpamImportRowKind)
    (label raw : List Char) : Except IpamImportPreviewRow (Option (List Char)) :=
  if raw = [] then .ok none
  else
    match sites.filter (fun site =>
        m.toLowerCase (trim site.name) = m.toLowerCase raw) with
    | [] => .error (issue rowNumber (some kind) label (.unknownSite raw))
    | [site] => .ok (some site.id)
    | _ => .error (issue rowNumber (some kind) label (.ambiguousSite raw))

def vlanId (value : List Char) : Option Nat :=
  (strictInteger value).filter (fun vid => 1 ≤ vid ∧ vid ≤ 4094)

def vlanLabel (vid : Nat) : List Char :=
  "VLAN ".toList ++ Nat.toDigits 10 vid

/-- The separator cannot occur in an address. -/
def vrfKey (vrf address : List Char) : List Char :=
  vrf ++ '\x00' :: address

/-- The row of a record that could be read. -/
def note {ι : Type} (kind : IpamImportRowKind) (label : ι → List Char) (type : String)
    (entry : ImportEntry) (input : ι) : Verdict → IpamImportPreviewRow
  | .duplicate => issue entry.rowNumber (some kind) (label input) (.duplicateFile type.toList) .skipped
  | .existing => issue entry.rowNumber (some kind) (label input) .existingRecord .skipped
  | .accepted =>
    { rowNumber := entry.rowNumber, kind := some kind, label := label input, state := .ready
      issue := none }

section Kinds
variable (m : JsText.CaseMap) (headers : List (List Char)) (ctx : ParseContext)

def readVlan (entry : ImportEntry) : Except IpamImportPreviewRow IpamImportVlanInput := do
  let rawVid := valueAt headers entry.row "vlan_id"
  reject (rawVid = []) (required entry.rowNumber .vlan "vlan_id")
  let vid ← require (vlanId rawVid)
    (issue entry.rowNumber (some .vlan) rawVid (.invalidField "vlan_id".toList rawVid))
  let label := vlanLabel vid
  let siteId ← resolveSite m ctx.sites entry.rowNumber .vlan label (valueAt headers entry.row "site")
  let rawAccent := valueAt headers entry.row "accent"
  let accent ← require
    ((if rawAccent = [] then some 0 else strictInteger rawAccent).filter (fun accent => accent ≤ 255))
    (issue entry.rowNumber (some .vlan) label (.invalidField "accent".toList rawAccent))
  return {
    vid
    name := valueAt headers entry.row "name"
    description := valueAt headers entry.row "description"
    siteId
    accent }

def vlanPolicy : Policy ImportEntry Nat IpamImportVlanInput IpamImportPreviewRow where
  read := readVlan m headers ctx
  key := IpamImportVlanInput.vid
  taken vid := ctx.vlans.any (fun vlan => vlan.vid = vid)
  note := note .vlan (fun input => vlanLabel input.vid) "VLAN"

def readVlanVid (availableVids : List Nat) (entry : ImportEntry) (cidr rawVid : List Char) :
    Except IpamImportPreviewRow (Option Nat) :=
  if rawVid = [] then .ok none
  else do
    let vid ← require (vlanId rawVid)
      (issue entry.rowNumber (some .ipPrefix) cidr (.invalidField "vlan_id".toList rawVid))
    reject (vid ∉ availableVids) (issue entry.rowNumber (some .ipPrefix) cidr (.unknownVlan vid))
    return some vid

/-- The status column of a row, by default the text of an active record. -/
def statusText (entry : ImportEntry) : List Char :=
  let status := valueAt headers entry.row "status"
  if status = [] then "active".toList else status

def readPrefix (availableVids : List Nat) (entry : ImportEntry) :
    Except IpamImportPreviewRow IpamImportPrefixInput := do
  let rawCidr := valueAt headers entry.row "cidr"
  reject (rawCidr = []) (required entry.rowNumber .ipPrefix "cidr")
  let preview ← require (previewCidr rawCidr)
    (issue entry.rowNumber (some .ipPrefix) rawCidr (.invalidField "cidr".toList rawCidr))
  let cidr := preview.cidr
  let status ← require (prefixStatuses.find? (fun status => status.text = statusText headers entry))
    (issue entry.rowNumber (some .ipPrefix) cidr
      (.invalidField "status".toList (statusText headers entry)))
  let vlanVid ← readVlanVid availableVids entry cidr (valueAt headers entry.row "vlan_id")
  let siteId ← resolveSite m ctx.sites entry.rowNumber .ipPrefix cidr
    (valueAt headers entry.row "site")
  return {
    cidr
    vrf := valueAt headers entry.row "vrf"
    role := valueAt headers entry.row "role"
    status
    description := valueAt headers entry.row "description"
    siteId
    vlanVid }

def prefixPolicy (availableVids : List Nat) :
    Policy ImportEntry (List Char) IpamImportPrefixInput IpamImportPreviewRow where
  read := readPrefix m headers ctx availableVids
  key input := vrfKey input.vrf input.cidr
  taken key := ctx.prefixes.any (fun node => vrfKey (trim node.row.vrf) node.row.cidr = key)
  note := note .ipPrefix IpamImportPrefixInput.cidr "IP Prefix"

/-- The lowered texts of the device types are different. -/
def readDeviceType (entry : ImportEntry) (address rawDeviceType : List Char) :
    Except IpamImportPreviewRow (Option IpamDeviceType) :=
  if rawDeviceType = [] then .ok none
  else
    (require (deviceTypes.find? (fun type =>
        m.toLowerCase type.text = m.toLowerCase rawDeviceType))
      (issue entry.rowNumber (some .address) address
        (.invalidField "device_type".toList rawDeviceType))).map some

def readAddress (entry : ImportEntry) : Except IpamImportPreviewRow IpamImportAddressInput := do
  let rawAddress := valueAt headers entry.row "address"
  reject (rawAddress = []) (required entry.rowNumber .address "address")
  let addressValue ← require (parseIpv4 rawAddress)
    (issue entry.rowNumber (some .address) rawAddress (.invalidField "address".toList rawAddress))
  let address := formatIpv4 addressValue
  let status ← require (addressStatuses.find? (fun status => status.text = statusText headers entry))
    (issue entry.rowNumber (some .address) address
      (.invalidField "status".toList (statusText headers entry)))
  let deviceType ← readDeviceType m entry address (valueAt headers entry.row "device_type")
  let siteId ← resolveSite m ctx.sites entry.rowNumber .address address
    (valueAt headers entry.row "site")
  return {
    address
    vrf := valueAt headers entry.row "vrf"
    status
    dnsName := valueAt headers entry.row "hostname"
    deviceType
    deviceModel := valueAt headers entry.row "device_model"
    description := valueAt headers entry.row "description"
    siteId }

def addressPolicy : Policy ImportEntry (List Char) IpamImportAddressInput IpamImportPreviewRow where
  read := readAddress m headers ctx
  key input := vrfKey input.vrf input.address
  taken key := ctx.addresses.any (fun record => vrfKey (trim record.vrf) record.address = key)
  note := note .address IpamImportAddressInput.address "Address"

end Kinds

def unsupported (entry : ImportEntry) : IpamImportPreviewRow :=
  let type := if entry.type = [] then "—".toList else entry.type
  issue entry.rowNumber none type (.unsupportedType type)

def recordTypes : List (List Char) :=
  ["vlan", "prefix", "address"].map String.toList

def ofType (type : String) (entries : List ImportEntry) : List ImportEntry :=
  entries.filter (fun entry => entry.type = type.toList)

def summarize (batch : IpamImportBatch) (rows : List IpamImportPreviewRow)
    (fileIssue : Option IpamImportIssue) : ParsedIpamImport where
  batch := batch
  rows := rows
  fileIssue := fileIssue
  ready := rows.countP (fun row => row.state = .ready)
  skipped := rows.countP (fun row => row.state = .skipped)
  errors := rows.countP (fun row => row.state = .error)

/-- The VLANs that a prefix may name: the stored ones and all that the file spells correctly. -/
def availableVids (ctx : ParseContext) (vlans : Progress Nat IpamImportVlanInput IpamImportPreviewRow) :
    List Nat :=
  ctx.vlans.map Vlan.vid ++ vlans.seen

def parseEntries (m : CaseMap) (headers : List (List Char)) (ctx : ParseContext)
    (entries : List ImportEntry) : ParsedIpamImport :=
  let vlans := (vlanPolicy m headers ctx).run (ofType "vlan" entries)
  let prefixes := (prefixPolicy m headers ctx (availableVids ctx vlans)).run (ofType "prefix" entries)
  let addresses := (addressPolicy m headers ctx).run (ofType "address" entries)
  let others := (entries.filter (fun entry => entry.type ∉ recordTypes)).map unsupported
  summarize
    { vlans := vlans.accepted, prefixes := prefixes.accepted, addresses := addresses.accepted }
    ((vlans.log ++ prefixes.log ++ addresses.log ++ others).insertionSort
      (fun left right => left.rowNumber ≤ right.rowNumber))
    none

def importEntry (m : CaseMap) (headers : List (List Char)) (r : ImportRow) : ImportEntry where
  toImportRow := r
  type := m.toLowerCase (valueAt headers r.row "record_type")

def parseIpamImportRows (m : CaseMap) (rows : List (List (List Char))) (ctx : ParseContext) :
    ParsedIpamImport :=
  match nonEmptyRows rows with
  | [] => summarize {} [] none
  | first :: data =>
    let headers := readHeaders m first.row
    if "record_type".toList ∈ headers then
      parseEntries m headers ctx (data.map (importEntry m headers))
    else summarize {} [] (some (.missingHeader "record_type".toList))

end Ipam
