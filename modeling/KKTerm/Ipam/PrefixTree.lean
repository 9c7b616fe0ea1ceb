import KKTerm.Library.Blocks
import KKTerm.Library.Loops
import KKTerm.Library.Text
import Mathlib.Data.Char
import Mathlib.Data.Prod.Lex
import Mathlib.Data.UInt

/-!
# Addresses and prefixes

A prefix is an aligned block of addresses. Containment is decided by masking; it
agrees with membership in the block.
-/

namespace Ipam

open Nat hiding isDigit_of_mem_toDigits
open List Option Text

/-- One part of a dotted address: one to three digits, at most 255. -/
def parseOctet (part : List Char) : Option UInt32 :=
  if part.length ≤ 3 then
    ((Text.digits part).filter (fun value => value ≤ 255)).map UInt32.ofNat
  else none

def parseAddress (text : List Char) : Option UInt32 :=
  match (Text.split '.' (Text.trim text)).mapM parseOctet with
  | some [a, b, c, d] => some ((a <<< 24) ||| (b <<< 16) ||| (c <<< 8) ||| d)
  | _ => none

def formatOctet (value : UInt32) : List Char :=
  Nat.toDigits 10 (value &&& 0xff).toNat

def formatAddress (value : UInt32) : List Char :=
  formatOctet (value >>> 24) ++ '.' :: formatOctet (value >>> 16) ++ '.' ::
    formatOctet (value >>> 8) ++ '.' :: formatOctet value

/-- Without the case for 0 the shift would overflow. -/
def netmask (length : Nat) : UInt32 :=
  if length = 0 then 0 else 0xffffffff <<< UInt32.ofNat (32 - min length 32)

/-- A network address whose host bits are cleared, and the prefix length. -/
structure Prefix where
  network : UInt32
  length : Nat
  length_le : length ≤ 32
  aligned : network &&& netmask length = network
  deriving DecidableEq

namespace Prefix

def of (address : UInt32) (length : Nat) (length_le : length ≤ 32) : Prefix where
  network := address &&& netmask length
  length := length
  length_le := length_le
  aligned := by rw [UInt32.and_assoc, UInt32.and_self]

def parse (text : List Char) : Option Prefix := do
  let (address, length) ← Text.splitOnce '/' (Text.trim text)
  let length ← Text.parseUnsigned 255 (Text.trim length)
  if length_le : length ≤ 32 then
    let address ← parseAddress address
    return .of address length length_le
  else none

def toCidr (p : Prefix) : List Char :=
  formatAddress p.network ++ '/' :: Nat.toDigits 10 p.length

def last (p : Prefix) : UInt32 :=
  p.network ||| ~~~ netmask p.length

def size (p : Prefix) : UInt64 :=
  1 <<< UInt64.ofNat (32 - min p.length 32)

/-- Networks of two addresses and single addresses have no broadcast address. -/
def usable (p : Prefix) : UInt64 :=
  if 31 ≤ p.length then p.size else p.size - 2

def containsAddress (p : Prefix) (address : UInt32) : Bool :=
  address &&& netmask p.length == p.network

def containsPrefix (p other : Prefix) : Bool :=
  p.length ≤ other.length && p.containsAddress other.network

end Prefix

lemma testBit_netmask {length : Nat} (h : length ≤ 32) (i : Nat) :
    (netmask length).toNat.testBit i = (decide (32 - length ≤ i) && decide (i < 32)) := by
  by_cases zero : length = 0
  · subst zero
    have none : (netmask 0).toNat = 0 := rfl
    rw [none, zero_testBit]
    symm
    simp
  · have shift : (UInt32.ofNat (32 - min length 32)).toNat % 32 = 32 - length := by
      rw [UInt32.toNat_ofNat']
      omega
    rw [netmask, if_neg zero, UInt32.toNat_shiftLeft, shift, testBit_mod_two_pow, testBit_shiftLeft]
    have ones : (0xffffffff : UInt32).toNat = 2 ^ 32 - 1 := rfl
    rw [ones, testBit_two_pow_sub_one, Bool.eq_iff_iff]
    simp only [Bool.and_eq_true, decide_eq_true_eq]
    omega

lemma toNat_and_netmask {length : Nat} (h : length ≤ 32) (address : UInt32) :
    (address &&& netmask length).toNat =
      address.toNat / 2 ^ (32 - length) * 2 ^ (32 - length) := by
  apply eq_of_testBit_eq
  intro i
  rw [UInt32.toNat_and, testBit_and, testBit_netmask h, testBit_mul_two_pow, testBit_div_two_pow]
  by_cases low : 32 - length ≤ i
  · have index : i - (32 - length) + (32 - length) = i := Nat.sub_add_cancel low
    by_cases high : i < 32
    · simp [low, high]
    · have beyond : address.toNat.testBit i = false :=
        testBit_lt_two_pow (Nat.lt_of_lt_of_le address.toNat_lt
          (Nat.pow_le_pow_right (by omega) (Nat.le_of_not_lt high)))
      simp [low, beyond]
  · simp [low]

namespace Prefix

variable {p q r : Prefix} {address : UInt32}

def block (p : Prefix) : Block where
  level := 32 - p.length
  base := p.network.toNat
  aligned := by
    rw [← p.aligned, toNat_and_netmask p.length_le]
    exact Nat.dvd_mul_left _ _

lemma containsAddress_iff : p.containsAddress address = true ↔ address.toNat ∈ p.block.points := by
  rw [containsAddress, beq_iff_eq, ← UInt32.toNat_inj, toNat_and_netmask p.length_le,
    Block.mem_points]
  rfl

lemma level_le_iff : q.block.level ≤ p.block.level ↔ p.length ≤ q.length := by
  have := p.length_le
  have := q.length_le
  simp only [block]
  omega

lemma ext_block (length : p.length = q.length) (base : p.block.base = q.block.base) : p = q := by
  obtain ⟨network, n⟩ := p
  obtain ⟨network', n'⟩ := q
  cases length
  cases UInt32.toNat_inj.mp base
  rfl

lemma containsPrefix_iff : p.containsPrefix q = true ↔ q.block.points ⊆ p.block.points := by
  rw [containsPrefix, Bool.and_eq_true, decide_eq_true_eq, containsAddress_iff]
  constructor
  · rintro ⟨length, inside⟩
    exact Block.subset_of_meet (level_le_iff.mpr length) q.block.base_mem inside
  · intro inside
    exact ⟨level_le_iff.mp (Block.level_le_of_subset inside), inside q.block.base_mem⟩

lemma size_eq (p : Prefix) : p.size.toNat = p.block.size := by
  have small : 32 - min p.length 32 = 32 - p.length := by
    have := p.length_le
    omega
  rw [size, small, UInt64.toNat_shiftLeft, UInt64.toNat_ofNat']
  have bounded : 32 - p.length ≤ 32 := sub_le 32 p.length
  have shift : (32 - p.length) % 2 ^ 64 % 64 = 32 - p.length := by omega
  have inside : 2 ^ (32 - p.length) < 2 ^ 64 := Nat.pow_lt_pow_right (by omega) (by omega)
  have one : (1 : UInt64).toNat = 1 := rfl
  rw [shift, one, one_shiftLeft]
  exact mod_eq_of_lt inside

end Prefix

section Reading
variable {a b c d : List Char}

variable (value : UInt32)

lemma toNat_octet : (value &&& 0xff).toNat = value.toNat % 2 ^ 8 := by
  rw [UInt32.toNat_and]
  exact and_two_pow_sub_one_eq_mod value.toNat 8

lemma toNat_octet_lt : (value &&& 0xff).toNat < 256 := by
  rw [toNat_octet]
  omega

lemma length_formatOctet : (formatOctet value).length ≤ 3 := by
  rw [formatOctet, length_toDigits_le_iff (by decide) (by decide)]
  have := toNat_octet_lt value
  omega

lemma not_mem_formatOctet {value : UInt32} {sep : Char} (h : sep.isDigit = false) :
    sep ∉ formatOctet value :=
  not_mem_toDigits h

lemma parseOctet_formatOctet : parseOctet (formatOctet value) = some (value &&& 0xff) := by
  have small : (value &&& 0xff).toNat ≤ 255 := le_of_lt_succ (toNat_octet_lt value)
  rw [parseOctet, if_pos (length_formatOctet value), formatOctet, digits_toDigits,
    filter_some, if_pos (decide_eq_true small), map_some, UInt32.ofNat_toNat]

lemma split_dotted (ha : '.' ∉ a) (hb : '.' ∉ b) (hc : '.' ∉ c) (hd : '.' ∉ d) :
    split '.' (a ++ '.' :: b ++ '.' :: c ++ '.' :: d) = [a, b, c, d] := by
  simp only [append_assoc, cons_append]
  rw [split_append ha, split_append hb, split_append hc, split_of_not_mem hd]

lemma split_formatAddress :
    split '.' (formatAddress value) =
      [formatOctet (value >>> 24), formatOctet (value >>> 16), formatOctet (value >>> 8),
        formatOctet value] :=
  split_dotted (not_mem_formatOctet rfl) (not_mem_formatOctet rfl) (not_mem_formatOctet rfl)
    (not_mem_formatOctet rfl)

lemma mem_formatAddress {value : UInt32} {c : Char} (h : c ∈ formatAddress value) :
    c = '.' ∨ c.isDigit = true := by
  simp only [formatAddress, formatOctet, mem_append, mem_cons] at h
  rcases h with ((h | rfl | h) | rfl | h) | rfl | h
  · exact .inr (isDigit_of_mem_toDigits h)
  · exact .inl rfl
  · exact .inr (isDigit_of_mem_toDigits h)
  · exact .inl rfl
  · exact .inr (isDigit_of_mem_toDigits h)
  · exact .inl rfl
  · exact .inr (isDigit_of_mem_toDigits h)

/-- An octet moved back to its place keeps its bits and no others. -/
lemma testBit_octet {place : UInt32} (h : place.toNat ≤ 24) (i : Nat) :
    ((value >>> place &&& 0xff) <<< place).toNat.testBit i =
      (decide (place.toNat ≤ i) && decide (i < place.toNat + 8) && value.toNat.testBit i) := by
  have low : place.toNat % 32 = place.toNat := mod_eq_of_lt (by omega)
  rw [UInt32.toNat_shiftLeft, low, testBit_mod_two_pow, testBit_shiftLeft, toNat_octet,
    testBit_mod_two_pow, UInt32.toNat_shiftRight, low, testBit_shiftRight]
  by_cases above : place.toNat ≤ i
  · have index : place.toNat + (i - place.toNat) = i := by omega
    have bounds : (i < 32 ∧ i - place.toNat < 8) ↔ i < place.toNat + 8 := by omega
    rw [index, Bool.eq_iff_iff]
    simp only [Bool.and_eq_true, decide_eq_true_eq, ge_iff_le, above, true_and, ← and_assoc, bounds]
  · simp [above]

/-- The four octets side by side are the word. -/
lemma octets_joined :
    ((value >>> 24 &&& 0xff) <<< 24) ||| ((value >>> 16 &&& 0xff) <<< 16) |||
      ((value >>> 8 &&& 0xff) <<< 8) ||| (value &&& 0xff) = value := by
  have beyond : ∀ i, value.toNat.testBit i = true → i < 32 := by
    intro i set
    by_contra high
    have clear := testBit_lt_two_pow (Nat.lt_of_lt_of_le value.toNat_lt
      (Nat.pow_le_pow_right (by omega : 0 < 2) (Nat.le_of_not_lt high)))
    rw [clear] at set
    cases set
  apply UInt32.toNat.inj
  apply eq_of_testBit_eq
  intro i
  simp only [UInt32.toNat_or, testBit_or]
  rw [testBit_octet value (by decide), testBit_octet value (by decide),
    testBit_octet value (by decide), toNat_octet, testBit_mod_two_pow]
  have places : (24 : UInt32).toNat = 24 ∧ (16 : UInt32).toNat = 16 ∧ (8 : UInt32).toNat = 8 :=
    ⟨rfl, rfl, rfl⟩
  rw [places.1, places.2.1, places.2.2, Bool.eq_iff_iff]
  simp only [Bool.or_eq_true, Bool.and_eq_true, decide_eq_true_eq]
  constructor
  · rintro (((⟨_, set⟩ | ⟨_, set⟩) | ⟨_, set⟩) | ⟨_, set⟩) <;> exact set
  · intro set
    have := beyond i set
    simp only [set, and_true]
    omega

lemma isWhitespace_of_mem_formatAddress {value : UInt32} {c : Char} (h : c ∈ formatAddress value) :
    isWhitespace c = false := by
  rcases mem_formatAddress h with rfl | digit
  · rfl
  · exact isWhitespace_of_isDigit digit

lemma parseAddress_formatAddress : parseAddress (formatAddress value) = some value := by
  rw [parseAddress, trim_of_dark (fun c hc => isWhitespace_of_mem_formatAddress hc),
    split_formatAddress]
  simp only [mapM_cons, mapM_nil, parseOctet_formatOctet]
  exact congrArg some (octets_joined value)

lemma Prefix.parse_toCidr (p : Prefix) : Prefix.parse p.toCidr = some p := by
  have slash : '/' ∉ formatAddress p.network := by
    intro member
    rcases mem_formatAddress member with h | h <;> cases h
  have dark : ∀ c ∈ p.toCidr, isWhitespace c = false := by
    intro c hc
    rw [toCidr, mem_append, mem_cons] at hc
    rcases hc with h | rfl | h
    · exact isWhitespace_of_mem_formatAddress h
    · rfl
    · exact isWhitespace_of_isDigit (isDigit_of_mem_toDigits h)
  have number : parseUnsigned 255 (trim (toDigits 10 p.length)) = some p.length := by
    rw [trim_of_dark (fun c hc => isWhitespace_of_isDigit (isDigit_of_mem_toDigits hc))]
    exact parseUnsigned_toDigits (Nat.le_trans p.length_le (by decide))
  have whole : Prefix.of p.network p.length p.length_le = p := by
    obtain ⟨network, length, length_le, aligned⟩ := p
    simp only [Prefix.of, aligned]
  rw [Prefix.parse, trim_of_dark dark, toCidr, splitOnce_append slash]
  simp only [bind_eq_bind, bind_some, number, p.length_le, dite_true,
    parseAddress_formatAddress, whole]
  rfl

end Reading

end Ipam

/-!
# The prefix tree

The tree is computed from the rows on every read: the rows are sorted, linked to
their parents group by group, and the addresses are counted at their innermost
prefix. The ratio of used addresses, a floating point number, is left out.
-/

namespace Ipam

open List

inductive PrefixStatus where
  | container
  | active
  | reserved
  | deprecated
  deriving DecidableEq

inductive AddressStatus where
  | active
  | reserved
  | deprecated
  deriving DecidableEq

inductive IpamDeviceType where
  | router
  | switch
  | firewall
  | server
  | storage
  | accessPoint
  | desktop
  | printer
  | camera
  | voip
  | iot
  deriving DecidableEq

structure IpPrefix where
  id : List Char
  cidr : List Char
  vrf : List Char := []
  role : List Char := []
  status : PrefixStatus := .active
  description : List Char := []
  siteId : Option (List Char) := none
  vlanId : Option (List Char) := none
  deriving DecidableEq

structure IpAddressRecord where
  id : List Char
  address : List Char
  vrf : List Char := []
  status : AddressStatus := .active
  dnsName : List Char := []
  deviceType : Option IpamDeviceType := none
  deviceModel : List Char := []
  description : List Char := []
  siteId : Option (List Char) := none
  siteInherited : Bool := false
  hostId : Option (List Char) := none
  connectionId : Option (List Char) := none
  rackItemId : Option (List Char) := none
  deriving DecidableEq

structure IpamPrefixNode where
  row : IpPrefix
  parentId : Option (List Char)
  depth : UInt32
  network : List Char
  broadcast : List Char
  firstUsable : List Char
  lastUsable : List Char
  usable : UInt64
  used : UInt64
  childCount : UInt32
  addressCount : UInt32
  deriving DecidableEq

abbrev Entry := IpPrefix × Prefix

def sortKey (e : Entry) : List Char ×ₗ Nat ×ₗ Nat :=
  toLex (e.1.vrf, toLex (e.2.network.toNat, e.2.length))

/-- Rows with an unreadable prefix are dropped. -/
def sortedEntries (rows : List IpPrefix) : List Entry :=
  (rows.filterMap (fun row => (Prefix.parse row.cidr).map (row, ·))).insertionSort
    (fun a b => sortKey a ≤ sortKey b)

/-- The index of the longest candidate, and of those the first. -/
def innermost (prefixes : List Prefix) (candidate : Nat → Prefix → Bool) : Option Nat :=
  (range prefixes.length).foldl
    (Loops.keepBest (fun index => prefixes[index]?.any (candidate index))
      (fun index => prefixes[index]?.elim 0 Prefix.length)) none

def parentIndex (prefixes : List Prefix) (childIndex : Nat) : Option Nat :=
  prefixes[childIndex]?.bind (fun child =>
    innermost prefixes (fun index candidate =>
      index ≠ childIndex && candidate.containsPrefix child && candidate.length < child.length))

def vrfAt (parsed : List Entry) (index : Nat) : Option (List Char) :=
  parsed[index]?.map (·.1.vrf)

def groupIndicesByVrf (parsed : List Entry) : List (List Nat) :=
  (range parsed.length).foldl (Loops.pushGroup (vrfAt parsed)) []

structure Links where
  parentIds : List (Option (List Char))
  childCounts : List UInt32
  covered : List UInt64

def Links.new (size : Nat) : Links where
  parentIds := replicate size none
  childCounts := replicate size 0
  covered := replicate size 0

def Links.link (parsed : List Entry) (links : Links) (index parent : Nat) : Links where
  parentIds := links.parentIds.set index (parsed[parent]?.map (·.1.id))
  childCounts := links.childCounts.modify parent (· + 1)
  covered := links.covered.modify parent (· + (parsed[index]?.elim 0 (·.2.size)))

def groupPrefixes (parsed : List Entry) (group : List Nat) : List Prefix :=
  group.filterMap (fun index => parsed[index]?.map Prod.snd)

def linkGroup (parsed : List Entry) (links : Links) (group : List Nat) : Links :=
  group.zipIdx.foldl (fun links (index, place) =>
    match (parentIndex (groupPrefixes parsed group) place).bind (group[·]?) with
    | some parent => links.link parsed index parent
    | none => links) links

def linkEntries (parsed : List Entry) : Links :=
  (groupIndicesByVrf parsed).foldl (linkGroup parsed) (.new parsed.length)

/-- The innermost prefix of an address in its VRF. -/
def addressPlace (parsed : List Entry) (record : IpAddressRecord) : Option Nat :=
  (parseAddress record.address).bind (fun value =>
    innermost (parsed.map Prod.snd) (fun index p =>
      vrfAt parsed index = some record.vrf && p.containsAddress value))

def countAddress (parsed : List Entry) (addressCounts : List UInt32) (record : IpAddressRecord) :
    List UInt32 :=
  match addressPlace parsed record with
  | some index => addressCounts.modify index (· + 1)
  | none => addressCounts

/-- A map from ids to indices keeps the last index. -/
def indexById (parsed : List Entry) (id : List Char) : Option Nat :=
  (range parsed.length).foldl
    (Loops.keepLast (fun index => parsed[index]?.any (·.1.id = id))) none

/-- The walk up the parents, of at most `bound` steps. -/
def depthFrom (parsed : List Entry) (parentIds : List (Option (List Char))) :
    Nat → Option (List Char) → UInt32
  | 0, _ | _, none => 0
  | bound + 1, some parentId =>
    match indexById parsed parentId with
    | none => 0
    | some parent => depthFrom parsed parentIds bound (parentIds[parent]?.join) + 1

def prefixNode (parsed : List Entry) (links : Links) (addressCounts : List UInt32)
    (e : Entry) (index : Nat) : IpamPrefixNode :=
  let parentId := links.parentIds[index]?.join
  let addressCount := addressCounts[index]?.getD 0
  let (firstUsable, lastUsable) :=
    if 31 ≤ e.2.length then (e.2.network, e.2.last) else (e.2.network + 1, e.2.last - 1)
  { row := e.1
    parentId
    depth := depthFrom parsed links.parentIds 33 parentId
    network := formatAddress e.2.network
    broadcast := formatAddress e.2.last
    firstUsable := formatAddress firstUsable
    lastUsable := formatAddress lastUsable
    usable := e.2.usable
    used :=
      if e.1.status = .container then links.covered[index]?.getD 0 else addressCount.toUInt64
    childCount := links.childCounts[index]?.getD 0
    addressCount }

def buildPrefixNodes (rows : List IpPrefix) (addresses : List IpAddressRecord) :
    List IpamPrefixNode :=
  let parsed := sortedEntries rows
  let addressCounts := addresses.foldl (countAddress parsed) (replicate parsed.length 0)
  parsed.zipIdx.map (fun (e, index) =>
    prefixNode parsed (linkEntries parsed) addressCounts e index)

end Ipam
