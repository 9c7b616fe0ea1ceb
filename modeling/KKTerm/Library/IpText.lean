import Mathlib.Data.List.TakeWhile
import Mathlib.Tactic.Common

/-!
# The standard reader of IP addresses

Four decimal octets without leading zeros, or eight groups of at most four
hexadecimal digits, of which one run may be left out and the last two may be
written as an IPv4 address. Every part is read from the front of the text, and
an address takes up the whole of it.
-/

namespace IpText

open Option hiding all_eq_true
open List

inductive IpAddr where
  | v4 (octets : List Nat)
  | v6 (groups : List Nat)
  deriving DecidableEq

def IpAddr.isIpv6 : IpAddr → Bool
  | .v4 _ => false
  | .v6 _ => true

/-- `char::to_digit`. -/
def toDigit (radix : Nat) (c : Char) : Option Nat :=
  let value :=
    if c.isDigit then c.toNat - '0'.toNat
    else if 'a' ≤ c ∧ c ≤ 'f' then c.toNat - 'a'.toNat + 10
    else if 'A' ≤ c ∧ c ≤ 'F' then c.toNat - 'A'.toNat + 10
    else radix
  if value < radix then some value else none

/-- A part read from the front of a text, and the rest of the text. -/
abbrev Reader (α : Type) := List Char → Option (α × List Char)

/-- A number stops at the first character that is no digit. -/
def readNumber (radix maxDigits max : Nat) (allowZeroPrefix : Bool) : Reader Nat := fun text =>
  let digits := text.takeWhile (fun c => (toDigit radix c).isSome)
  let value := (digits.filterMap (toDigit radix)).foldl (fun n d => n * radix + d) 0
  if maxDigits < digits.length then none
  else if digits = [] then none
  else if !allowZeroPrefix && digits.head? = some '0' && 1 < digits.length then none
  else if max < value then none
  else some (value, text.dropWhile (fun c => (toDigit radix c).isSome))

def readGivenChar (target : Char) : Reader Unit
  | [] => none
  | c :: rest => if c = target then some ((), rest) else none

/-- The separator stands before every part but the first. -/
def readSeparator {α : Type} (sep : Char) (index : Nat) (inner : Reader α) : Reader α := fun text =>
  if 0 < index then (readGivenChar sep text).bind (fun r => inner r.2) else inner text

def readOctets : Nat → Nat → Reader (List Nat)
  | 0, _, text => some ([], text)
  | slots + 1, index, text =>
    (readSeparator '.' index (readNumber 10 3 255 false) text).bind (fun first =>
      (readOctets slots (index + 1) first.2).map (fun rest => (first.1 :: rest.1, rest.2)))

def readIpv4Addr : Reader (List Nat) :=
  readOctets 4 0

/-- The groups read, whether they end with an IPv4 address, and the rest. -/
structure Groups where
  groups : List Nat
  ipv4 : Bool
  rest : List Char

def octetPairs : List Nat → List Nat
  | high :: low :: rest => (high * 256 + low) :: octetPairs rest
  | _ => []

/-- An IPv4 address needs two slots. -/
def readGroups : Nat → Nat → List Char → Groups
  | 0, _, text => { groups := [], ipv4 := false, rest := text }
  | slots + 1, index, text =>
    match (if 1 ≤ slots then readSeparator ':' index readIpv4Addr text else none) with
    | some address => { groups := octetPairs address.1, ipv4 := true, rest := address.2 }
    | none =>
      match readSeparator ':' index (readNumber 16 4 65535 true) text with
      | none => { groups := [], ipv4 := false, rest := text }
      | some group =>
        let later := readGroups slots (index + 1) group.2
        { later with groups := group.1 :: later.groups }

def readIpv6Addr : Reader (List Nat) := fun text =>
  let head := readGroups 8 0 text
  if head.groups.length = 8 then some (head.groups, head.rest)
  else if head.ipv4 then none
  else
    (readGivenChar ':' head.rest).bind (fun first =>
      (readGivenChar ':' first.2).map (fun second =>
        let tail := readGroups (8 - (head.groups.length + 1)) 0 second.2
        (head.groups ++ List.replicate (8 - head.groups.length - tail.groups.length) 0 ++
          tail.groups, tail.rest)))

def readIpAddr : Reader IpAddr := fun text =>
  match readIpv4Addr text with
  | some address => some (.v4 address.1, address.2)
  | none => (readIpv6Addr text).map (fun address => (.v6 address.1, address.2))

/-- `str::parse::<IpAddr>`. -/
def parseIpAddr (text : List Char) : Option IpAddr :=
  (readIpAddr text).bind (fun r => if r.2 = [] then some r.1 else none)

example : parseIpAddr "fe80::1:10.0.0.1".toList =
    some (.v6 [0xfe80, 0, 0, 0, 0, 1, 0x0a00, 1]) := by decide +kernel

/-- A reader takes characters of one kind only. -/
def Takes {α : Type} (p : Char → Bool) (reader : Reader α) : Prop :=
  ∀ text r, reader text = some r → ∃ front, text = front ++ r.2 ∧ front.all p

section Characters

variable {α : Type} {p : Char → Bool}

lemma takes_readGivenChar {target : Char} (h : p target) : Takes p (readGivenChar target) := by
  intro text r read
  cases text with
  | nil => cases read
  | cons c rest =>
    obtain ⟨rfl, done⟩ := ite_none_right_eq_some.mp read
    cases done
    exact ⟨[c], rfl, by simpa using h⟩

lemma takes_readNumber {radix maxDigits max : Nat} {allowZeroPrefix : Bool}
    (h : ∀ c, (toDigit radix c).isSome → p c) :
    Takes p (readNumber radix maxDigits max allowZeroPrefix) := by
  intro text r read
  simp only [readNumber] at read
  split_ifs at read
  cases read
  refine ⟨_, (takeWhile_append_dropWhile).symm, ?_⟩
  refine all_eq_true.mpr ?_
  intro c member
  exact h c (mem_takeWhile_imp (p := fun c => (toDigit radix c).isSome) member)

lemma takes_readSeparator {sep : Char} {index : Nat} {inner : Reader α} (sepTaken : p sep)
    (innerTakes : Takes p inner) : Takes p (readSeparator sep index inner) := by
  intro text r read
  rw [readSeparator] at read
  split_ifs at read
  · obtain ⟨first, sepRead, innerRead⟩ := bind_eq_some_iff.mp read
    obtain ⟨front, rfl, frontTaken⟩ := takes_readGivenChar sepTaken text first sepRead
    obtain ⟨back, cut, backTaken⟩ := innerTakes first.2 r innerRead
    exact ⟨front ++ back, by rw [cut, append_assoc], by simp [frontTaken, backTaken]⟩
  · exact innerTakes text r read

lemma takes_readOctets (digits : ∀ c, (toDigit 10 c).isSome → p c) (dot : p '.')
    (slots index : Nat) : Takes p (readOctets slots index) := by
  induction slots generalizing index with
  | zero =>
    intro text r read
    cases read
    exact ⟨[], rfl, rfl⟩
  | succ slots ih =>
    intro text r read
    obtain ⟨first, firstRead, read⟩ := bind_eq_some_iff.mp read
    obtain ⟨rest, restRead, rfl⟩ := map_eq_some_iff.mp read
    obtain ⟨front, rfl, frontTaken⟩ :=
      takes_readSeparator dot (takes_readNumber digits) text first firstRead
    obtain ⟨back, cut, backTaken⟩ := ih (index + 1) first.2 rest restRead
    exact ⟨front ++ back, by rw [cut, append_assoc], by simp [frontTaken, backTaken]⟩

lemma takes_readGroups (digits : ∀ c, (toDigit 10 c).isSome → p c)
    (hexDigits : ∀ c, (toDigit 16 c).isSome → p c) (dot : p '.') (colon : p ':')
    (slots index : Nat) (text : List Char) :
    ∃ front, text = front ++ (readGroups slots index text).rest ∧ front.all p := by
  induction slots generalizing index text with
  | zero => exact ⟨[], rfl, rfl⟩
  | succ slots ih =>
    rw [readGroups]
    split
    next address embedded =>
      obtain ⟨-, embedded⟩ := ite_none_right_eq_some.mp embedded
      exact takes_readSeparator colon (takes_readOctets digits dot 4 0) text address embedded
    next =>
      split
      next => exact ⟨[], rfl, rfl⟩
      next group read =>
        obtain ⟨front, rfl, frontTaken⟩ :=
          takes_readSeparator colon (takes_readNumber hexDigits) text group read
        obtain ⟨back, cut, backTaken⟩ := ih (index + 1) group.2
        exact ⟨front ++ back, by rw [append_assoc, ← cut], by simp [frontTaken, backTaken]⟩

end Characters

def isAddressChar (c : Char) : Bool :=
  (toDigit 16 c).isSome || c = '.' || c = ':'

lemma isSome_toDigit_sixteen {c : Char} (h : (toDigit 10 c).isSome) : (toDigit 16 c).isSome := by
  unfold toDigit at h ⊢
  grind

lemma takes_readIpv4Addr : Takes isAddressChar readIpv4Addr :=
  takes_readOctets (fun c h => by simp [isAddressChar, isSome_toDigit_sixteen h]) (by decide) 4 0

lemma takes_readIpv6Addr : Takes isAddressChar readIpv6Addr := by
  have digits : ∀ c, (toDigit 10 c).isSome → isAddressChar c := by
    intro c h
    simp [isAddressChar, isSome_toDigit_sixteen h]
  have hexDigits : ∀ c, (toDigit 16 c).isSome → isAddressChar c := by
    intro c h
    simp [isAddressChar, h]
  have groups := takes_readGroups digits hexDigits (by decide) (by decide)
  intro text r read
  obtain ⟨head, cut, headTaken⟩ := groups 8 0 text
  simp only [readIpv6Addr] at read
  split_ifs at read
  · cases read
    exact ⟨head, cut, headTaken⟩
  · obtain ⟨first, firstRead, read⟩ := bind_eq_some_iff.mp read
    obtain ⟨second, secondRead, rfl⟩ := map_eq_some_iff.mp read
    have colon : isAddressChar ':' := by decide
    obtain ⟨a, cutFirst, aTaken⟩ := takes_readGivenChar colon _ first firstRead
    obtain ⟨b, cutSecond, bTaken⟩ := takes_readGivenChar colon _ second secondRead
    obtain ⟨tail, cutTail, tailTaken⟩ := groups (8 - ((readGroups 8 0 text).groups.length + 1)) 0
      second.2
    refine ⟨head ++ (a ++ (b ++ tail)), ?_, by simp [headTaken, aTaken, bTaken, tailTaken]⟩
    simp only [append_assoc]
    rw [← cutTail, ← cutSecond, ← cutFirst]
    exact cut

/-- An address is written with hexadecimal digits, dots and colons. -/
lemma isAddressChar_of_parseIpAddr {text : List Char} {address : IpAddr}
    (h : parseIpAddr text = some address) : text.all isAddressChar := by
  obtain ⟨r, read, done⟩ := bind_eq_some_iff.mp h
  obtain ⟨ended, -⟩ := ite_none_right_eq_some.mp done
  have taken : ∃ front, text = front ++ r.2 ∧ front.all isAddressChar := by
    rw [readIpAddr] at read
    split at read
    next address v4 =>
      cases read
      exact takes_readIpv4Addr text address v4
    next =>
      obtain ⟨address, v6, rfl⟩ := map_eq_some_iff.mp read
      exact takes_readIpv6Addr text address v6
  obtain ⟨front, cut, frontTaken⟩ := taken
  rw [ended, append_nil] at cut
  rwa [cut]

end IpText
