import KKTerm.Ipam.PrefixTree

/-!
# The next free addresses

The addresses between the first and the last usable one of a prefix are tried in their order
until enough of them are found that no row of the routing table documents.
-/

namespace Ipam

open List UInt32

/-- Overflow ends the program. -/
def checkedAdd (a b : UInt32) : Option UInt32 :=
  if a.toNat + b.toNat < 2 ^ 32 then some (a + b) else none

def checkedSub (a b : UInt32) : Option UInt32 :=
  if b ≤ a then some (a - b) else none

/-- One round for each candidate, with what is left of the fuel. -/
def suggestLoop (taken : List UInt32) (limit : Nat) (last : UInt32) :
    Nat → UInt32 → List (List Char) → Option (List (List Char))
  | 0, _, _ => none
  | fuel + 1, candidate, free =>
    if free.length < limit then
      let free := if taken.contains candidate then free else free ++ [formatAddress candidate]
      if candidate = last then some free
      else (checkedAdd candidate 1).bind (suggestLoop taken limit last fuel · free)
    else some free

def usableBounds (p : Prefix) : Option (UInt32 × UInt32) := do
  if 31 ≤ p.length then return (p.network, p.last)
  else return (← checkedAdd p.network 1, ← checkedSub p.last 1)

def takenIn (rows : List IpAddressRecord) (vrf : List Char) (p : Prefix) : List UInt32 :=
  ((rows.filter (·.vrf = Text.trim vrf)).filterMap (parseAddress ·.address)).filter
    p.containsAddress

/-- There is no answer when the arithmetic overflows or the loop does not end. -/
def suggestFreeAddresses (rows : List IpAddressRecord) (cidr vrf : List Char) (limit : Nat) :
    Option (Except (List Char) (List (List Char))) :=
  match Prefix.parse cidr with
  | none => some (.error ("'".toList ++ Text.trim cidr ++ "' is not a valid IPv4 prefix".toList))
  | some p => do
    let (first, last) ← usableBounds p
    let free ← suggestLoop (takenIn rows vrf p) limit last (2 ^ 32) first []
    return .ok free

/-- The network and the broadcast address of a prefix are not usable, where it has them. -/
def Usable (p : Prefix) (address : UInt32) : Prop :=
  p.containsAddress address = true ∧ (p.length ≤ 30 → address ≠ p.network ∧ address ≠ p.last)

def Documented (rows : List IpAddressRecord) (vrf : List Char) (address : UInt32) : Prop :=
  ∃ row ∈ rows, row.vrf = Text.trim vrf ∧ parseAddress row.address = some address

/-- The addresses between two bounds, in their order. -/
def addressRange (first last : UInt32) : List UInt32 :=
  (List.range' first.toNat (last.toNat + 1 - first.toNat)).map UInt32.ofNat

section
variable {first last address : UInt32}

lemma mem_addressRange : address ∈ addressRange first last ↔ first ≤ address ∧ address ≤ last := by
  rw [addressRange, mem_map, le_iff_toNat_le, le_iff_toNat_le]
  have bound := last.toNat_lt
  constructor
  · rintro ⟨n, member, rfl⟩
    rw [mem_range'_1] at member
    rw [toNat_ofNat_of_lt' (by simp [UInt32.size]; omega)]
    omega
  · rintro ⟨low, high⟩
    exact ⟨address.toNat, mem_range'_1.mpr (by omega), UInt32.ofNat_toNat⟩

lemma addressRange_sorted : (addressRange first last).Pairwise (· < ·) := by
  have bound := last.toNat_lt
  rw [addressRange, pairwise_map]
  refine (pairwise_lt_range' (s := first.toNat)).imp_of_mem fun {a b} ha hb below => ?_
  rw [mem_range'_1] at ha hb
  rw [lt_iff_toNat_lt, toNat_ofNat_of_lt' (by simp [UInt32.size]; omega),
    toNat_ofNat_of_lt' (by simp [UInt32.size]; omega)]
  exact below

lemma addressRange_self : addressRange last last = [last] := by
  rw [addressRange, Nat.add_sub_cancel_left]
  simp

lemma addressRange_cons (below : first < last) :
    addressRange first last = first :: addressRange (first + 1) last := by
  rw [lt_iff_toNat_lt] at below
  have bound := last.toNat_lt
  have next : (first + 1).toNat = first.toNat + 1 := by
    rw [UInt32.toNat_add, toNat_one]
    omega
  have length : last.toNat + 1 - first.toNat = last.toNat + 1 - (first.toNat + 1) + 1 := by omega
  rw [addressRange, addressRange, next, length, range'_succ, map_cons, UInt32.ofNat_toNat]

/-- The loop adds the next addresses that are not taken, as many as are left to find. -/
lemma suggestLoop_eq (taken : List UInt32) (limit fuel : Nat) (free : List (List Char))
    (ordered : first ≤ last) (enough : last.toNat - first.toNat < fuel) :
    suggestLoop taken limit last fuel first free = some (free ++
      (((addressRange first last).filter (!taken.contains ·)).take
        (limit - free.length)).map formatAddress) := by
  induction fuel generalizing first free with
  | zero => exact absurd enough (Nat.not_lt_zero _)
  | succ fuel ih =>
    rw [suggestLoop]
    by_cases wanted : free.length < limit
    · rw [if_pos wanted]
      obtain ⟨more, room⟩ := Nat.exists_eq_add_of_lt wanted
      have left : limit - free.length = more + 1 := by omega
      by_cases final : first = last
      · subst final
        rw [if_pos rfl, addressRange_self, left]
        by_cases old : first ∈ taken <;> simp [old]
      · have below : first.toNat < last.toNat := Nat.lt_of_le_of_ne
          (le_iff_toNat_le.mp ordered) fun same => final (UInt32.toNat_inj.mp same)
        have bound := last.toNat_lt
        have next : (first + 1).toNat = first.toNat + 1 := by
          rw [UInt32.toNat_add, toNat_one]
          omega
        have fits : checkedAdd first 1 = some (first + 1) := if_pos (by rw [toNat_one]; omega)
        have ordered' : first + 1 ≤ last := le_iff_toNat_le.mpr (by omega)
        rw [if_neg final, fits, Option.bind_some, addressRange_cons (lt_iff_toNat_lt.mpr below),
          ih _ ordered' (by omega), left]
        by_cases old : first ∈ taken
        · simp [old, left]
        · have rest : limit - (free.length + 1) = more := by omega
          simp [old, rest]
    · rw [if_neg wanted, Nat.sub_eq_zero_of_le (Nat.le_of_not_lt wanted)]
      simp

end

section
variable (p : Prefix)

lemma toNat_hostmask {length : Nat} (h : length ≤ 32) :
    (~~~ netmask length).toNat = 2 ^ (32 - length) - 1 := by
  apply Nat.eq_of_testBit_eq
  intro i
  have complement : UInt32.size - 1 - (netmask length).toNat =
      2 ^ 32 - ((netmask length).toNat + 1) := by
    have size : UInt32.size = 2 ^ 32 := rfl
    rw [size, Nat.sub_sub, Nat.add_comm]
  rw [toNat_not, complement, Nat.testBit_two_pow_sub_succ (netmask length).toNat_lt,
    testBit_netmask h, Nat.testBit_two_pow_sub_one, Bool.eq_iff_iff]
  simp only [Bool.and_eq_true, Bool.not_eq_true', Bool.and_eq_false_iff, decide_eq_true_eq,
    decide_eq_false_iff_not]
  omega

lemma Prefix.toNat_last : p.last.toNat = p.block.base + (p.block.size - 1) := by
  obtain ⟨k, base⟩ : p.block.size ∣ p.block.base := p.block.aligned
  have network : p.network.toNat = 2 ^ (32 - p.length) * k := base
  have below : 2 ^ (32 - p.length) - 1 < 2 ^ (32 - p.length) :=
    Nat.sub_one_lt (Nat.two_pow_pos _).ne'
  rw [Prefix.last, UInt32.toNat_or, toNat_hostmask p.length_le, network,
    ← Nat.two_pow_add_eq_or_of_lt below, base]
  rfl

lemma Prefix.contains_iff (address : UInt32) :
    p.containsAddress address = true ↔ p.network ≤ address ∧ address ≤ p.last := by
  have positive := p.block.size_pos
  rw [containsAddress_iff, Block.points, Finset.mem_Ico, le_iff_toNat_le,
    le_iff_toNat_le, p.toNat_last]
  have base : p.block.base = p.network.toNat := rfl
  omega

lemma Prefix.network_le_last : p.network ≤ p.last :=
  ((p.contains_iff p.network).mp (containsAddress_iff.mpr p.block.base_mem)).2

variable {p} in
lemma Prefix.containsPrefix_iff_range {q : Prefix} :
    p.containsPrefix q = true ↔ p.network ≤ q.network ∧ q.last ≤ p.last := by
  rw [containsPrefix_iff]
  constructor
  · intro inside
    have within : ∀ address, q.network ≤ address ∧ address ≤ q.last →
        p.network ≤ address ∧ address ≤ p.last := by
      simp only [← contains_iff, containsAddress_iff]
      exact fun address member => inside member
    exact ⟨(within q.network ⟨UInt32.le_refl _, q.network_le_last⟩).1,
      (within q.last ⟨q.network_le_last, UInt32.le_refl _⟩).2⟩
  · rintro ⟨low, high⟩
    have bounds := And.intro p.toNat_last q.toNat_last
    have positive := And.intro p.block.size_pos q.block.size_pos
    rw [le_iff_toNat_le] at low high
    exact Finset.Ico_subset_Ico low (by omega)

lemma usableBounds_spec : ∃ first last, usableBounds p = some (first, last) ∧ first ≤ last ∧
    ∀ address, Usable p address ↔ first ≤ address ∧ address ≤ last := by
  have last := p.toNat_last
  have size : p.block.size = 2 ^ (32 - p.length) := rfl
  have base : p.block.base = p.network.toNat := rfl
  have positive := p.block.size_pos
  by_cases pair : 31 ≤ p.length
  · refine ⟨p.network, p.last, if_pos pair, le_iff_toNat_le.mpr (by omega), ?_⟩
    intro address
    rw [Usable, p.contains_iff]
    constructor
    · intro usable
      exact usable.1
    · intro inside
      exact ⟨inside, fun short => by omega⟩
  · have four : 2 ^ 2 ≤ p.block.size := by
      rw [size]
      exact Nat.pow_le_pow_right (by decide) (by omega)
    have bound := p.last.toNat_lt
    have one : (1 : UInt32).toNat = 1 := rfl
    have next : (p.network + 1).toNat = p.network.toNat + 1 := by
      rw [UInt32.toNat_add, one]
      omega
    have above : (1 : UInt32) ≤ p.last := le_iff_toNat_le.mpr (by omega)
    have previous : (p.last - 1).toNat = p.last.toNat - 1 := UInt32.toNat_sub_of_le _ _ above
    have added : checkedAdd p.network 1 = some (p.network + 1) := if_pos (by omega)
    refine ⟨p.network + 1, p.last - 1, ?_, le_iff_toNat_le.mpr (by omega), ?_⟩
    · rw [usableBounds, if_neg pair, added, checkedSub, if_pos above]
      rfl
    · intro address
      rw [Usable, p.contains_iff]
      simp only [le_iff_toNat_le, ne_eq, ← UInt32.toNat_inj, next, previous]
      omega

end

lemma mem_takenIn {rows : List IpAddressRecord} {vrf : List Char} {p : Prefix} {address : UInt32} :
    address ∈ takenIn rows vrf p ↔ Documented rows vrf address ∧ p.containsAddress address = true := by
  simp only [takenIn, mem_filter, mem_filterMap, Documented, decide_eq_true_eq, and_assoc]

/-- What is suggested for a prefix are the first usable addresses of it that are not
documented, as many as were asked for where there are as many. -/
theorem suggestFreeAddresses_first (rows : List IpAddressRecord) (cidr vrf : List Char)
    (limit : Nat) (p : Prefix) (parsed : Prefix.parse cidr = some p) :
    ∃ free : List UInt32, free.Pairwise (· < ·) ∧
      (∀ address, address ∈ free ↔ Usable p address ∧ ¬ Documented rows vrf address) ∧
      suggestFreeAddresses rows cidr vrf limit =
        some (.ok ((free.take limit).map formatAddress)) := by
  obtain ⟨first, last, bounds, ordered, usable⟩ := usableBounds_spec p
  refine ⟨(addressRange first last).filter (!(takenIn rows vrf p).contains ·),
    addressRange_sorted.filter _, ?_, ?_⟩
  · intro address
    simp only [mem_filter, mem_addressRange, ← usable, Bool.not_eq_true', contains_eq_mem,
      decide_eq_false_iff_not, mem_takenIn, not_and]
    constructor
    · rintro ⟨inside, unlisted⟩
      exact ⟨inside, fun documented => unlisted documented inside.1⟩
    · rintro ⟨inside, undocumented⟩
      exact ⟨inside, fun documented => absurd documented undocumented⟩
  · have bound := last.toNat_lt
    rw [suggestFreeAddresses, parsed]
    dsimp only
    rw [bounds, Option.bind_eq_bind, Option.bind_some, suggestLoop_eq _ _ _ _ ordered (by omega)]
    rfl

theorem suggestFreeAddresses_first_pair :
    ∃ free : List UInt32, free.Pairwise (· < ·) ∧
      (∀ address, address ∈ free ↔
        Usable (.of 0 31 (by decide)) address ∧ ¬ Documented [] [] address) ∧
      suggestFreeAddresses [] "0.0.0.0/31".toList [] 1 =
        some (.ok ((free.take 1).map formatAddress)) :=
  suggestFreeAddresses_first [] "0.0.0.0/31".toList [] 1 (.of 0 31 (by decide)) (by decide +kernel)

/-- Masking compares ranges. Two prefixes are nested or have no address in common, and the text
that is stored for a prefix, which reads back as it, is the same for the same set of addresses. -/
theorem prefixes_nest (p q : Prefix) :
    (p.containsPrefix q = true ↔ p.network ≤ q.network ∧ q.last ≤ p.last) ∧
    (p.containsPrefix q = true ∨ q.containsPrefix p = true ∨
      ∀ address, ¬ (p.containsAddress address = true ∧ q.containsAddress address = true)) ∧
    Prefix.parse p.toCidr = some p ∧
    (p.toCidr = q.toCidr ↔ ∀ address, p.containsAddress address = q.containsAddress address) := by
  refine ⟨Prefix.containsPrefix_iff_range, ?_, p.parse_toCidr, ?_, ?_⟩
  · by_cases meet : ∃ address, p.containsAddress address = true ∧ q.containsAddress address = true
    · obtain ⟨address, inP, inQ⟩ := meet
      rw [Prefix.containsAddress_iff] at inP inQ
      rw [Prefix.containsPrefix_iff, Prefix.containsPrefix_iff]
      rcases Nat.le_total p.length q.length with shorter | longer
      · exact .inl (Block.subset_of_meet (Prefix.level_le_iff.mpr shorter) inQ inP)
      · exact .inr (.inl (Block.subset_of_meet (Prefix.level_le_iff.mpr longer) inP inQ))
    · exact .inr (.inr (not_exists.mp meet))
  · intro same address
    cases p.parse_toCidr.symm.trans (same ▸ q.parse_toCidr)
    rfl
  · intro same
    have inside : ∀ p q : Prefix, (∀ address, p.containsAddress address = q.containsAddress address) →
        p.containsPrefix q = true := by
      intro p q same
      have ends := And.intro (q.contains_iff q.network) (q.contains_iff q.last)
      simp only [← same, p.contains_iff, UInt32.le_refl, q.network_le_last, and_true,
        iff_true] at ends
      exact Prefix.containsPrefix_iff_range.mpr ⟨ends.1.1, ends.2.2⟩
    have below := inside p q same
    have above := inside q p fun address => (same address).symm
    have network := UInt32.le_antisymm (Prefix.containsPrefix_iff_range.mp below).1
      (Prefix.containsPrefix_iff_range.mp above).1
    have length := Nat.le_antisymm (of_decide_eq_true (Bool.and_eq_true_iff.mp below).1)
      (of_decide_eq_true (Bool.and_eq_true_iff.mp above).1)
    rw [Prefix.toCidr, Prefix.toCidr, network, length]

end Ipam
