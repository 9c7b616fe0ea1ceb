import KKTerm.Library.Text
import KKTerm.Library.PaddedOrder

/-!
# Comparing versions

The backend finds the latest version of a package and the frontend whether it is newer than
the installed one, each with a comparison of its own. Both compare the parts of two versions
in turn, a part as a number or as text. A JavaScript number is an integer or infinity here,
since nothing else is compared.
-/

namespace Installer

open PaddedOrder Nat Text

def isSeparator (c : Char) : Bool :=
  c == '.' || c == '-' || c == '_' || c == '+'

def looksLikeWingetVersionValue (value : List Char) : Bool :=
  value.head?.any isAsciiDigit &&
    value.all (fun c => isAsciiAlphanumeric c || isSeparator c)

def parseU64 (part : List Char) : Option Nat :=
  parseUnsigned (2 ^ 64 - 1) part

def compareWingetVersionPart (a b : List Char) : Ordering :=
  match parseU64 a, parseU64 b with
  | some m, some n => compare m n
  | _, _ => compare (asciiLower a) (asciiLower b)

def isZeroVersionRemainder (parts : List (List Char)) : Bool :=
  parts.all (· == ['0'])

def compareWingetParts : List (List Char) → List (List Char) → Ordering
  | a :: as, b :: bs =>
    match compareWingetVersionPart a b with
    | .eq => compareWingetParts as bs
    | ordering => ordering
  | a :: as, [] => if isZeroVersionRemainder (a :: as) then .eq else .gt
  | [], b :: bs => if isZeroVersionRemainder (b :: bs) then .eq else .lt
  | [], [] => .eq

example : compareWingetParts [['1']] [['1'], ['0']] = .eq := by
  rw [compareWingetParts]
  decide

def compareWingetVersions (a b : List Char) : Ordering :=
  compareWingetParts (a.splitOnP isSeparator) (b.splitOnP isSeparator)

structure GithubContentEntry where
  name : List Char
  kind : List Char
  deriving DecidableEq

def eligibleVersions (entries : List GithubContentEntry) : List (List Char) :=
  ((entries.filter (fun entry => entry.kind = "dir".toList)).map
    (fun entry => trim entry.name)).filter looksLikeWingetVersionValue

def latestWingetManifestVersionFromEntries (entries : List GithubContentEntry) :
    Option (List Char) :=
  maxBy compareWingetVersions (eligibleVersions entries)

/-- How the language orders texts: only lower-case ASCII texts are assumed about. -/
structure Locale where
  toLocaleLowerCase : List Char → List Char
  localeCompare : List Char → List Char → Ordering
  lower_ascii : ∀ t : List Char, (∀ c ∈ t, isAsciiAlphanumeric c = true) →
    toLocaleLowerCase t = asciiLower t
  compare_ascii : ∀ s t : List Char, (∀ c ∈ s, isAsciiAlphanumeric c = true) →
    (∀ c ∈ t, isAsciiAlphanumeric c = true) →
    localeCompare (asciiLower s) (asciiLower t) =
      compare (asciiLower s) (asciiLower t)

/-- The nearest number with a significand of 53 bits, the even one of two. -/
def roundToEven (n : Nat) : Nat :=
  let unit := 2 ^ (n.log2 - 52)
  let low := n / unit
  let rest := n % unit
  if unit < 2 * rest ∨ (2 * rest = unit ∧ low % 2 = 1) then (low + 1) * unit else low * unit

lemma roundToEven_small {n : Nat} (small : n < 2 ^ 53) : roundToEven n = n := by
  have unit : 2 ^ (n.log2 - 52) = 1 := by
    rcases Nat.eq_zero_or_pos n with rfl | positive
    · rfl
    · have log : n.log2 < 53 := (log2_lt (Nat.ne_of_gt positive)).mpr small
      rw [Nat.sub_eq_zero_of_le (by omega), Nat.pow_zero]
  rw [roundToEven, unit]
  simp only [mod_one, Nat.div_one, Nat.mul_one]
  rw [if_neg]
  rintro (less | ⟨equal, -⟩)
  · omega
  · omega

lemma roundToEven_exact {q e : Nat} (low : 2 ^ 52 ≤ q) (high : q < 2 ^ 53) :
    roundToEven (q * 2 ^ e) = q * 2 ^ e := by
  have positive : 0 < 2 ^ e := Nat.two_pow_pos e
  have log : (q * 2 ^ e).log2 = 52 + e := by
    refine (log2_eq_iff (Nat.ne_of_gt (Nat.mul_pos (by omega) positive))).mpr ⟨?_, ?_⟩
    · rw [Nat.pow_add]
      exact Nat.mul_le_mul_right _ low
    · rw [show 52 + e + 1 = 53 + e by omega, Nat.pow_add]
      exact Nat.mul_lt_mul_of_pos_right high positive
  rw [roundToEven, log, Nat.add_sub_cancel_left]
  simp only [mul_mod_left, Nat.mul_div_cancel _ positive]
  rw [if_neg]
  rintro (less | ⟨equal, -⟩)
  · omega
  · omega

/-- A number above has a significand of 53 bits, and rounding gives one that is as large or
the next power of two. -/
lemma roundToEven_large {n : Nat} (large : 2 ^ 53 ≤ n) :
    ∃ q e, n.log2 = 52 + e ∧ 2 ^ 52 ≤ q ∧ q ≤ 2 ^ 53 ∧ roundToEven n = q * 2 ^ e ∧
      q * 2 ^ e ≤ 2 * n := by
  have nonzero : n ≠ 0 := by omega
  have log : 53 ≤ n.log2 := (le_log2 nonzero).mpr large
  have below : 2 ^ n.log2 ≤ n := log2_self_le nonzero
  have above : n < 2 ^ (n.log2 + 1) := lt_log2_self
  obtain ⟨e, split⟩ : ∃ e, n.log2 = 52 + e := ⟨n.log2 - 52, by omega⟩
  have positive : 0 < 2 ^ e := Nat.two_pow_pos e
  rw [split, Nat.pow_add] at below
  rw [split, show 52 + e + 1 = 53 + e by omega, Nat.pow_add] at above
  have low : 2 ^ 52 ≤ n / 2 ^ e := (Nat.le_div_iff_mul_le positive).mpr below
  have high : n / 2 ^ e < 2 ^ 53 := (Nat.div_lt_iff_lt_mul positive).mpr above
  have whole : n / 2 ^ e * 2 ^ e ≤ n := div_mul_le_self n (2 ^ e)
  have unit : 2 ^ e ≤ n := by
    refine Nat.le_trans ?_ below
    exact Nat.le_mul_of_pos_left _ (by decide)
  rw [roundToEven, split, Nat.add_sub_cancel_left]
  split_ifs
  · refine ⟨n / 2 ^ e + 1, e, rfl, by omega, by omega, rfl, ?_⟩
    rw [Nat.add_mul, Nat.one_mul]
    omega
  · exact ⟨n / 2 ^ e, e, rfl, low, by omega, rfl, by omega⟩

lemma roundToEven_round (n : Nat) : roundToEven (roundToEven n) = roundToEven n := by
  rcases Nat.lt_or_ge n (2 ^ 53) with small | large
  · rw [roundToEven_small small, roundToEven_small small]
  · obtain ⟨q, e, -, low, high, same, -⟩ := roundToEven_large large
    rw [same]
    rcases Nat.lt_or_eq_of_le high with less | rfl
    · exact roundToEven_exact low less
    · have shift : 2 ^ 53 * 2 ^ e = 2 ^ 52 * 2 ^ (e + 1) := by
        rw [Nat.pow_succ 2 52, Nat.pow_succ 2 e, Nat.mul_assoc, Nat.mul_comm 2 (2 ^ e)]
      rw [shift]
      exact roundToEven_exact (Nat.le_refl _) (by decide)

/-- Rounding does not leave the powers of two around a number. -/
lemma roundToEven_between {n : Nat} (large : 2 ^ 53 ≤ n) :
    2 ^ n.log2 ≤ roundToEven n ∧ roundToEven n ≤ 2 ^ (n.log2 + 1) := by
  obtain ⟨q, e, log, low, high, same, -⟩ := roundToEven_large large
  rw [same, log, show 52 + e + 1 = 53 + e by omega, Nat.pow_add, Nat.pow_add]
  exact ⟨Nat.mul_le_mul_right _ low, Nat.mul_le_mul_right _ high⟩

lemma roundToEven_mono {m n : Nat} (le : m ≤ n) : roundToEven m ≤ roundToEven n := by
  by_cases same : m.log2 = n.log2
  · rw [roundToEven, roundToEven, same]
    generalize unit : 2 ^ (n.log2 - 52) = u
    have positive : 0 < u := unit ▸ Nat.two_pow_pos _
    have parts : m / u ≤ n / u := Nat.div_le_div_right le
    rcases Nat.lt_or_eq_of_le parts with less | equal
    · have step : (m / u + 1) * u ≤ n / u * u := Nat.mul_le_mul_right u less
      have up : m / u * u ≤ (m / u + 1) * u := Nat.mul_le_mul_right u (by omega)
      have up' : n / u * u ≤ (n / u + 1) * u := Nat.mul_le_mul_right u (by omega)
      split_ifs <;> omega
    · have rests : m % u ≤ n % u := by
        have whole := div_add_mod m u
        have whole' := div_add_mod n u
        rw [equal] at whole
        omega
      rw [equal]
      have up : n / u * u ≤ (n / u + 1) * u := Nat.mul_le_mul_right u (by omega)
      split_ifs with first second
      · omega
      · omega
      · exact up
      · omega
  · have logs : m.log2 < n.log2 := by
      rcases Nat.eq_zero_or_pos m with rfl | positive
      · rw [log2_zero] at same ⊢
        omega
      · have order := (le_log2 (by omega)).mpr
          ((log2_self_le (Nat.ne_of_gt positive)).trans le)
        omega
    rcases Nat.lt_or_ge n (2 ^ 53) with small | large
    · rw [roundToEven_small small, roundToEven_small (by omega)]
      exact le
    · have top := (roundToEven_between large).1
      rcases Nat.lt_or_ge m (2 ^ 53) with small | large'
      · rw [roundToEven_small small]
        have log : 53 ≤ n.log2 := (le_log2 (by omega)).mpr large
        have power : 2 ^ 53 ≤ 2 ^ n.log2 := Nat.pow_le_pow_right (by omega) log
        omega
      · have power : 2 ^ (m.log2 + 1) ≤ 2 ^ n.log2 := Nat.pow_le_pow_right (by omega) logs
        exact ((roundToEven_between large').2.trans power).trans top

/-- An integer that rounds to `2 ^ 1024` or more is infinity. -/
def infinityBound : Nat :=
  (2 ^ 256) ^ 4

lemma infinityBound_pos : 0 < infinityBound :=
  Nat.pow_pos (Nat.two_pow_pos 256)

/-- The number that an integer is read as, if it is not infinity. -/
def toNumber (n : Nat) : Option Nat :=
  if roundToEven n < infinityBound then some (roundToEven n) else none

/-- A part of ASCII digits only, as a number that may be infinity. -/
def parseIntegerPart (part : List Char) : Option (Option Nat) :=
  (Text.digits part).map toNumber

/-- The sign of a difference, which is none of the three for two infinities. -/
def signOfDifference : Option Nat → Option Nat → Option Ordering
  | some m, some n => some (compare m n)
  | some _, none => some .lt
  | none, some _ => some .gt
  | none, none => none

def splitVersion (version : List Char) : List (List Char) :=
  ((JsText.trim version).splitOnP isSeparator).filter (fun part => !part.isEmpty)

def isZeroRemainder (parts : List (List Char)) : Bool :=
  parts.all (fun part => parseIntegerPart part == some (some 0))

section Frontend
variable (l : Locale)

def compareVersionPart (a b : List Char) : Option Ordering :=
  match parseIntegerPart a, parseIntegerPart b with
  | some m, some n => signOfDifference m n
  | _, _ => some (l.localeCompare (l.toLocaleLowerCase a) (l.toLocaleLowerCase b))

def compareParts : List (List Char) → List (List Char) → Option Ordering
  | a :: as, b :: bs =>
    match compareVersionPart l a b with
    | some .eq => compareParts as bs
    | ordering => ordering
  | [], b :: bs => some (if isZeroRemainder (b :: bs) then .eq else .lt)
  | a :: as, [] => some (if isZeroRemainder (a :: as) then .eq else .gt)
  | [], [] => some .eq

example : compareParts l [['1']] [['1'], ['0']] = some .eq := by
  rw [compareParts]
  rfl

def compareInstallerVersions (a b : List Char) : Option Ordering :=
  compareParts l (splitVersion a) (splitVersion b)

end Frontend

def nineteenNines : List Char :=
  List.replicate 19 '9'

/-- The digits of no number that the backend reads come after such a text. -/
def afterNumbers (part : List Char) : Bool :=
  (part.dropWhile (· == '9')).head?.any isAsciiAlphabetic || nineteenNines.isPrefixOf part

/-- A part that is a number both can hold exactly, or a text that comes after all numbers. -/
def plainPart (part : List Char) : Bool :=
  match Text.digits part with
  | some n => n < 2 ^ 64 && toNumber n == some n
  | none => afterNumbers part

/-- Where only zeros follow, they are written with one digit. -/
def plainZeros : List (List Char) → Bool
  | [] => true
  | part :: parts =>
    (!isZeroRemainder (part :: parts) || isZeroVersionRemainder (part :: parts)) && plainZeros parts

def plainVersion (version : List Char) : Bool :=
  (version.splitOnP isSeparator).all plainPart && plainZeros (version.splitOnP isSeparator).tail

end Installer
