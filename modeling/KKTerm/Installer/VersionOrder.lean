import KKTerm.Installer.Versions

/-!
# Plain versions are ordered

A part that is plain has a key, a number or a text after all numbers, and both comparisons
of plain versions compare the lists of their keys, where a missing key is the number zero.
-/

namespace Installer

open Bool hiding decide_eq_true not_or
open PaddedOrder Std List Text

/-- A number, or a text that comes after the numbers. -/
abbrev PartKey := Bool × Nat × List Char

def compareKeys : PartKey → PartKey → Ordering :=
  compareLex (compareOn (fun k => k.1))
    (compareLex (compareOn (fun k => k.2.1)) (compareOn (fun k => k.2.2)))

def zeroKey : PartKey :=
  (false, 0, [])

def partKey (part : List Char) : PartKey :=
  match Text.digits part with
  | some n => (false, n, [])
  | none => (true, 0, Text.asciiLower part)

instance transKeys : TransCmp compareKeys :=
  inferInstanceAs (TransCmp (compareLex _ _))

lemma compareKeys_number (m n : Nat) :
    compareKeys (false, m, []) (false, n, []) = compare m n := by
  simp [compareKeys, compareLex, compareOn]

lemma compareKeys_text (s t : List Char) :
    compareKeys (true, 0, s) (true, 0, t) = compare s t := by
  simp [compareKeys, compareLex, compareOn]

lemma compareKeys_zero_isGE (k : PartKey) : (compareKeys k zeroKey).isGE := by
  obtain ⟨text, n, t⟩ := k
  cases text with
  | true => rfl
  | false =>
    cases n with
    | succ n => rfl
    | zero => cases t <;> rfl

lemma compareKeys_zero_eq {k : PartKey} : compareKeys k zeroKey = .eq ↔ k = zeroKey := by
  constructor
  · intro same
    obtain ⟨text, n, t⟩ := k
    cases text with
    | true => cases same
    | false =>
      cases n with
      | succ n => cases same
      | zero =>
        cases t with
        | nil => rfl
        | cons c t => cases same
  · rintro rfl
    rfl

section Parts
variable {a b : List Char}

/-- The letters and digits of a version. -/
def Alphanumeric (part : List Char) : Prop :=
  ∀ c ∈ part, Text.isAsciiAlphanumeric c = true

variable {n : Nat} {c : Char}

lemma digits_eq_some (read : Text.digits a = some n) :
    a ≠ [] ∧ (∀ c ∈ a, c.isDigit = true) ∧
      n = a.foldl (fun n c => 10 * n + (c.toNat - '0'.toNat)) 0 := by
  rw [Text.digits] at read
  split_ifs at read with shape
  · rw [and_eq_true, not_eq_true', isEmpty_eq_false_iff, all_eq_true] at shape
    exact ⟨shape.1, shape.2, (Option.some.inj read).symm⟩

lemma digits_eq_none : Text.digits a = none ↔ a = [] ∨ ∃ c ∈ a, c.isDigit = false := by
  rw [Text.digits]
  split_ifs with shape
  · rw [and_eq_true, not_eq_true', isEmpty_eq_false_iff, all_eq_true] at shape
    simp only [false_iff]
    rintro (empty | ⟨c, member, other⟩)
    · exact absurd empty shape.1
    · exact absurd (shape.2 c member) (by rw [other]; exact Bool.false_ne_true)
  · refine ⟨fun _ => ?_, fun _ => rfl⟩
    by_contra all
    rw [not_or] at all
    refine shape ?_
    rw [and_eq_true, not_eq_true', isEmpty_eq_false_iff, all_eq_true]
    refine ⟨all.1, fun c member => ?_⟩
    by_contra other
    exact all.2 ⟨c, member, eq_false_iff.mpr other⟩

lemma parseU64_eq (letters : Alphanumeric a) :
    parseU64 a = (Text.digits a).filter (fun n => n ≤ 2 ^ 64 - 1) := by
  have plus : ∀ rest, a ≠ '+' :: rest := by
    rintro rest rfl
    exact absurd (letters '+' mem_cons_self) (by decide)
  rw [parseU64, parseUnsigned]
  exact plus

lemma plain_number (plain : plainPart a = true) (read : Text.digits a = some n) :
    n < 2 ^ 64 ∧ toNumber n = some n := by
  rw [plainPart, read, and_eq_true, decide_eq_true_eq, beq_iff_eq] at plain
  exact plain

lemma parseU64_plain (plain : plainPart a = true) (letters : Alphanumeric a) :
    parseU64 a = Text.digits a := by
  rw [parseU64_eq letters]
  cases read : Text.digits a with
  | none => rfl
  | some n =>
    have small := (plain_number plain read).1
    rw [Option.filter_some, if_pos (decide_eq_true (by omega))]

lemma plain_ne_nil (plain : plainPart a = true) : a ≠ [] := by
  rintro rfl
  cases plain

lemma lower_of_digit (digit : c.isDigit = true) : c.toLower = c := by
  have high : c.toNat ≤ 57 := (Char.isDigit_iff_toNat.mp digit).2
  rcases toLower_cases c with same | ⟨low, -, -⟩
  · exact same
  · omega

lemma asciiLower_of_digits (digits : ∀ c ∈ a, c.isDigit = true) : asciiLower a = a := by
  rw [asciiLower]
  have each : a.map Char.toLower = a.map id :=
    map_congr_left (fun c member => lower_of_digit (digits c member))
  rw [each, map_id]

lemma compare_cons_of_lt {d : Char} (less : c < d) (s t : List Char) :
    compare (c :: s) (d :: t) = .lt := by
  have first : compare c d = .lt := if_pos less
  rw [List.compare_eq_compareLex, List.compareLex_cons_cons, first]
  rfl

lemma compare_cons_self (c : Char) (s t : List Char) :
    compare (c :: s) (c :: t) = compare s t := by
  have own : compare c c = .eq := ReflCmp.compare_self
  rw [List.compare_eq_compareLex, List.compareLex_cons_cons, own]
  rfl

/-- Digits come before nines, or begin with as many. -/
lemma compare_nines (n : Nat) (t : List Char) (digits : ∀ c ∈ a, c.isDigit = true) :
    compare a (replicate n '9' ++ t) = .lt ∨
      ∃ rest, a = replicate n '9' ++ rest ∧
        compare a (replicate n '9' ++ t) = compare rest t := by
  induction n generalizing a with
  | zero => exact .inr ⟨a, rfl, rfl⟩
  | succ n ih =>
    cases a with
    | nil => exact .inl rfl
    | cons c a =>
      obtain ⟨here, rest⟩ := forall_mem_cons.mp digits
      have high : c.toNat ≤ 57 := (Char.isDigit_iff_toNat.mp here).2
      by_cases nine : c = '9'
      · subst nine
        rw [replicate_succ, cons_append, compare_cons_self]
        rcases ih rest with less | ⟨more, rfl, same⟩
        · exact .inl less
        · exact .inr ⟨more, rfl, same⟩
      · refine Or.inl (compare_cons_of_lt ?_ _ _)
        have other : c.toNat ≠ 57 := fun same => nine (Char.toNat_inj.mp same)
        have less : c.toNat < 57 := by omega
        exact less

lemma foldl_digits_ge (t : List Char) (n : Nat) :
    n * 10 ^ t.length ≤ t.foldl (fun n c => 10 * n + (c.toNat - '0'.toNat)) n := by
  induction t generalizing n with
  | nil => simp
  | cons c t ih =>
    have later := ih (10 * n + (c.toNat - '0'.toNat))
    have more : n * 10 ^ (c :: t).length ≤ (10 * n + (c.toNat - '0'.toNat)) * 10 ^ t.length := by
      rw [length_cons, Nat.pow_succ, Nat.add_mul]
      refine Nat.le_trans (Nat.le_of_eq ?_) (Nat.le_add_right _ _)
      rw [Nat.mul_comm (10 ^ t.length) 10, ← Nat.mul_assoc, Nat.mul_comm n 10]
    exact Nat.le_trans more later

lemma toLower_gt (letter : isAsciiAlphabetic c = true) : 57 < c.toLower.toNat := by
  rw [isAsciiAlphabetic] at letter
  simp only [or_eq_true, and_eq_true, decide_eq_true_eq] at letter
  rcases toLower_cases c with same | ⟨low, -, moved⟩
  · rw [same]
    omega
  · omega

lemma asciiLower_nines (n : Nat) (t : List Char) :
    asciiLower (replicate n '9' ++ t) = replicate n '9' ++ asciiLower t := by
  rw [asciiLower, map_append, map_replicate]
  rfl

/-- A text begins with some copies of a character, and goes on with another. -/
lemma copies_append (c : Char) (t : List Char) :
    ∃ n, t = replicate n c ++ t.dropWhile (· == c) ∧
      (t.dropWhile (· == c)).head? ≠ some c := by
  induction t with
  | nil => exact ⟨0, rfl, nofun⟩
  | cons d t ih =>
    by_cases same : d = c
    · subst same
      obtain ⟨n, split, other⟩ := ih
      rw [dropWhile_cons, if_pos (beq_self_eq_true d)]
      refine ⟨n + 1, ?_, other⟩
      rw [replicate_succ, cons_append, ← split]
    · rw [dropWhile_cons, if_neg (by rw [beq_iff_eq]; exact same)]
      exact ⟨0, rfl, fun head => same (Option.some.inj head)⟩

/-- Twenty digits that begin with nineteen nines are too many. -/
lemma nines_too_many {rest : List Char}
    (read : Text.digits (replicate 19 '9' ++ c :: rest) = some n) : 2 ^ 64 ≤ n := by
  obtain ⟨-, -, value⟩ := digits_eq_some read
  have large := foldl_digits_ge (c :: rest) (10 ^ 19 - 1)
  have split : n = (c :: rest).foldl (fun n c => 10 * n + (c.toNat - '0'.toNat)) (10 ^ 19 - 1) := by
    rw [value, foldl_append]
    rfl
  have more : (10 ^ 19 - 1) * 10 ≤ (10 ^ 19 - 1) * 10 ^ (c :: rest).length := by
    refine Nat.mul_le_mul_left _ (Nat.le_self_pow ?_ 10)
    exact Nat.succ_ne_zero _
  omega

lemma compare_number_text (read : Text.digits a = some n) (small : n < 2 ^ 64)
    (plain : plainPart b = true) (text : Text.digits b = none) :
    compare (asciiLower a) (asciiLower b) = .lt := by
  obtain ⟨nonempty, digits, -⟩ := digits_eq_some read
  rw [asciiLower_of_digits digits]
  rw [plainPart, text] at plain
  rcases or_eq_true _ _ ▸ plain with letter | nines
  · obtain ⟨k, same, -⟩ := copies_append '9' b
    rw [same, asciiLower_nines]
    cases behind : b.dropWhile (· == '9') with
    | nil =>
      rw [behind] at letter
      cases letter
    | cons c rest =>
      rw [behind] at letter
      rcases compare_nines k (asciiLower (c :: rest)) digits with less | ⟨more, rfl, equal⟩
      · exact less
      · rw [equal]
        cases more with
        | nil => rfl
        | cons d more =>
          have digit := digits d (mem_append_right _ mem_cons_self)
          have high : d.toNat ≤ 57 := (Char.isDigit_iff_toNat.mp digit).2
          have low : 57 < c.toLower.toNat := toLower_gt letter
          have less : d.toNat < c.toLower.toNat := by omega
          exact compare_cons_of_lt less _ _
  · obtain ⟨t, rfl⟩ := isPrefixOf_iff_prefix.mp nines
    rw [nineteenNines, asciiLower_nines]
    rcases compare_nines 19 (asciiLower t) digits with less | ⟨rest, rfl, equal⟩
    · exact less
    · rw [equal]
      cases rest with
      | cons c rest =>
        have large := nines_too_many read
        omega
      | nil =>
        cases t with
        | cons c t => rfl
        | nil =>
          rw [append_nil] at text
          cases text

lemma compareWingetVersionPart_swap (a b : List Char) :
    compareWingetVersionPart b a = (compareWingetVersionPart a b).swap := by
  have text : compare (asciiLower b) (asciiLower a) =
      (compare (asciiLower a) (asciiLower b)).swap := OrientedCmp.eq_swap
  rw [compareWingetVersionPart, compareWingetVersionPart]
  cases parseU64 a with
  | none => cases parseU64 b <;> exact text
  | some m =>
    cases parseU64 b with
    | none => exact text
    | some n =>
      have number : compare n m = (compare m n).swap := OrientedCmp.eq_swap
      exact number

lemma compareWingetVersionPart_plain (plain : plainPart a = true) (letters : Alphanumeric a)
    (plain' : plainPart b = true) (letters' : Alphanumeric b) :
    compareWingetVersionPart a b = compareKeys (partKey a) (partKey b) := by
  rw [compareWingetVersionPart, parseU64_plain plain letters, parseU64_plain plain' letters',
    partKey, partKey]
  cases read : Text.digits a with
  | none =>
    cases read' : Text.digits b with
    | none => exact (compareKeys_text _ _).symm
    | some n =>
      have less := compare_number_text read' (plain_number plain' read').1 plain read
      exact OrientedCmp.gt_of_lt less
  | some m =>
    cases read' : Text.digits b with
    | none => exact compare_number_text read (plain_number plain read).1 plain' read'
    | some n => exact (compareKeys_number m n).symm

lemma zeroKey_iff : partKey a = zeroKey ↔ Text.digits a = some 0 := by
  rw [partKey, zeroKey]
  cases Text.digits a with
  | none => exact ⟨nofun, nofun⟩
  | some n =>
    constructor
    · intro same
      rw [(Prod.mk.inj (Prod.mk.inj same).2).1]
    · intro same
      rw [Option.some.inj same]

lemma isZeroRemainder_plain {parts : List (List Char)} (plain : ∀ p ∈ parts, plainPart p = true) :
    isZeroRemainder parts = true ↔ ∀ p ∈ parts, partKey p = zeroKey := by
  rw [isZeroRemainder, all_eq_true]
  refine forall₂_congr (fun p member => ?_)
  rw [beq_iff_eq, parseIntegerPart, zeroKey_iff]
  cases read : Text.digits p with
  | none => exact ⟨nofun, nofun⟩
  | some n =>
    rw [Option.map_some, (plain_number (plain p member) read).2, Option.some.injEq,
      Option.some.injEq]

end Parts

section Lists
variable {as bs : List (List Char)}

/-- The parts that a plain version has. -/
structure PlainParts (parts : List (List Char)) : Prop where
  plain : ∀ p ∈ parts, plainPart p = true
  letters : ∀ p ∈ parts, Alphanumeric p

variable (l : Locale) {a : List Char}

lemma PlainParts.head (h : PlainParts (a :: as)) : plainPart a = true ∧ Alphanumeric a :=
  ⟨h.plain a mem_cons_self, h.letters a mem_cons_self⟩

lemma PlainParts.tail (h : PlainParts (a :: as)) : PlainParts as :=
  ⟨fun p member => h.plain p (mem_cons_of_mem a member),
    fun p member => h.letters p (mem_cons_of_mem a member)⟩

lemma toNumber_zero : toNumber 0 = some 0 := by
  have rounded : roundToEven 0 = 0 := by decide
  rw [toNumber, rounded, if_pos infinityBound_pos]

lemma isZeroRemainder_of_zeros (zeros : isZeroVersionRemainder as = true) :
    isZeroRemainder as = true := by
  rw [isZeroVersionRemainder, all_eq_true] at zeros
  rw [isZeroRemainder, all_eq_true]
  intro p member
  have read : Text.digits ['0'] = some 0 := rfl
  rw [beq_iff_eq.mp (zeros p member), parseIntegerPart, read, Option.map_some, toNumber_zero]
  rfl

lemma plainZeros_cons (zeros : plainZeros (a :: as) = true) :
    isZeroVersionRemainder (a :: as) = isZeroRemainder (a :: as) ∧ plainZeros as = true := by
  rw [plainZeros, and_eq_true, or_eq_true, not_eq_true'] at zeros
  refine ⟨?_, zeros.2⟩
  rcases zeros.1 with other | same
  · rw [other, eq_false_iff]
    intro all
    rw [isZeroRemainder_of_zeros all] at other
    cases other
  · rw [same, isZeroRemainder_of_zeros same]

lemma compareWingetParts_swap (as bs : List (List Char)) :
    compareWingetParts bs as = (compareWingetParts as bs).swap := by
  induction as generalizing bs with
  | nil =>
    cases bs with
    | nil => rfl
    | cons b bs =>
      rw [compareWingetParts, compareWingetParts]
      split_ifs <;> rfl
  | cons a as ih =>
    cases bs with
    | nil =>
      rw [compareWingetParts, compareWingetParts]
      split_ifs <;> rfl
    | cons b bs =>
      rw [compareWingetParts, compareWingetParts, compareWingetVersionPart_swap a b]
      cases compareWingetVersionPart a b with
      | lt => rfl
      | eq => exact ih bs
      | gt => rfl

lemma compareWingetParts_nil (parts : PlainParts as) (zeros : plainZeros as = true) :
    compareWingetParts as [] = compareLists compareKeys zeroKey (as.map partKey) [] := by
  cases as with
  | nil => rfl
  | cons a as =>
    have all : isZeroVersionRemainder (a :: as) = true ↔
        ∀ k ∈ (a :: as).map partKey, compareKeys k zeroKey = .eq := by
      rw [(plainZeros_cons zeros).1, isZeroRemainder_plain parts.plain, forall_mem_map]
      exact forall₂_congr (fun p _ => compareKeys_zero_eq.symm)
    rw [compareWingetParts]
    rcases compareLists_nil compareKeys_zero_isGE ((a :: as).map partKey) with
      ⟨missing, same⟩ | ⟨more, greater⟩
    · rw [if_pos (all.mpr missing), same]
    · rw [if_neg (fun h => more (all.mp h)), greater]

lemma compareWingetParts_plain (parts : PlainParts as) (zeros : plainZeros as = true)
    (parts' : PlainParts bs) (zeros' : plainZeros bs = true) :
    compareWingetParts as bs =
      compareLists compareKeys zeroKey (as.map partKey) (bs.map partKey) := by
  induction as generalizing bs with
  | nil =>
    rw [compareWingetParts_swap, compareWingetParts_nil parts' zeros', ← compareLists_swap]
    rfl
  | cons a as ih =>
    cases bs with
    | nil => exact compareWingetParts_nil parts zeros
    | cons b bs =>
      rw [compareWingetParts, map_cons, map_cons, compareLists_cons,
        compareWingetVersionPart_plain parts.head.1 parts.head.2 parts'.head.1 parts'.head.2,
        ih parts.tail (plainZeros_cons zeros).2 parts'.tail (plainZeros_cons zeros').2]
      cases compareKeys (partKey a) (partKey b) <;> rfl

/-- The frontend compares plain parts as the backend does. -/
lemma compareVersionPart_plain {b : List Char} (plain : plainPart a = true)
    (letters : Alphanumeric a) (plain' : plainPart b = true) (letters' : Alphanumeric b) :
    compareVersionPart l a b = some (compareWingetVersionPart a b) := by
  have text : some (l.localeCompare (l.toLocaleLowerCase a) (l.toLocaleLowerCase b)) =
      some (compare (asciiLower a) (asciiLower b)) := by
    rw [l.lower_ascii a letters, l.lower_ascii b letters', l.compare_ascii a b letters letters']
  rw [compareVersionPart, compareWingetVersionPart, parseU64_plain plain letters,
    parseU64_plain plain' letters', parseIntegerPart, parseIntegerPart]
  cases read : Text.digits a with
  | none => cases Text.digits b <;> exact text
  | some m =>
    cases read' : Text.digits b with
    | none => exact text
    | some n =>
      rw [Option.map_some, Option.map_some, (plain_number plain read).2,
        (plain_number plain' read').2]
      rfl

lemma compareParts_plain (parts : PlainParts as) (zeros : plainZeros as = true)
    (parts' : PlainParts bs) (zeros' : plainZeros bs = true) :
    compareParts l as bs = some (compareWingetParts as bs) := by
  induction as generalizing bs with
  | nil =>
    cases bs with
    | nil => rfl
    | cons b bs => rw [compareParts, compareWingetParts, (plainZeros_cons zeros').1]
  | cons a as ih =>
    cases bs with
    | nil => rw [compareParts, compareWingetParts, (plainZeros_cons zeros).1]
    | cons b bs =>
      rw [compareParts, compareWingetParts,
        compareVersionPart_plain l parts.head.1 parts.head.2 parts'.head.1 parts'.head.2]
      cases compareWingetVersionPart a b with
      | lt => rfl
      | eq => exact ih parts.tail (plainZeros_cons zeros).2 parts'.tail (plainZeros_cons zeros').2
      | gt => rfl

end Lists

section Versions
variable {a b c : List Char}

/-- A version that the backend looks at. -/
def Accepted (version : List Char) : Prop :=
  looksLikeWingetVersionValue version = true

lemma accepted_chars (accepted : Accepted a) :
    ∀ c ∈ a, isAsciiAlphanumeric c = true ∨ isSeparator c = true := by
  rw [Accepted, looksLikeWingetVersionValue, and_eq_true, all_eq_true] at accepted
  intro c member
  exact or_eq_true _ _ ▸ accepted.2 c member

lemma mem_splitOnP {p : Char → Bool} {t part : List Char} {c : Char}
    (member : part ∈ t.splitOnP p) (inside : c ∈ part) : c ∈ t ∧ p c = false := by
  induction t generalizing part with
  | nil =>
    rw [splitOnP_nil, mem_singleton] at member
    rw [member] at inside
    exact absurd inside not_mem_nil
  | cons d t ih =>
    rw [splitOnP_cons_eq_if_modifyHead] at member
    split_ifs at member with sep
    · rcases mem_cons.mp member with rfl | later
      · exact absurd inside not_mem_nil
      · obtain ⟨old, other⟩ := ih later inside
        exact ⟨mem_cons_of_mem d old, other⟩
    · cases pieces : t.splitOnP p with
      | nil => exact absurd pieces (splitOnP_ne_nil _ _)
      | cons first rest =>
        rw [pieces, modifyHead_cons] at member
        rw [pieces] at ih
        rcases mem_cons.mp member with rfl | later
        · rcases mem_cons.mp inside with rfl | behind
          · exact ⟨mem_cons_self, eq_false_iff.mpr sep⟩
          · obtain ⟨old, other⟩ := ih mem_cons_self behind
            exact ⟨mem_cons_of_mem d old, other⟩
        · obtain ⟨old, other⟩ := ih (mem_cons_of_mem first later) inside
          exact ⟨mem_cons_of_mem d old, other⟩

lemma accepted_letters (accepted : Accepted a) :
    ∀ part ∈ a.splitOnP isSeparator, Alphanumeric part := by
  intro part member c inside
  obtain ⟨old, other⟩ := mem_splitOnP member inside
  rcases accepted_chars accepted c old with letter | sep
  · exact letter
  · rw [other] at sep
    cases sep

/-- The parts of a plain version, of which the first counts even when it is zero. -/
lemma plainVersion_parts (accepted : Accepted a) (plain : plainVersion a = true) :
    ∃ first rest, a.splitOnP isSeparator = first :: rest ∧ PlainParts (first :: rest) ∧
      plainZeros rest = true := by
  rw [plainVersion, and_eq_true, all_eq_true] at plain
  have letters := accepted_letters accepted
  cases parts : a.splitOnP isSeparator with
  | nil => exact absurd parts (splitOnP_ne_nil _ _)
  | cons first rest =>
    rw [parts] at plain letters
    exact ⟨first, rest, rfl, ⟨plain.1, letters⟩, plain.2⟩

def versionKeys (version : List Char) : List PartKey :=
  (version.splitOnP isSeparator).map partKey

/-- Plain versions are compared as the lists of their keys. -/
lemma compareWingetVersions_plain (accepted : Accepted a) (plain : plainVersion a = true)
    (accepted' : Accepted b) (plain' : plainVersion b = true) :
    compareWingetVersions a b =
      compareLists compareKeys zeroKey (versionKeys a) (versionKeys b) := by
  obtain ⟨first, rest, same, parts, zeros⟩ := plainVersion_parts accepted plain
  obtain ⟨first', rest', same', parts', zeros'⟩ := plainVersion_parts accepted' plain'
  rw [compareWingetVersions, versionKeys, versionKeys, same, same', compareWingetParts,
    map_cons, map_cons, compareLists_cons,
    compareWingetVersionPart_plain parts.head.1 parts.head.2 parts'.head.1 parts'.head.2,
    compareWingetParts_plain parts.tail zeros parts'.tail zeros']
  cases compareKeys (partKey first) (partKey first') <;> rfl

lemma isSpace_of_accepted {c : Char} (kept : isAsciiAlphanumeric c = true ∨ isSeparator c = true) :
    JsText.isSpace c = false := by
  rcases kept with letter | sep
  · rw [isAsciiAlphanumeric] at letter
    simp only [or_eq_true, and_eq_true, decide_eq_true_eq] at letter
    have low : 48 ≤ c.toNat := by omega
    have high : c.toNat ≤ 122 := by omega
    clear letter
    simp only [JsText.isSpace]
    grind
  · simp only [isSeparator, or_eq_true, beq_iff_eq] at sep
    rcases sep with ((rfl | rfl) | rfl) | rfl <;> rfl

lemma splitVersion_plain (accepted : Accepted a) (plain : plainVersion a = true) :
    splitVersion a = a.splitOnP isSeparator := by
  rw [splitVersion, JsText.trim_of_dark (fun c member =>
    isSpace_of_accepted (accepted_chars accepted c member)), filter_eq_self]
  rw [plainVersion, and_eq_true, all_eq_true] at plain
  intro part member
  rw [not_eq_true', isEmpty_eq_false_iff]
  exact plain_ne_nil (plain.1 part member)

lemma compareInstallerVersions_plain (l : Locale) (accepted : Accepted a)
    (plain : plainVersion a = true) (accepted' : Accepted b) (plain' : plainVersion b = true) :
    compareInstallerVersions l a b = some (compareWingetVersions a b) := by
  rw [compareInstallerVersions, splitVersion_plain accepted plain,
    splitVersion_plain accepted' plain', compareWingetVersions]
  obtain ⟨first, rest, same, parts, zeros⟩ := plainVersion_parts accepted plain
  obtain ⟨first', rest', same', parts', zeros'⟩ := plainVersion_parts accepted' plain'
  rw [same, same', compareParts, compareWingetParts,
    compareVersionPart_plain l parts.head.1 parts.head.2 parts'.head.1 parts'.head.2]
  cases compareWingetVersionPart first first' with
  | lt => rfl
  | eq => exact compareParts_plain l parts.tail zeros parts'.tail zeros'
  | gt => rfl

lemma compareWingetVersions_swap (a b : List Char) :
    compareWingetVersions b a = (compareWingetVersions a b).swap :=
  compareWingetParts_swap _ _

lemma compareWingetVersions_trans (accepted : Accepted a) (plain : plainVersion a = true)
    (accepted' : Accepted b) (plain' : plainVersion b = true) (accepted'' : Accepted c)
    (plain'' : plainVersion c = true) (first : (compareWingetVersions a b).isLE)
    (second : (compareWingetVersions b c).isLE) : (compareWingetVersions a c).isLE := by
  rw [compareWingetVersions_plain accepted plain accepted' plain'] at first
  rw [compareWingetVersions_plain accepted' plain' accepted'' plain''] at second
  rw [compareWingetVersions_plain accepted plain accepted'' plain'']
  exact compareLists_trans first second

lemma latest_not_older {entries : List GithubContentEntry} {version : List Char}
    (plain : ∀ v ∈ eligibleVersions entries, plainVersion v = true)
    (latest : latestWingetManifestVersionFromEntries entries = some version) :
    version ∈ eligibleVersions entries ∧
      ∀ v ∈ eligibleVersions entries, (compareWingetVersions v version).isLE := by
  have accepted : ∀ v ∈ eligibleVersions entries, Accepted v :=
    fun v member => (mem_filter.mp member).2
  refine maxBy_greatest (fun a _ b _ => compareWingetVersions_swap a b) ?_ latest
  intro a ha b hb c hc
  exact compareWingetVersions_trans (accepted a ha) (plain a ha) (accepted b hb) (plain b hb)
    (accepted c hc) (plain c hc)

end Versions

end Installer
