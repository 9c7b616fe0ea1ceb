import KKTerm.Installer.VersionOrder
import Mathlib.Data.List.Forall2

/-!
# Versions that are not plain

Each of them fails with some other versions: the two comparisons disagree, or the one of the
backend is not transitive.
-/

namespace Installer

open Char
open Bool hiding decide_eq_true
open PaddedOrder Std List Text

section Parts
variable {a b : List Char} {parts : List (List Char)}

lemma not_separator {c : Char} (letter : isAsciiAlphanumeric c = true) :
    isSeparator c = false := by
  rw [eq_false_iff]
  intro sep
  simp only [isSeparator, or_eq_true, beq_iff_eq] at sep
  rcases sep with ((rfl | rfl) | rfl) | rfl <;> cases letter

lemma splitOnP_intercalate (letters : ∀ p ∈ parts, Alphanumeric p) (nonempty : parts ≠ []) :
    (intercalate ['.'] parts).splitOnP isSeparator = parts := by
  induction parts with
  | nil => exact absurd rfl nonempty
  | cons p parts ih =>
    obtain ⟨here, rest⟩ := forall_mem_cons.mp letters
    have fresh : ∀ c ∈ p, isSeparator c = false := fun c member => not_separator (here c member)
    cases parts with
    | nil =>
      rw [intercalate_singleton]
      exact splitOnP_eq_singleton fresh
    | cons q parts =>
      rw [intercalate_cons_cons, append_assoc, singleton_append,
        splitOnP_append_cons_of_forall_mem fresh '.' rfl, ih rest (cons_ne_nil q parts)]

/-- The parts that a version can have: the first begins with a digit. -/
structure VersionParts (parts : List (List Char)) : Prop where
  letters : ∀ p ∈ parts, Alphanumeric p
  digit : ∃ d t rest, parts = (d :: t) :: rest ∧ Text.isAsciiDigit d = true

lemma accepted_parts (accepted : Accepted a) : VersionParts (a.splitOnP isSeparator) := by
  refine ⟨accepted_letters accepted, ?_⟩
  rw [Accepted, looksLikeWingetVersionValue, and_eq_true] at accepted
  cases a with
  | nil => cases accepted.1
  | cons d t =>
    have digit : isAsciiDigit d = true := accepted.1
    have letter : isAsciiAlphanumeric d = true := by
      simp only [isAsciiDigit, and_eq_true, decide_eq_true_eq] at digit
      simp only [isAsciiAlphanumeric, or_eq_true, and_eq_true, decide_eq_true_eq]
      omega
    rw [splitOnP_cons_eq_if_modifyHead, if_neg (by simp [not_separator letter])]
    cases pieces : t.splitOnP isSeparator with
    | nil => exact absurd pieces (splitOnP_ne_nil _ _)
    | cons first rest => exact ⟨d, first, rest, rfl, digit⟩

lemma exists_version (h : VersionParts parts) :
    ∃ v, Accepted v ∧ v.splitOnP isSeparator = parts := by
  obtain ⟨d, t, rest, same, digit⟩ := h.digit
  have nonempty : parts ≠ [] := by
    rw [same]
    exact cons_ne_nil _ _
  refine ⟨intercalate ['.'] parts, ?_, splitOnP_intercalate h.letters nonempty⟩
  rw [Accepted, looksLikeWingetVersionValue, and_eq_true, all_eq_true]
  refine ⟨?_, fun c member => ?_⟩
  · rw [same]
    cases rest <;> exact digit
  · rw [or_eq_true]
    rcases mem_intercalate member with dot | ⟨p, part, inside⟩
    · rw [mem_singleton.mp dot]
      exact .inr rfl
    · exact .inl (h.letters p part c inside)

lemma VersionParts.replace {front back : List (List Char)} (h : VersionParts (front ++ a :: back))
    (letters : Alphanumeric b) (digit : b.head?.any isAsciiDigit = true) :
    VersionParts (front ++ b :: back) := by
  refine ⟨fun p member => ?_, ?_⟩
  · rcases mem_append.mp member with before | rest
    · exact h.letters p (mem_append_left _ before)
    · rcases mem_cons.mp rest with rfl | after
      · exact letters
      · exact h.letters p (mem_append_right _ (mem_cons_of_mem a after))
  · cases front with
    | nil =>
      cases b with
      | nil => cases digit
      | cons d t => exact ⟨d, t, back, rfl, digit⟩
    | cons first front =>
      obtain ⟨d, t, rest, same, digit'⟩ := h.digit
      obtain ⟨here, -⟩ := List.cons.inj same
      exact ⟨d, t, front ++ b :: back, by rw [cons_append, here], digit'⟩

end Parts

section Same
variable {l : Locale} {a b : List Char} {as bs cs : List (List Char)}

def Indistinct (result : Option Ordering) : Prop :=
  result = none ∨ result = some .eq

lemma compareVersionPart_self (letters : Alphanumeric a) :
    Indistinct (compareVersionPart l a a) := by
  rw [compareVersionPart]
  cases parseIntegerPart a with
  | none =>
    have own : compare (asciiLower a) (asciiLower a) = .eq := ReflCmp.compare_self
    refine Or.inr ?_
    simp only [l.lower_ascii a letters, l.compare_ascii a a letters letters, own]
  | some m =>
    cases m with
    | none => exact .inl rfl
    | some m =>
      have own : compare m m = .eq := ReflCmp.compare_self
      exact .inr (congrArg some own)

lemma compareVersionPart_number {m n : Nat} (read : Text.digits a = some m)
    (read' : Text.digits b = some n) (same : toNumber m = toNumber n) :
    Indistinct (compareVersionPart l a b) := by
  rw [compareVersionPart, parseIntegerPart, parseIntegerPart, read, read', Option.map_some,
    Option.map_some, same]
  cases toNumber n with
  | none => exact .inl rfl
  | some n =>
    have own : compare n n = .eq := ReflCmp.compare_self
    exact .inr (congrArg some own)

/-- Parts taken for equal, and then zeros that the other version lacks. -/
lemma compareParts_indistinct
    (each : Forall₂ (fun a b => Indistinct (compareVersionPart l a b)) as bs)
    (zeros : isZeroRemainder cs = true) : Indistinct (compareParts l (as ++ cs) bs) := by
  induction each with
  | nil =>
    cases cs with
    | nil => exact .inr rfl
    | cons c cs =>
      refine Or.inr ?_
      rw [nil_append, compareParts, if_pos zeros]
  | cons here rest ih =>
    rw [cons_append, compareParts]
    rcases here with other | same
    · rw [other]
      exact .inl rfl
    · rw [same]
      exact ih

lemma compareParts_same
    (each : Forall₂ (fun a b => Indistinct (compareVersionPart l a b)) as bs) :
    Indistinct (compareParts l as bs) := by
  have no_zeros : isZeroRemainder [] = true := rfl
  have equal := compareParts_indistinct each no_zeros
  rw [append_nil] at equal
  exact equal

lemma forall₂_self (letters : ∀ p ∈ as, Alphanumeric p) :
    Forall₂ (fun a b => Indistinct (compareVersionPart l a b)) as as :=
  forall₂_same.mpr (fun p member => compareVersionPart_self (letters p member))

lemma forall₂_replace {front back : List (List Char)}
    (letters : ∀ p ∈ front ++ a :: back, Alphanumeric p)
    (here : Indistinct (compareVersionPart l a b)) :
    Forall₂ (fun a b => Indistinct (compareVersionPart l a b)) (front ++ a :: back)
      (front ++ b :: back) := by
  induction front with
  | nil => exact .cons here (forall₂_self (fun p member => letters p (mem_cons_of_mem a member)))
  | cons p front ih =>
    obtain ⟨first, rest⟩ := forall_mem_cons.mp letters
    exact .cons (compareVersionPart_self first) (ih rest)

lemma compareWingetVersionPart_self (a : List Char) : compareWingetVersionPart a a = .eq := by
  have text : compare (asciiLower a) (asciiLower a) = .eq := ReflCmp.compare_self
  rw [compareWingetVersionPart]
  cases parseU64 a with
  | none => exact text
  | some n =>
    have number : compare n n = .eq := ReflCmp.compare_self
    exact number

lemma compareWingetParts_append (front as bs : List (List Char)) :
    compareWingetParts (front ++ as) (front ++ bs) = compareWingetParts as bs := by
  induction front with
  | nil => rfl
  | cons p front ih =>
    rw [cons_append, cons_append, compareWingetParts, compareWingetVersionPart_self]
    exact ih

lemma compareWingetParts_head (front : List (List Char)) (rest rest' : List (List Char))
    (apart : compareWingetVersionPart a b ≠ .eq) :
    compareWingetParts (front ++ a :: rest) (front ++ b :: rest') =
      compareWingetVersionPart a b := by
  rw [compareWingetParts_append, compareWingetParts]
  cases order : compareWingetVersionPart a b with
  | lt => rfl
  | eq => exact absurd order apart
  | gt => rfl

/-- Two texts of digits are equal to the backend only as numbers it can read. -/
lemma compareWingetVersionPart_digits {m n : Nat} (read : Text.digits a = some m)
    (read' : Text.digits b = some n) (letters : Alphanumeric a) (letters' : Alphanumeric b)
    (differ : a ≠ b) (apart : m = n → 2 ^ 64 ≤ n) : compareWingetVersionPart a b ≠ .eq := by
  have lower := asciiLower_of_digits (digits_eq_some read).2.1
  have lower' := asciiLower_of_digits (digits_eq_some read').2.1
  have text : compare (asciiLower a) (asciiLower b) ≠ .eq := by
    rw [lower, lower']
    intro same
    exact differ (LawfulEqCmp.compare_eq_iff_eq.mp same)
  rw [compareWingetVersionPart, parseU64_eq letters, parseU64_eq letters', read, read',
    Option.filter_some, Option.filter_some]
  split_ifs with first second
  · intro same
    have number : compare m n = .eq := same
    have equal : m = n := LawfulEqCmp.compare_eq_iff_eq.mp number
    have large := apart equal
    have small := of_decide_eq_true second
    omega
  · exact text
  · exact text
  · exact text

end Same

section Disagreement
variable (l : Locale) {v : List Char}

/-- The two comparisons have different results. -/
def Disagree (a b : List Char) : Prop :=
  compareInstallerVersions l a b ≠ some (compareWingetVersions a b)

variable {l}

variable {a b : List Char} {parts : List (List Char)}

lemma disagree_of_indistinct (taken : Indistinct (compareInstallerVersions l a b))
    (apart : compareWingetVersions a b ≠ .eq) : Disagree l a b := by
  intro same
  rcases taken with none_ | equal
  · rw [same] at none_
    cases none_
  · rw [same] at equal
    exact apart (Option.some.inj equal)

lemma splitVersion_accepted (accepted : Accepted a) :
    splitVersion a = (a.splitOnP isSeparator).filter (fun part => !part.isEmpty) := by
  rw [splitVersion, JsText.trim_of_dark (fun c member =>
    isSpace_of_accepted (accepted_chars accepted c member))]

lemma filter_of_full (full : [] ∉ parts) : parts.filter (fun part => !part.isEmpty) = parts := by
  rw [filter_eq_self]
  intro part member
  rw [not_eq_true', isEmpty_eq_false_iff]
  rintro rfl
  exact full member

/-- To the backend an empty part comes before all others. -/
lemma compareWingetParts_filter (empty : [] ∈ parts) :
    compareWingetParts parts (parts.filter (fun part => !part.isEmpty)) ≠ .eq := by
  induction parts with
  | nil => exact absurd empty not_mem_nil
  | cons p parts ih =>
    cases p with
    | cons c p =>
      rw [filter_cons_of_pos rfl, compareWingetParts, compareWingetVersionPart_self]
      exact ih ((mem_cons.mp empty).resolve_left (by simp))
    | nil =>
      rw [filter_cons_of_neg (by simp)]
      cases rest : parts.filter (fun part => !part.isEmpty) with
      | nil =>
        rw [compareWingetParts, if_neg (by simp [isZeroVersionRemainder])]
        simp
      | cons q more =>
        have kept : q ∈ parts.filter (fun part => !part.isEmpty) := by
          rw [rest]
          exact mem_cons_self
        have full := (mem_filter.mp kept).2
        cases q with
        | nil => cases full
        | cons d q =>
          have less : compareWingetVersionPart [] (d :: q) = .lt := rfl
          rw [compareWingetParts, less]
          simp

lemma disagree_empty (accepted : Accepted v) (empty : [] ∈ v.splitOnP isSeparator) :
    ∃ b, Accepted b ∧ Disagree l v b := by
  have h := accepted_parts accepted
  have parts : VersionParts ((v.splitOnP isSeparator).filter (fun part => !part.isEmpty)) := by
    refine ⟨fun p member => h.letters p (mem_filter.mp member).1, ?_⟩
    obtain ⟨d, t, rest, same, digit⟩ := h.digit
    exact ⟨d, t, rest.filter (fun part => !part.isEmpty), by rw [same, filter_cons_of_pos rfl],
      digit⟩
  obtain ⟨b, accepted', same⟩ := exists_version parts
  refine ⟨b, accepted', disagree_of_indistinct ?_ ?_⟩
  · rw [compareInstallerVersions, splitVersion_accepted accepted, splitVersion_accepted accepted',
      same, filter_filter]
    simp only [Bool.and_self]
    exact compareParts_same (forall₂_self parts.letters)
  · rw [compareWingetVersions, same]
    exact compareWingetParts_filter empty

/-- Where only zeros follow that are not all written with one digit. -/
lemma exists_zeros (other : plainZeros parts = false) :
    ∃ front zeros, parts = front ++ zeros ∧ isZeroRemainder zeros = true ∧
      isZeroVersionRemainder zeros = false := by
  induction parts with
  | nil => cases other
  | cons p parts ih =>
    rw [plainZeros, and_eq_false_iff] at other
    rcases other with here | later
    · rw [or_eq_false_iff, not_eq_false'] at here
      exact ⟨[], p :: parts, rfl, here.1, here.2⟩
    · obtain ⟨front, zeros, rfl, all, some_⟩ := ih later
      exact ⟨p :: front, zeros, rfl, all, some_⟩

lemma disagree_zeros (accepted : Accepted v) (full : [] ∉ v.splitOnP isSeparator)
    (other : plainZeros (v.splitOnP isSeparator).tail = false) :
    ∃ b, Accepted b ∧ Disagree l v b := by
  have h := accepted_parts accepted
  obtain ⟨d, t, rest, same, digit⟩ := h.digit
  rw [same, tail_cons] at other
  obtain ⟨front, zeros, rfl, all, some_⟩ := exists_zeros other
  have split : v.splitOnP isSeparator = ((d :: t) :: front) ++ zeros := same
  have parts : VersionParts ((d :: t) :: front) := by
    refine ⟨fun p member => h.letters p ?_, d, t, front, rfl, digit⟩
    rw [split]
    exact mem_append_left _ member
  obtain ⟨b, accepted', same'⟩ := exists_version parts
  have full' : [] ∉ b.splitOnP isSeparator := by
    intro empty
    rw [same'] at empty
    exact full (split ▸ mem_append_left _ empty)
  refine ⟨b, accepted', disagree_of_indistinct ?_ ?_⟩
  · rw [compareInstallerVersions, splitVersion_accepted accepted, splitVersion_accepted accepted',
      filter_of_full full, filter_of_full full', split, same']
    exact compareParts_indistinct (forall₂_self parts.letters) all
  · have whole := compareWingetParts_append ((d :: t) :: front) zeros []
    rw [append_nil] at whole
    rw [compareWingetVersions, split, same', whole]
    cases zeros with
    | nil => cases some_
    | cons z zeros =>
      rw [compareWingetParts, if_neg (by simp [some_])]
      simp

/-- A part may be replaced by one that only the backend tells apart from it. -/
lemma disagree_replace {front back : List (List Char)} (accepted : Accepted v)
    (full : [] ∉ v.splitOnP isSeparator) (split : v.splitOnP isSeparator = front ++ a :: back)
    (letters : Alphanumeric b) (digit : b.head?.any isAsciiDigit = true)
    (taken : Indistinct (compareVersionPart l a b)) (apart : compareWingetVersionPart a b ≠ .eq) :
    ∃ b, Accepted b ∧ Disagree l v b := by
  have h := accepted_parts accepted
  rw [split] at h
  have parts := h.replace letters digit
  obtain ⟨w, accepted', same⟩ := exists_version parts
  have full' : [] ∉ w.splitOnP isSeparator := by
    intro empty
    rw [same] at empty
    rw [split] at full
    rcases mem_append.mp empty with before | rest
    · exact full (mem_append_left _ before)
    · rcases mem_cons.mp rest with rfl | after
      · cases digit
      · exact full (mem_append_right _ (mem_cons_of_mem a after))
  refine ⟨w, accepted', disagree_of_indistinct ?_ ?_⟩
  · rw [compareInstallerVersions, splitVersion_accepted accepted, splitVersion_accepted accepted',
      filter_of_full full, filter_of_full full', split, same]
    exact compareParts_same (forall₂_replace h.letters taken)
  · rw [compareWingetVersions, split, same, compareWingetParts_head front back back apart]
    exact apart

end Disagreement

section Numbers

lemma roundToEven_le (n : Nat) : roundToEven n ≤ 2 * n := by
  rcases Nat.lt_or_ge n (2 ^ 53) with small | large
  · rw [roundToEven_small small]
    omega
  · obtain ⟨q, e, -, -, -, same, bound⟩ := roundToEven_large large
    rw [same]
    exact bound

variable {n : Nat} {b : List Char}

lemma toNumber_u64 (small : n < 2 ^ 64) :
    toNumber n = some (roundToEven n) ∧ toNumber (roundToEven n) = some (roundToEven n) := by
  have twice := roundToEven_le n
  have finite : roundToEven n < infinityBound := by
    have far : 2 ^ 256 ≤ infinityBound := Nat.le_self_pow (by decide) _
    omega
  rw [toNumber, toNumber, roundToEven_round, if_pos finite]
  exact ⟨rfl, rfl⟩

variable {l : Locale} {v a : List Char} {front back : List (List Char)}

lemma alphanumeric_of_digits (digits : ∀ c ∈ b, c.isDigit = true) : Alphanumeric b := by
  intro c member
  have low : 48 ≤ c.toNat := (isDigit_iff_toNat.mp (digits c member)).1
  have high : c.toNat ≤ 57 := (isDigit_iff_toNat.mp (digits c member)).2
  simp only [isAsciiAlphanumeric, or_eq_true, and_eq_true, decide_eq_true_eq]
  omega

lemma head_of_digits (nonempty : b ≠ []) (digits : ∀ c ∈ b, c.isDigit = true) :
    b.head?.any isAsciiDigit = true := by
  cases b with
  | nil => exact absurd rfl nonempty
  | cons c b =>
    have low : 48 ≤ c.toNat := (isDigit_iff_toNat.mp (digits c mem_cons_self)).1
    have high : c.toNat ≤ 57 := (isDigit_iff_toNat.mp (digits c mem_cons_self)).2
    have digit : isAsciiDigit c = true := by
      simp only [isAsciiDigit, and_eq_true, decide_eq_true_eq]
      exact ⟨low, high⟩
    exact digit

/-- A number that is too large for the backend, or that the frontend rounds. -/
lemma disagree_number (accepted : Accepted v) (full : [] ∉ v.splitOnP isSeparator)
    (split : v.splitOnP isSeparator = front ++ a :: back) (read : Text.digits a = some n)
    (other : plainPart a = false) : ∃ b, Accepted b ∧ Disagree l v b := by
  obtain ⟨nonempty, digits, value⟩ := digits_eq_some read
  have letters := alphanumeric_of_digits digits
  rw [plainPart, read, and_eq_false_iff, decide_eq_false_iff_not, beq_eq_false_iff_ne] at other
  have replaced : ∀ {b m}, Text.digits b = some m → toNumber n = toNumber m → a ≠ b →
      (n = m → 2 ^ 64 ≤ m) → ∃ b, Accepted b ∧ Disagree l v b := by
    intro b m read' same differ apart
    obtain ⟨nonempty', digits', -⟩ := digits_eq_some read'
    have letters' := alphanumeric_of_digits digits'
    exact disagree_replace accepted full split letters' (head_of_digits nonempty' digits')
      (compareVersionPart_number read read' same)
      (compareWingetVersionPart_digits read read' letters letters' differ apart)
  by_cases small : n < 2 ^ 64
  · obtain ⟨rounded, again⟩ := toNumber_u64 small
    have moved : n ≠ roundToEven n := by
      intro same
      rw [← same] at rounded
      exact (other.resolve_left (fun h => h small)) rounded
    refine replaced (digits_toDigits (roundToEven n)) (rounded.trans again.symm) ?_
      (fun same => absurd same moved)
    rintro rfl
    rw [digits_toDigits] at read
    exact moved (Option.some.inj read).symm
  · have zero : Text.digits ('0' :: a) = some n := by
      have shape : (!('0' :: a).isEmpty && ('0' :: a).all isDigit) = true := by
        rw [and_eq_true, all_eq_true, forall_mem_cons]
        exact ⟨rfl, rfl, digits⟩
      rw [Text.digits, if_pos shape, value]
      rfl
    refine replaced zero rfl ?_ (fun _ => Nat.not_lt.mp small)
    intro same
    have longer := congrArg length same
    rw [length_cons] at longer
    omega

end Numbers

section Texts
variable {v a : List Char} {front back : List (List Char)}

lemma compareWingetVersionPart_numbers {m n : Nat} {a b : List Char}
    (read : Text.digits a = some m) (read' : Text.digits b = some n) (small : m < 2 ^ 64)
    (small' : n < 2 ^ 64) : compareWingetVersionPart a b = compare m n := by
  have letters := alphanumeric_of_digits (digits_eq_some read).2.1
  have letters' := alphanumeric_of_digits (digits_eq_some read').2.1
  rw [compareWingetVersionPart, parseU64_eq letters, parseU64_eq letters', read, read',
    Option.filter_some, Option.filter_some, if_pos (decide_eq_true (by omega)),
    if_pos (decide_eq_true (by omega))]

lemma compareWingetVersionPart_text {a b : List Char} (letters : Alphanumeric b)
    (text : Text.digits b = none) :
    compareWingetVersionPart a b = compare (asciiLower a) (asciiLower b) := by
  rw [compareWingetVersionPart, parseU64_eq letters, text]
  cases parseU64 a <;> rfl

/-- A text between two numbers of which the smaller has the digits that come later. -/
lemma intransitive {p q : List Char} {m n : Nat} (accepted : Accepted v)
    (split : v.splitOnP isSeparator = front ++ a :: back) (letters : Alphanumeric a)
    (text : Text.digits a = none) (read : Text.digits p = some m) (read' : Text.digits q = some n)
    (less : m < n) (small : n < 2 ^ 64)
    (above : compare (asciiLower p) (asciiLower a) = .gt)
    (below : compare (asciiLower q) (asciiLower a) = .lt) :
    ∃ b c, Accepted b ∧ Accepted c ∧ (compareWingetVersions b c).isLE ∧
      (compareWingetVersions c v).isLE ∧ ¬ (compareWingetVersions b v).isLE := by
  have h := accepted_parts accepted
  rw [split] at h
  have version : ∀ {t k}, Text.digits t = some k →
      ∃ w, Accepted w ∧ w.splitOnP isSeparator = front ++ t :: back := by
    intro t k read
    obtain ⟨nonempty, digits, -⟩ := digits_eq_some read
    exact exists_version (h.replace (alphanumeric_of_digits digits) (head_of_digits nonempty digits))
  obtain ⟨b, accepted', same⟩ := version read
  obtain ⟨c, accepted'', same'⟩ := version read'
  have numbers : compareWingetVersionPart p q = .lt := by
    rw [compareWingetVersionPart_numbers read read' (by omega) small]
    exact Nat.compare_eq_lt.mpr less
  have p_text : compareWingetVersionPart p a = .gt := by
    rw [compareWingetVersionPart_text letters text, above]
  have q_text : compareWingetVersionPart q a = .lt := by
    rw [compareWingetVersionPart_text letters text, below]
  have first : compareWingetVersions b c = .lt := by
    have apart : compareWingetVersionPart p q ≠ .eq := by simp [numbers]
    rw [compareWingetVersions, same, same', compareWingetParts_head _ _ _ apart, numbers]
  have second : compareWingetVersions c v = .lt := by
    have apart : compareWingetVersionPart q a ≠ .eq := by simp [q_text]
    rw [compareWingetVersions, same', split, compareWingetParts_head _ _ _ apart, q_text]
  have third : compareWingetVersions b v = .gt := by
    have apart : compareWingetVersionPart p a ≠ .eq := by simp [p_text]
    rw [compareWingetVersions, same, split, compareWingetParts_head _ _ _ apart, p_text]
  refine ⟨b, c, accepted', accepted'', ?_, ?_, ?_⟩
  · rw [first]
    rfl
  · rw [second]
    rfl
  · simp [third]

lemma compare_copies (c : Char) (n : Nat) (s t : List Char) :
    compare (replicate n c ++ s) (replicate n c ++ t) = compare s t := by
  induction n with
  | zero => rfl
  | succ n ih =>
    rw [replicate_succ, cons_append, cons_append, compare_cons_self]
    exact ih

lemma foldl_digits_lt {t : List Char} (digits : ∀ c ∈ t, c.isDigit = true) (n : Nat) :
    t.foldl (fun n c => 10 * n + (c.toNat - '0'.toNat)) n < (n + 1) * 10 ^ t.length := by
  induction t generalizing n with
  | nil => simp
  | cons c t ih =>
    obtain ⟨here, rest⟩ := forall_mem_cons.mp digits
    have high : c.toNat ≤ 57 := (isDigit_iff_toNat.mp here).2
    have zero : '0'.toNat = 48 := rfl
    have later := ih rest (10 * n + (c.toNat - '0'.toNat))
    refine Nat.lt_of_lt_of_le later ?_
    rw [length_cons, Nat.pow_succ, Nat.mul_comm (10 ^ t.length) 10, ← Nat.mul_assoc]
    refine Nat.mul_le_mul_right _ ?_
    omega

lemma digits_of_all {t : List Char} (nonempty : t ≠ []) (digits : ∀ c ∈ t, c.isDigit = true) :
    Text.digits t = some (t.foldl (fun n c => 10 * n + (c.toNat - '0'.toNat)) 0) := by
  rw [Text.digits, if_pos]
  rw [and_eq_true, not_eq_true', isEmpty_eq_false_iff, all_eq_true]
  exact ⟨nonempty, digits⟩

lemma digits_zeros (k n : Nat) :
    Text.digits (replicate k '0' ++ '0' :: Nat.toDigits 10 n) = some n := by
  have all : ∀ c ∈ replicate k '0' ++ '0' :: Nat.toDigits 10 n, c.isDigit = true := by
    intro c member
    rcases mem_append.mp member with zero | rest
    · rw [eq_of_mem_replicate zero]
      rfl
    · rcases mem_cons.mp rest with rfl | digit
      · rfl
      · exact isDigit_of_mem_toDigits digit
  have zeros : (replicate k '0').foldl (fun n c => 10 * n + (c.toNat - '0'.toNat)) 0 = 0 := by
    clear all
    induction k with
    | zero => rfl
    | succ k ih => exact ih
  have value := (digits_eq_some (digits_toDigits n)).2.2
  rw [digits_of_all (by simp) all, foldl_append, zeros]
  exact congrArg some value.symm

/-- A text that the digits of a number come after lies between two numbers. -/
lemma exists_between (letters : Alphanumeric a) (nonempty : a ≠ []) (text : Text.digits a = none)
    (other : afterNumbers a = false) :
    ∃ p q m n, Text.digits p = some m ∧ Text.digits q = some n ∧ m < n ∧ n < 2 ^ 64 ∧
      compare (asciiLower p) (asciiLower a) = .gt ∧
      compare (asciiLower q) (asciiLower a) = .lt := by
  obtain ⟨x, member, notDigit⟩ := (digits_eq_none.mp text).resolve_left nonempty
  rw [afterNumbers, or_eq_false_iff] at other
  obtain ⟨notLetter, notNines⟩ := other
  obtain ⟨j, same, notNine⟩ := copies_append '9' a
  obtain ⟨k, same', notZero⟩ := copies_append '0' a
  have few : j ≤ 18 := by
    by_contra many
    have start : nineteenNines <+: a := by
      refine ⟨replicate (j - 19) '9' ++ a.dropWhile (· == '9'), ?_⟩
      rw [nineteenNines, ← append_assoc, replicate_append_replicate,
        show 19 + (j - 19) = j by omega]
      exact same.symm
    rw [List.isPrefixOf_iff_prefix.mpr start] at notNines
    cases notNines
  cases behind : a.dropWhile (· == '9') with
  | nil =>
    rw [behind, append_nil] at same
    rw [same] at member
    rw [eq_of_mem_replicate member] at notDigit
    cases notDigit
  | cons d rest =>
  cases behind' : a.dropWhile (· == '0') with
  | nil =>
    rw [behind', append_nil] at same'
    rw [same'] at member
    rw [eq_of_mem_replicate member] at notDigit
    cases notDigit
  | cons e rest' =>
  rw [behind] at same notNine notLetter
  rw [behind'] at same' notZero
  have d_letters : isAsciiAlphanumeric d = true := letters d (by rw [same]; simp)
  have e_letters : isAsciiAlphanumeric e = true := letters e (by rw [same']; simp)
  -- the number with one more than the digit that is not nine
  have bounds : 48 ≤ d.toNat ∧ d.toNat < 57 := by
    have nine : d.toNat ≠ 57 := fun eq => notNine (congrArg some (toNat_inj.mp eq))
    have plain : isAsciiAlphabetic d = false := notLetter
    simp only [isAsciiAlphabetic, or_eq_false_iff, and_eq_false_iff,
      decide_eq_false_iff_not] at plain
    simp only [isAsciiAlphanumeric, or_eq_true, and_eq_true, decide_eq_true_eq] at d_letters
    omega
  have valid : (d.toNat + 1).isValidChar := Or.inl (by omega)
  have next : (Char.ofNat (d.toNat + 1)).toNat = d.toNat + 1 := by
    rw [Char.ofNat, dif_pos valid]
    rfl
  have more : ∀ c ∈ replicate j '9' ++ [Char.ofNat (d.toNat + 1)], c.isDigit = true := by
    intro c member
    rcases mem_append.mp member with nine | last
    · rw [eq_of_mem_replicate nine]
      rfl
    · rw [mem_singleton.mp last, isDigit_iff_toNat, next]
      have zero : '0'.toNat = 48 := rfl
      have nine : '9'.toNat = 57 := rfl
      omega
  have read := digits_of_all (by simp) more
  have bound := foldl_digits_lt more 0
  generalize (replicate j '9' ++ [Char.ofNat (d.toNat + 1)]).foldl
    (fun n c => 10 * n + (c.toNat - '0'.toNat)) 0 = m at read bound
  have small : m + 1 < 2 ^ 64 := by
    have pow : 10 ^ (j + 1) ≤ 10 ^ 19 := Nat.pow_le_pow_right (by decide) (by omega)
    rw [length_append, length_replicate, length_singleton] at bound
    omega
  refine ⟨_, _, m, m + 1, read, digits_zeros k (m + 1), Nat.lt_succ_self m, small, ?_, ?_⟩
  · rw [asciiLower_of_digits more, same, asciiLower_nines, compare_copies]
    have digit : d.isDigit = true := isDigit_iff_toNat.mpr ⟨bounds.1, by
      have nine : '9'.toNat = 57 := rfl
      omega⟩
    have less : d < Char.ofNat (d.toNat + 1) := by
      have step : d.toNat < (Char.ofNat (d.toNat + 1)).toNat := by omega
      exact step
    have lowered : asciiLower (d :: rest) = d :: asciiLower rest := by
      rw [asciiLower, map_cons, lower_of_digit digit]
      rfl
    rw [lowered]
    exact OrientedCmp.gt_of_lt (compare_cons_of_lt less _ _)
  · have digits := (digits_eq_some (digits_zeros k (m + 1))).2.1
    have lowered : asciiLower a =
        replicate k '0' ++ e.toLower :: asciiLower rest' := by
      rw [same', asciiLower, map_append, map_replicate]
      rfl
    have less : '0' < e.toLower := by
      have above : 48 < e.toLower.toNat := by
        have zero : e.toNat ≠ 48 := fun eq => notZero (congrArg some (toNat_inj.mp eq))
        simp only [isAsciiAlphanumeric, or_eq_true, and_eq_true, decide_eq_true_eq] at e_letters
        rcases toLower_cases e with eq | ⟨-, -, moved⟩
        · rw [eq]
          omega
        · omega
      exact above
    rw [asciiLower_of_digits digits, lowered, compare_copies]
    exact compare_cons_of_lt less _ _

end Texts

/-- Whatever a version that is not plain is, some others show it. -/
lemma fails_of_not_plain {l : Locale} {v : List Char} (accepted : Accepted v)
    (other : plainVersion v = false) :
    (∃ b, Accepted b ∧ Disagree l v b) ∨
      ∃ b c, Accepted b ∧ Accepted c ∧ (compareWingetVersions b c).isLE ∧
        (compareWingetVersions c v).isLE ∧ ¬ (compareWingetVersions b v).isLE := by
  by_cases empty : [] ∈ v.splitOnP isSeparator
  · exact .inl (disagree_empty accepted empty)
  · rw [plainVersion, and_eq_false_iff] at other
    rcases other with part | zeros
    · rw [all_eq_false] at part
      obtain ⟨a, member, rough⟩ := part
      obtain ⟨front, back, split⟩ := append_of_mem member
      have letters := accepted_letters accepted a member
      have nonempty : a ≠ [] := fun same => empty (same ▸ member)
      cases read : Text.digits a with
      | some n => exact .inl (disagree_number accepted empty split read (eq_false_iff.mpr rough))
      | none =>
        have between : afterNumbers a = false := by
          rw [plainPart, read] at rough
          exact eq_false_iff.mpr rough
        obtain ⟨p, q, m, n, readp, readq, less, small, above, below⟩ :=
          exists_between letters nonempty read between
        exact .inr (intransitive accepted split letters read readp readq less small above below)
    · exact .inl (disagree_zeros accepted empty zeros)

/-- The order of texts in which all ASCII texts are ordered as their bytes. -/
def Locale.ofAscii : Locale where
  toLocaleLowerCase := Text.asciiLower
  localeCompare := compare
  lower_ascii _ _ := rfl
  compare_ascii _ _ _ _ := rfl

end Installer
