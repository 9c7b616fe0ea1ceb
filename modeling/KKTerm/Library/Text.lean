import Mathlib.Data.List.DropRight
import Mathlib.Data.List.Infix
import Mathlib.Data.List.Lex
import Mathlib.Tactic.IntervalCases

/-!
# Text as a list of Unicode scalar values

The standard string operations, in their documented behaviour: white space is
the Unicode `White_Space` property, trimming is two-sided, splitting at a
separator always yields at least one piece, and an unsigned number accepts one
leading plus sign and at least one ASCII digit.
-/

namespace Text

open Nat hiding all
open List

instance lawfulBEq : LawfulBEq (List Char) :=
  inferInstance

instance lawfulBEqPair : LawfulBEq (List Char × List Char) :=
  inferInstance

/-- The Unicode `White_Space` property. -/
def isWhitespace (c : Char) : Bool :=
  let n := c.toNat
  (0x09 ≤ n && n ≤ 0x0d) || n == 0x20 || n == 0x85 || n == 0xa0 || n == 0x1680 ||
    (0x2000 ≤ n && n ≤ 0x200a) || n == 0x2028 || n == 0x2029 || n == 0x202f ||
    n == 0x205f || n == 0x3000

def trimStart (t : List Char) : List Char :=
  t.dropWhile isWhitespace

def trimEnd (t : List Char) : List Char :=
  (t.reverse.dropWhile isWhitespace).reverse

def trim (t : List Char) : List Char :=
  trimEnd (trimStart t)

/-- The pieces between the occurrences of a separator. -/
def split (sep : Char) (t : List Char) : List (List Char) :=
  t.splitOn sep

def splitWhitespace (t : List Char) : List (List Char) :=
  (t.splitOnP isWhitespace).filter (fun piece => !piece.isEmpty)

/-- Cut at the first occurrence of a separator, which belongs to neither part. -/
def splitOnce (sep : Char) : List Char → Option (List Char × List Char)
  | [] => none
  | c :: t =>
    if c = sep then some ([], t)
    else (splitOnce sep t).map (fun parts => (c :: parts.1, parts.2))

/-- Cut at the last occurrence of a separator. -/
def rsplitOnce (sep : Char) (t : List Char) : Option (List Char × List Char) :=
  (splitOnce sep t.reverse).map (fun parts => (parts.2.reverse, parts.1.reverse))

/-- The lines of a text without their ends; the last line may have no end. -/
def lines (t : List Char) : List (List Char) :=
  let pieces := split '\n' t
  let ended := pieces.dropLast.map (fun line =>
    if line.getLast? = some '\r' then line.dropLast else line)
  let last := pieces.getLast?.getD []
  if last = [] then ended else ended ++ [last]

def isAsciiAlphanumeric (c : Char) : Bool :=
  let n := c.toNat
  (0x30 ≤ n && n ≤ 0x39) || (0x41 ≤ n && n ≤ 0x5a) || (0x61 ≤ n && n ≤ 0x7a)

def isAsciiDigit (c : Char) : Bool :=
  let n := c.toNat
  0x30 ≤ n && n ≤ 0x39

def isAsciiLowercase (c : Char) : Bool :=
  let n := c.toNat
  0x61 ≤ n && n ≤ 0x7a

def isAsciiAlphabetic (c : Char) : Bool :=
  let n := c.toNat
  (0x41 ≤ n && n ≤ 0x5a) || (0x61 ≤ n && n ≤ 0x7a)

/-- The number of bytes in UTF-8. -/
def byteLength (t : List Char) : Nat :=
  t.foldl (fun n c => n + c.utf8Size) 0

def asciiLower (t : List Char) : List Char :=
  t.map Char.toLower

/-- The order of the bytes in UTF-8. -/
def precedes : List Char → List Char → Bool
  | _, [] => false
  | [], _ :: _ => true
  | a :: s, b :: t => a.toNat < b.toNat || (a.toNat == b.toNat && precedes s t)

/-- Whether the needle occurs in the text. -/
def contains (t needle : List Char) : Bool :=
  needle <:+: t

/-- The value of a nonempty run of ASCII digits. -/
def digits (t : List Char) : Option Nat :=
  if !t.isEmpty && t.all Char.isDigit then
    some (t.foldl (fun n c => 10 * n + (c.toNat - '0'.toNat)) 0)
  else none

/-- Parse an unsigned integer of at most `max`. -/
def parseUnsigned (max : Nat) (t : List Char) : Option Nat :=
  let body := match t with
    | '+' :: rest => rest
    | _ => t
  (digits body).filter (fun n => n ≤ max)

def hexDigit (c : Char) : Option Nat :=
  let n := c.toNat
  if 0x30 ≤ n ∧ n ≤ 0x39 then some (n - 0x30)
  else if 0x61 ≤ n ∧ n ≤ 0x66 then some (n - 0x61 + 10)
  else if 0x41 ≤ n ∧ n ≤ 0x46 then some (n - 0x41 + 10)
  else none

/-- Two characters as a number; the first may be a plus sign. -/
def hexByte (high low : Char) : Option UInt8 := do
  let low ← hexDigit low
  let high ← if high = '+' then some 0 else hexDigit high
  pure (UInt8.ofNat (16 * high + low))

def hexDigits (n : Nat) : List Char → Option Nat
  | [] => some n
  | c :: t => (hexDigit c).bind (fun d => hexDigits (16 * n + d) t)

/-- Parse an unsigned hexadecimal integer of at most `max`. -/
def parseHex (max : Nat) (t : List Char) : Option Nat :=
  let body := match t with
    | '+' :: rest => rest
    | _ => t
  if body = [] then none else (hexDigits 0 body).filter (fun n => n ≤ max)

lemma foldl_utf8Size (t : List Char) (n : Nat) :
    t.foldl (fun n c => n + c.utf8Size) n = n + byteLength t := by
  induction t generalizing n with
  | nil => rfl
  | cons c t ih => rw [byteLength, foldl_cons, foldl_cons, ih, ih, Nat.zero_add, Nat.add_assoc]

lemma byteLength_cons (c : Char) (t : List Char) :
    byteLength (c :: t) = c.utf8Size + byteLength t := by
  rw [byteLength, foldl_cons, foldl_utf8Size, Nat.zero_add]

lemma length_le_byteLength (t : List Char) : t.length ≤ byteLength t := by
  induction t with
  | nil => exact Nat.le_refl 0
  | cons c t ih =>
    have size := c.utf8Size_pos
    rw [byteLength_cons, length_cons]
    omega

lemma precedes_iff {s t : List Char} :
    precedes s t = true ↔ s.map Char.toNat < t.map Char.toNat := by
  induction s generalizing t with
  | nil => cases t <;> simp [precedes]
  | cons a s ih =>
    cases t with
    | nil => simp [precedes]
    | cons b t => simp [precedes, cons_lt_cons_iff, ih]

lemma precedes_trans {s t u : List Char} (first : precedes s t = true)
    (second : precedes t u = true) : precedes s u = true :=
  precedes_iff.mpr (lt_trans (precedes_iff.mp first) (precedes_iff.mp second))

lemma precedes_ne {s t : List Char} (before : precedes s t = true) : s ≠ t := by
  rintro rfl
  exact lt_irrefl _ (precedes_iff.mp before)

lemma precedes_of_not {s t : List Char} (h : ¬ precedes s t = true) (differ : t ≠ s) :
    precedes t s = true := by
  rw [precedes_iff] at h ⊢
  rcases lt_or_eq_of_le (not_lt.mp h) with before | same
  · exact before
  · have injective : Function.Injective Char.toNat := fun a b same => Char.toNat_inj.mp same
    exact absurd (injective.list_map same) differ

section Separators
variable {sep : Char} {l t : List Char}

lemma splitOnce_of_not_mem (h : sep ∉ t) : splitOnce sep t = none := by
  induction t with
  | nil => rfl
  | cons c t ih =>
    have head : c ≠ sep := fun same => h (same ▸ mem_cons_self)
    rw [splitOnce, if_neg head, ih (fun member => h (mem_cons_of_mem c member))]
    rfl

lemma splitOnce_append (h : sep ∉ l) : splitOnce sep (l ++ sep :: t) = some (l, t) := by
  induction l with
  | nil => exact if_pos rfl
  | cons c l ih =>
    have head : c ≠ sep := fun same => h (same ▸ mem_cons_self)
    rw [cons_append, splitOnce, if_neg head, ih (fun member => h (mem_cons_of_mem c member))]
    rfl

lemma splitOnce_eq_some {parts : List Char × List Char} (h : splitOnce sep t = some parts) :
    t = parts.1 ++ sep :: parts.2 ∧ sep ∉ parts.1 := by
  induction t generalizing parts with
  | nil => cases h
  | cons c t ih =>
    by_cases head : c = sep
    · rw [splitOnce, if_pos head] at h
      cases h
      exact ⟨congrArg (· :: t) head, not_mem_nil⟩
    · rw [splitOnce, if_neg head] at h
      obtain ⟨later, found, rfl⟩ := Option.map_eq_some_iff.mp h
      obtain ⟨rfl, before⟩ := ih found
      exact ⟨rfl, not_mem_cons_of_ne_of_not_mem (Ne.symm head) before⟩

lemma rsplitOnce_append (h : sep ∉ t) : rsplitOnce sep (l ++ sep :: t) = some (l, t) := by
  have fresh : sep ∉ t.reverse := fun member => h (mem_reverse.mp member)
  rw [rsplitOnce, reverse_append, reverse_cons, append_assoc]
  rw [singleton_append, splitOnce_append fresh]
  simp

/-- A text is its first piece, or its first piece and the text behind a separator. -/
lemma pieces_induction {motive : List Char → Prop} (sep : Char) (whole : ∀ t, sep ∉ t → motive t)
    (piece : ∀ l t, sep ∉ l → motive t → motive (l ++ sep :: t)) (t : List Char) : motive t := by
  rcases cut : splitOnce sep t with _ | parts
  · refine whole t (fun member => ?_)
    obtain ⟨l, rest, rfl, fresh⟩ := eq_append_cons_of_mem member
    rw [splitOnce_append fresh] at cut
    cases cut
  · obtain ⟨shape, fresh⟩ := splitOnce_eq_some cut
    have shorter : parts.2.length < t.length := by
      rw [shape, length_append, length_cons]
      omega
    rw [shape]
    exact piece parts.1 parts.2 fresh (pieces_induction sep whole piece parts.2)
termination_by t.length

lemma split_of_not_mem (h : sep ∉ t) : split sep t = [t] :=
  splitOn_eq_singleton h

lemma split_append (h : sep ∉ l) : split sep (l ++ sep :: t) = l :: split sep t :=
  splitOn_append_cons_self_of_not_mem h t

lemma split_ne_nil : split sep t ≠ [] :=
  splitOn_ne_nil sep t

lemma lines_append (h : '\n' ∉ l) : lines (l ++ '\r' :: '\n' :: t) = l :: lines t := by
  have fresh : '\n' ∉ l ++ ['\r'] := by simp [h]
  have pieces : split '\n' (l ++ '\r' :: '\n' :: t) = (l ++ ['\r']) :: split '\n' t := by
    rw [← split_append fresh, append_assoc]
    rfl
  have first : ((l ++ ['\r']) :: split '\n' t).dropLast =
      (l ++ ['\r']) :: (split '\n' t).dropLast := by
    rw [dropLast_cons_of_ne_nil split_ne_nil]
  rw [lines, lines, pieces, first, getLast?_cons_of_ne_nil split_ne_nil]
  simp only [map_cons, getLast?_concat, dropLast_concat, if_pos]
  split <;> rfl

variable {piece : List Char} {c : Char}

lemma mem_of_mem_split (member : piece ∈ split sep t) (h : c ∈ piece) : c ∈ t := by
  induction t using pieces_induction sep with
  | whole t fresh =>
    rw [split_of_not_mem fresh, mem_singleton] at member
    exact member ▸ h
  | piece l t fresh ih =>
    rw [split_append fresh, mem_cons] at member
    rcases member with rfl | later
    · exact mem_append_left _ h
    · exact mem_append_right _ (mem_cons_of_mem _ (ih later))

lemma not_mem_of_mem_split (member : piece ∈ split sep t) : sep ∉ piece := by
  induction t using pieces_induction sep with
  | whole t fresh =>
    rw [split_of_not_mem fresh, mem_singleton] at member
    exact member ▸ fresh
  | piece l t fresh ih =>
    rw [split_append fresh, mem_cons] at member
    rcases member with rfl | later
    · exact fresh
    · exact ih later

lemma mem_intercalate {between : List Char} {parts : List (List Char)}
    (h : c ∈ intercalate between parts) : c ∈ between ∨ ∃ part ∈ parts, c ∈ part := by
  induction parts with
  | nil => cases h
  | cons part rest ih =>
    by_cases last : rest = []
    · rw [last, intercalate_singleton] at h
      exact .inr ⟨part, mem_cons_self, h⟩
    · rw [intercalate_cons_of_ne_nil last, append_assoc, mem_append, mem_append] at h
      rcases h with here | joint | later
      · exact .inr ⟨part, mem_cons_self, here⟩
      · exact .inl joint
      · rcases ih later with joint | ⟨other, member, inside⟩
        · exact .inl joint
        · exact .inr ⟨other, mem_cons_of_mem part member, inside⟩

end Separators

section Trimming
variable {l t : List Char}

def Blank (t : List Char) : Prop :=
  ∀ c ∈ t, isWhitespace c = true

lemma trimStart_blank (h : Blank l) : trimStart (l ++ t) = trimStart t :=
  dropWhile_append_of_pos h

lemma trimStart_append (h : ¬ Blank l) : trimStart (l ++ t) = trimStart l ++ t := by
  have kept : l.dropWhile isWhitespace ≠ [] := fun gone => h (dropWhile_eq_nil_iff.mp gone)
  rw [trimStart, dropWhile_append, if_neg (by simpa using kept)]
  rfl

lemma trimEnd_blank (h : Blank t) : trimEnd (l ++ t) = trimEnd l := by
  have reversed : ∀ c ∈ t.reverse, isWhitespace c = true := fun c hc => h c (mem_reverse.mp hc)
  rw [trimEnd, reverse_append, dropWhile_append_of_pos reversed]
  rfl

lemma trimEnd_append (h : ¬ Blank t) : trimEnd (l ++ t) = l ++ trimEnd t := by
  have kept : t.reverse.dropWhile isWhitespace ≠ [] := fun gone =>
    h (fun c hc => dropWhile_eq_nil_iff.mp gone c (mem_reverse.mpr hc))
  rw [trimEnd, reverse_append, dropWhile_append, if_neg (by simpa using kept),
    reverse_append, reverse_reverse]
  rfl

lemma trimEnd_prefix (t : List Char) : trimEnd t <+: t := by
  rw [trimEnd, ← reverse_suffix, reverse_reverse]
  exact dropWhile_suffix isWhitespace

lemma trim_of_blank (h : Blank t) : trim t = [] := by
  rw [trim, trimStart, dropWhile_eq_nil_iff.mpr h]
  rfl

lemma trim_blank_append (h : Blank l) : trim (l ++ t) = trim t :=
  congrArg trimEnd (trimStart_blank h)

lemma trim_blank_line (h : Blank l) : trim (l ++ '\n' :: t) = trim t := by
  have newline : Blank ['\n'] := by simp [Blank, isWhitespace]
  rw [trim_blank_append h]
  exact trim_blank_append newline

lemma trim_append_blank (h : Blank t) : trim (l ++ t) = trim l := by
  by_cases blank : Blank l
  · rw [trim_blank_append blank, trim_of_blank h, trim_of_blank blank]
  · rw [trim, trimStart_append blank, trimEnd_blank h]
    rfl

lemma trim_append (hl : ¬ Blank l) (ht : ¬ Blank t) : trim (l ++ t) = trimStart l ++ trimEnd t := by
  rw [trim, trimStart_append hl, trimEnd_append ht]

/-- A text cut at both ends begins and ends with characters that are kept. -/
lemma cut_idempotent (p : Char → Bool) (t : List Char) :
    (((t.dropWhile p).rdropWhile p).dropWhile p).rdropWhile p = (t.dropWhile p).rdropWhile p := by
  have front : ((t.dropWhile p).rdropWhile p).dropWhile p = (t.dropWhile p).rdropWhile p := by
    rw [dropWhile_eq_self_iff]
    intro nonempty
    obtain ⟨rest, whole⟩ := rdropWhile_prefix p (t.dropWhile p)
    have before : 0 < (t.dropWhile p).length := by
      rw [← whole, length_append]
      omega
    have first := dropWhile_get_zero_not p t before
    simp only [get_eq_getElem] at first ⊢
    rwa [getElem_of_eq whole.symm before, getElem_append_left nonempty] at first
  rw [front, rdropWhile_idempotent]

variable {p : Char → Bool}

lemma cut_of_kept (h : ∀ c ∈ t, p c = false) : (t.dropWhile p).rdropWhile p = t := by
  have front : t.dropWhile p = t := by
    rw [dropWhile_eq_self_iff]
    intro nonempty
    simp [h]
  rw [front, rdropWhile_eq_self_iff]
  intro nonempty
  simp [h]

lemma cut_ne_nil : (t.dropWhile p).rdropWhile p ≠ [] ↔ ∃ c ∈ t, p c = false := by
  rw [ne_eq, rdropWhile_eq_nil_iff]
  induction t with
  | nil => simp
  | cons c t ih =>
    cases space : p c with
    | true =>
      rw [dropWhile_cons_of_pos space, ih]
      simp [space]
    | false =>
      rw [dropWhile_cons_of_neg (by simp [space])]
      constructor
      · intro _
        exact ⟨c, mem_cons_self, space⟩
      · intro _ all
        rw [all c mem_cons_self] at space
        cases space

lemma trim_ne_nil : trim t ≠ [] ↔ ∃ c ∈ t, isWhitespace c = false :=
  cut_ne_nil

lemma trim_enclosed {a b : Char} (ha : isWhitespace a = false) (hb : isWhitespace b = false) :
    trim (a :: (t ++ [b])) = a :: (t ++ [b]) := by
  have front : trimStart (a :: (t ++ [b])) = a :: (t ++ [b]) := by simp [trimStart, ha]
  rw [trim, front, trimEnd, ← cons_append]
  simp [hb]

lemma trim_trim (t : List Char) : trim (trim t) = trim t :=
  cut_idempotent isWhitespace t

lemma trim_of_dark (h : ∀ c ∈ t, isWhitespace c = false) : trim t = t :=
  cut_of_kept h

end Trimming

lemma hexDigit_digitChar {d : Nat} (h : d < 16) : hexDigit (digitChar d) = some d := by
  interval_cases d <;> rfl

lemma toLower_cases (c : Char) :
    c.toLower = c ∨ (65 ≤ c.toNat ∧ c.toNat ≤ 90 ∧ c.toLower.toNat = c.toNat + 32) := by
  unfold Char.toLower
  split
  next upper =>
    refine .inr ?_
    obtain ⟨low, high⟩ := upper
    have low' : 65 ≤ c.val.toNat := low
    have high' : c.val.toNat ≤ 90 := high
    refine ⟨low', high', ?_⟩
    change (c.val + 32).toNat = c.val.toNat + 32
    rw [UInt32.toNat_add]
    change (c.val.toNat + 32) % 4294967296 = _
    omega
  next => exact .inl rfl

section Decimal
variable {n : Nat}

lemma isDigit_of_mem_toDigits {c : Char} (h : c ∈ toDigits 10 n) : c.isDigit = true :=
  Nat.isDigit_of_mem_toDigits (by decide) (by decide) h

lemma digits_toDigits (n : Nat) : digits (toDigits 10 n) = some n := by
  have shape : (!(toDigits 10 n).isEmpty && (toDigits 10 n).all Char.isDigit) = true := by
    rw [Bool.and_eq_true, all_eq_true, Bool.not_eq_true', isEmpty_eq_false_iff]
    exact ⟨toDigits_ne_nil, fun c hc => isDigit_of_mem_toDigits hc⟩
  rw [digits, if_pos shape]
  exact congrArg some ofDigitChars_ten_toDigits

lemma toDigits_injective : Function.Injective (toDigits 10) := by
  intro m n same
  have read := congrArg digits same
  rwa [digits_toDigits, digits_toDigits, Option.some.injEq] at read

lemma isWhitespace_of_isDigit {c : Char} (h : c.isDigit = true) : isWhitespace c = false := by
  have low : 48 ≤ c.toNat := (Char.isDigit_iff_toNat.mp h).1
  have high : c.toNat ≤ 57 := (Char.isDigit_iff_toNat.mp h).2
  simp only [isWhitespace]
  grind

/-- Digits are none of the separators. -/
lemma not_mem_toDigits {c : Char} (h : c.isDigit = false) : c ∉ toDigits 10 n := by
  intro member
  rw [isDigit_of_mem_toDigits member] at h
  cases h

lemma parseUnsigned_toDigits {max : Nat} (h : n ≤ max) :
    parseUnsigned max (toDigits 10 n) = some n := by
  rw [parseUnsigned]
  · rw [digits_toDigits, Option.filter_some, if_pos (decide_eq_true h)]
  · intro rest shape
    have plus : '+' ∈ toDigits 10 n := by
      rw [shape]
      exact mem_cons_self
    exact not_mem_toDigits (by decide) plus

end Decimal

end Text

/-!
# Text in JavaScript

White space, for trimming, counts the byte order mark and does not count U+0085,
the other way round from the Unicode property. The case mapping is a parameter:
what is used of it is that it lowers the letters of an ASCII text.
-/

namespace JsText

open Text

/-- The white space and line terminators of the language. -/
def isSpace (c : Char) : Bool :=
  let n := c.toNat
  (0x09 ≤ n && n ≤ 0x0d) || n == 0x20 || n == 0xa0 || n == 0x1680 ||
    (0x2000 ≤ n && n ≤ 0x200a) || n == 0x2028 || n == 0x2029 || n == 0x202f ||
    n == 0x205f || n == 0x3000 || n == 0xfeff

def trim (t : List Char) : List Char :=
  (t.dropWhile isSpace).rdropWhile isSpace

def byteOrderMark : Char := Char.ofNat 0xfeff

def stripMark : List Char → List Char
  | c :: t => if c = byteOrderMark then t else c :: t
  | [] => []

structure CaseMap where
  toLowerCase : List Char → List Char
  ascii : ∀ t : List Char, (∀ c ∈ t, c.toNat < 0x80) → toLowerCase t = asciiLower t

/-- The case mapping of texts without letters beyond ASCII. -/
def CaseMap.ofAscii : CaseMap where
  toLowerCase := asciiLower
  ascii := fun _ _ => rfl

lemma trim_trim (t : List Char) : trim (trim t) = trim t :=
  cut_idempotent isSpace t

lemma trim_of_dark {t : List Char} (h : ∀ c ∈ t, isSpace c = false) : trim t = t :=
  cut_of_kept h

lemma trim_ne_nil {t : List Char} : trim t ≠ [] ↔ ∃ c ∈ t, isSpace c = false :=
  cut_ne_nil

lemma isSpace_of_isDigit {c : Char} (h : c.isDigit = true) : isSpace c = false := by
  have low : 48 ≤ c.toNat := (Char.isDigit_iff_toNat.mp h).1
  have high : c.toNat ≤ 57 := (Char.isDigit_iff_toNat.mp h).2
  simp only [isSpace]
  grind

lemma trim_toDigits (n : Nat) : trim (Nat.toDigits 10 n) = Nat.toDigits 10 n :=
  trim_of_dark (fun _ hc => isSpace_of_isDigit (isDigit_of_mem_toDigits hc))

end JsText
