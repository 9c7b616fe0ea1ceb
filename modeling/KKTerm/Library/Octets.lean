import Mathlib.Data.UInt

/-!
# Texts and their octets

A text is cut at an octet offset only where a character begins. An octet below 0x80
is always an ASCII character of its own, so that a loop over octets that stops only at
ASCII characters stops where a character begins.
-/

namespace Octets

open List Option UInt8

def encode (t : List Char) : List UInt8 :=
  t.flatMap String.utf8EncodeChar

/-- The text from an octet offset on, if the offset is in the text and a character begins
there. -/
def dropOctets : List Char → Nat → Option (List Char)
  | t, 0 => some t
  | [], _ + 1 => none
  | c :: t, n + 1 => if c.utf8Size ≤ n + 1 then dropOctets t (n + 1 - c.utf8Size) else none

def takeOctets : List Char → Nat → Option (List Char)
  | _, 0 => some []
  | [], _ + 1 => none
  | c :: t, n + 1 =>
    if c.utf8Size ≤ n + 1 then (takeOctets t (n + 1 - c.utf8Size)).map (c :: ·) else none

def slice (t : List Char) (start stop : Nat) : Option (List Char) :=
  if start ≤ stop then (dropOctets t start).bind (fun rest => takeOctets rest (stop - start))
  else none

/-- The octet offset of the first occurrence. -/
def find (needle : List Char) : List Char → Option Nat
  | [] => if needle = [] then some 0 else none
  | c :: t =>
    if needle.isPrefixOf (c :: t) then some 0 else (find needle t).map (· + c.utf8Size)

lemma encodeChar_of_ascii {c : Char} (ascii : c.toNat < 0x80) :
    String.utf8EncodeChar c = [ofNat c.toNat] := by
  have value : c.val.toNat = c.toNat := rfl
  unfold String.utf8EncodeChar
  simp only [value]
  rw [if_pos (by omega)]

lemma le_of_mem_encodeChar {c : Char} (wide : 0x80 ≤ c.toNat) :
    ∀ b ∈ String.utf8EncodeChar c, 0x80 ≤ b.toNat := by
  have value : c.val.toNat = c.toNat := rfl
  intro b member
  unfold String.utf8EncodeChar at member
  simp only [value] at member
  split at member
  · omega
  · split at member
    · simp only [mem_cons, not_mem_nil, or_false] at member
      rcases member with rfl | rfl <;> simp <;> omega
    · split at member
      · simp only [mem_cons, not_mem_nil, or_false] at member
        rcases member with rfl | rfl | rfl <;> simp <;> omega
      · simp only [mem_cons, not_mem_nil, or_false] at member
        rcases member with rfl | rfl | rfl | rfl <;> simp <;> omega

lemma ofNat_toNat_ascii {c : Char} (ascii : c.toNat < 0x80) :
    (ofNat c.toNat).toNat = c.toNat := by
  rw [toNat_ofNat']
  omega

section Texts

variable {front rest t : List Char} {c : Char}

lemma encode_cons : encode (c :: t) = String.utf8EncodeChar c ++ encode t :=
  rfl

lemma encode_append : encode (front ++ rest) = encode front ++ encode rest :=
  flatMap_append

lemma encode_ascii (ascii : c.toNat < 0x80) :
    encode (c :: t) = ofNat c.toNat :: encode t := by
  rw [encode_cons, encodeChar_of_ascii ascii]
  rfl

lemma length_encode_cons : (encode (c :: t)).length = c.utf8Size + (encode t).length := by
  rw [encode_cons, length_append, String.length_utf8EncodeChar]

lemma length_le_length_encode : t.length ≤ (encode t).length := by
  induction t with
  | nil => exact Nat.le_refl 0
  | cons c t ih =>
    have size := c.utf8Size_pos
    rw [length_encode_cons, length_cons]
    omega

lemma drop_encode : (encode (front ++ rest)).drop (encode front).length = encode rest := by
  rw [encode_append, drop_left]

lemma getElem?_encode :
    (encode (front ++ rest))[(encode front).length]? = (encode rest).head? := by
  rw [← head?_drop, drop_encode]

/-- An ASCII octet stands at an offset exactly when the character does. -/
lemma head?_encode_iff (ascii : c.toNat < 0x80) :
    (encode t).head? = some (ofNat c.toNat) ↔ t.head? = some c := by
  cases t with
  | nil => simp [encode]
  | cons d t =>
    by_cases narrow : d.toNat < 0x80
    · rw [encode_ascii narrow, head?_cons, head?_cons, some_inj, some_inj]
      constructor
      · intro same
        have values := congrArg UInt8.toNat same
        rw [ofNat_toNat_ascii narrow, ofNat_toNat_ascii ascii] at values
        exact Char.toNat_inj.mp values
      · rintro rfl
        rfl
    · have wide := Nat.not_lt.mp narrow
      constructor
      · intro head
        have member : ofNat c.toNat ∈ String.utf8EncodeChar d := by
          obtain ⟨b, octets, split⟩ := exists_cons_of_ne_nil (String.utf8EncodeChar_ne_nil)
          rw [encode_cons, split, cons_append, head?_cons] at head
          rw [split, ← Option.some.inj head]
          exact mem_cons_self
        have bound := le_of_mem_encodeChar wide _ member
        rw [ofNat_toNat_ascii ascii] at bound
        omega
      · intro head
        cases head
        exact absurd ascii narrow

lemma length_encode_succ (c : Char) (front : List Char) :
    ∃ n, (encode (c :: front)).length = n + 1 ∧ c.utf8Size ≤ n + 1 ∧
      n + 1 - c.utf8Size = (encode front).length := by
  have size := c.utf8Size_pos
  have total : (encode (c :: front)).length = c.utf8Size + (encode front).length :=
    length_encode_cons
  exact ⟨c.utf8Size + (encode front).length - 1, by omega, by omega, by omega⟩

lemma dropOctets_append : dropOctets (front ++ rest) (encode front).length = some rest := by
  induction front with
  | nil => cases rest <;> rfl
  | cons c front ih =>
    obtain ⟨n, total, fits, remains⟩ := length_encode_succ c front
    rw [total, cons_append, dropOctets, if_pos fits, remains, ih]

lemma takeOctets_append : takeOctets (front ++ rest) (encode front).length = some front := by
  induction front with
  | nil => cases rest <;> rfl
  | cons c front ih =>
    obtain ⟨n, total, fits, remains⟩ := length_encode_succ c front
    rw [total, cons_append, takeOctets, if_pos fits, remains, ih, map_some]

lemma slice_append {middle : List Char} : slice (front ++ middle ++ rest)
    (encode front).length ((encode front).length + (encode middle).length) = some middle := by
  rw [slice, if_pos (Nat.le_add_right _ _), append_assoc, dropOctets_append,
    bind_some, Nat.add_sub_cancel_left, takeOctets_append]

lemma dropOctets_beyond {n : Nat} (beyond : (encode t).length < n) : dropOctets t n = none := by
  induction t generalizing n with
  | nil =>
    obtain ⟨m, rfl⟩ := Nat.exists_eq_succ_of_ne_zero (Nat.ne_of_gt (Nat.zero_lt_of_lt beyond))
    rfl
  | cons c t ih =>
    obtain ⟨m, rfl⟩ := Nat.exists_eq_succ_of_ne_zero (Nat.ne_of_gt (Nat.zero_lt_of_lt beyond))
    rw [length_encode_cons] at beyond
    rw [dropOctets]
    split
    · exact ih (by omega)
    · rfl

end Texts

end Octets
