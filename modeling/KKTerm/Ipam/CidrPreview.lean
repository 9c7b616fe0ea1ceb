import KKTerm.Ipam.ExportRoundTrip

/-!
# The preview of a prefix

The frontend shows what a typed prefix becomes. The backend reads the same texts, but for the
byte order mark, which only the frontend trims.
-/

namespace Ipam

open Prefix hiding length
open JsText hiding trim trim_of_dark
open List Option Text

/-- What the backend computes for a prefix, and what a node of the tree shows of it. -/
structure Shows (preview : CidrPreview) (p : Prefix) : Prop where
  cidr : preview.cidr = p.toCidr
  usable : preview.usable = p.usable.toNat
  node : ∀ parsed links addressCounts row index,
    let node := prefixNode parsed links addressCounts (row, p) index
    preview.network = node.network ∧ preview.broadcast = node.broadcast ∧
      preview.firstUsable = node.firstUsable ∧ preview.lastUsable = node.lastUsable

section
variable {t a l : List Char} {c : Char} {value : UInt32} {length : Nat}

lemma cut_parts (p : Char → Bool) (t : List Char) :
    ∃ front back, t = front ++ ((t.dropWhile p).rdropWhile p ++ back) ∧
      (∀ c ∈ front, p c = true) ∧ ∀ c ∈ back, p c = true :=
  ⟨t.takeWhile p, (t.dropWhile p).rtakeWhile p, by
    rw [rdropWhile_append_rtakeWhile, takeWhile_append_dropWhile],
    fun _ => mem_takeWhile_imp, fun _ => mem_rtakeWhile_imp⟩

lemma isWhitespace_of_isSpace (space : isSpace c = true) (mark : c ≠ byteOrderMark) :
    isWhitespace c = true := by
  have other : c.toNat ≠ 0xfeff := fun same => mark (Char.toNat_inj.mp same)
  simp only [isSpace] at space
  simp only [isWhitespace]
  grind

lemma trim_jsTrim (clear : byteOrderMark ∉ t) : trim (JsText.trim t) = trim t := by
  obtain ⟨front, back, whole, before, behind⟩ := cut_parts isSpace t
  rw [whole, mem_append, mem_append, not_or, not_or] at clear
  have blank : ∀ part : List Char, byteOrderMark ∉ part → (∀ c ∈ part, JsText.isSpace c = true) →
      Blank part := fun part none space c member =>
    isWhitespace_of_isSpace (space c member) fun mark => none (mark ▸ member)
  have same := congrArg trim whole
  rw [trim_blank_append (blank front clear.1 before),
    trim_append_blank (blank back clear.2.2 behind)] at same
  exact same.symm

lemma all_of_digits {n : Nat} (h : digits t = some n) : ∀ c ∈ t, c.isDigit = true := by
  rw [digits] at h
  split at h
  · rename_i ok
    exact all_eq_true.mp (Bool.and_eq_true_iff.mp ok).2
  · cases h

lemma mem_split (sep : Char) (member : c ∈ t) : c = sep ∨ ∃ piece ∈ split sep t, c ∈ piece := by
  have joined : [sep].intercalate (split sep t) = t := intercalate_splitOn sep
  rw [← joined] at member
  rcases mem_intercalate member with h | ⟨piece, inside, h⟩
  · exact .inl (mem_singleton.mp h)
  · exact .inr ⟨piece, inside, h⟩

lemma parseOctet_eq_some (h : parseOctet t = some value) :
    value.toNat < 256 ∧ ∀ c ∈ t, c.isDigit = true := by
  rw [parseOctet] at h
  split at h
  · obtain ⟨n, read, rfl⟩ := map_eq_some_iff.mp h
    obtain ⟨known, small⟩ := filter_eq_some_iff.mp read
    refine ⟨?_, all_of_digits known⟩
    rw [UInt32.toNat_ofNat']
    have := of_decide_eq_true small
    omega
  · cases h

lemma octets_read {a b c d : UInt32} (ha : a.toNat < 256) (hb : b.toNat < 256) (hc : c.toNat < 256)
    (hd : d.toNat < 256) :
    a <<< 24 ||| b <<< 16 ||| c <<< 8 ||| d = (((0 * 256 + a) * 256 + b) * 256 + c) * 256 + d := by
  have base : (256 : UInt32).toNat = 256 := rfl
  have zero : (0 : UInt32).toNat = 0 := rfl
  have places : (24 : UInt32).toNat = 24 ∧ (16 : UInt32).toNat = 16 ∧ (8 : UInt32).toNat = 8 :=
    ⟨rfl, rfl, rfl⟩
  set v := (((0 * 256 + a) * 256 + b) * 256 + c) * 256 + d with v_eq
  have sum : v.toNat = a.toNat * 2 ^ 24 + b.toNat * 2 ^ 16 + c.toNat * 2 ^ 8 + d.toNat := by
    rw [v_eq]
    simp only [UInt32.toNat_add, UInt32.toNat_mul, base, zero]
    omega
  have octet : ∀ (w place : UInt32), place.toNat ≤ 24 → w.toNat = v.toNat / 2 ^ place.toNat % 256 →
      v >>> place &&& 0xff = w := by
    intro w place small same
    rw [← UInt32.toNat_inj, toNat_octet, UInt32.toNat_shiftRight, Nat.shiftRight_eq_div_pow, same,
      Nat.mod_eq_of_lt (by omega : place.toNat < 32)]
    rfl
  have joined := octets_joined v
  rw [octet a 24 (by decide) (by rw [places.1]; omega),
    octet b 16 (by decide) (by rw [places.2.1]; omega),
    octet c 8 (by decide) (by rw [places.2.2]; omega)] at joined
  have last : v &&& 0xff = d := by
    rw [← UInt32.toNat_inj, toNat_octet]
    omega
  rw [last] at joined
  exact joined

lemma splitOnce_of_split {sep : Char} (h : split sep t = [a, l]) :
    splitOnce sep t = some (a, l) ∧ t = a ++ sep :: l := by
  have joined : [sep].intercalate (split sep t) = t := intercalate_splitOn sep
  have fresh : sep ∉ a := not_mem_of_mem_split (h ▸ mem_cons_self)
  have whole : t = a ++ sep :: l := by
    rw [← joined, h]
    simp [intercalate]
  rw [whole]
  exact ⟨splitOnce_append fresh, rfl⟩

lemma parseAddress_of_parseIpv4 (clear : byteOrderMark ∉ t)
    (h : parseIpv4 t = some value) : parseAddress t = some value := by
  rw [parseIpv4] at h
  split at h
  · rename_i four
    obtain ⟨a, b, c, d, parts⟩ := length_eq_four.mp four
    have octet : ∀ (part : List Char) (sofar value : UInt32),
        (if part.length ≤ 3 then ((digits part).filter (fun octet => octet ≤ 255)).map
          (fun octet => sofar * 256 + UInt32.ofNat octet) else none) = some value →
        ∃ word, parseOctet part = some word ∧ value = sofar * 256 + word := by
      intro part sofar value read
      rw [parseOctet]
      split at read
      · rename_i short
        obtain ⟨n, known, rfl⟩ := map_eq_some_iff.mp read
        rw [if_pos short, known]
        exact ⟨_, rfl, rfl⟩
      · cases read
    rw [parts] at h
    simp only [foldlM_cons, foldlM_nil, bind_eq_bind, bind_eq_some_iff] at h
    obtain ⟨_, first, _, second, _, third, _, fourth, done⟩ := h
    obtain ⟨wa, ra, rfl⟩ := octet _ _ _ first
    obtain ⟨wb, rb, rfl⟩ := octet _ _ _ second
    obtain ⟨wc, rc, rfl⟩ := octet _ _ _ third
    obtain ⟨wd, rd, rfl⟩ := octet _ _ _ fourth
    cases done
    have words : [a, b, c, d].mapM parseOctet = some [wa, wb, wc, wd] := by
      simp [mapM_cons, ra, rb, rc, rd]
    have dark : ∀ e ∈ JsText.trim t, isWhitespace e = false := by
      intro e member
      rcases mem_split '.' member with rfl | ⟨piece, inside, here⟩
      · rfl
      · obtain ⟨word, found⟩ := Fallible.exists_mapM.mp ⟨_, words⟩ piece (parts ▸ inside)
        exact isWhitespace_of_isDigit ((parseOctet_eq_some found).2 e here)
    rw [parseAddress, ← trim_jsTrim clear, trim_of_dark dark, parts, words]
    exact congrArg some (octets_read (parseOctet_eq_some ra).1 (parseOctet_eq_some rb).1
      (parseOctet_eq_some rc).1 (parseOctet_eq_some rd).1)
  · cases h

/-- Only digits, points, slashes, signs and white space are read as a prefix. -/
lemma clear_of_parse {p : Prefix} (h : parse t = some p) : byteOrderMark ∉ t := by
  simp only [parse, bind_eq_bind, bind_eq_some_iff] at h
  obtain ⟨⟨address, size⟩, cut, length, read, h⟩ := h
  split at h
  · obtain ⟨value, known, -⟩ := bind_eq_some_iff.mp h
    -- the mark stays where white space is trimmed
    have stays : ∀ t : List Char, byteOrderMark ∈ t → byteOrderMark ∈ trim t := by
      intro t member
      obtain ⟨front, back, whole, before, behind⟩ := cut_parts isWhitespace t
      rw [whole, mem_append, mem_append] at member
      rcases member with h | h | h
      · cases before _ h
      · exact h
      · cases behind _ h
    intro member
    have inside := stays t member
    rw [(splitOnce_eq_some cut).1, mem_append, mem_cons] at inside
    rcases inside with inside | same | inside
    · have inside := stays _ inside
      rw [parseAddress] at known
      split at known
      · rename_i parts
        rcases mem_split '.' inside with same | ⟨piece, home, here⟩
        · exact absurd same (by decide)
        · obtain ⟨word, found⟩ := Fallible.exists_mapM.mp ⟨_, parts⟩ piece home
          exact absurd ((parseOctet_eq_some found).2 _ here) (by decide)
      · cases known
    · exact absurd same (by decide)
    · have inside := stays _ inside
      unfold parseUnsigned at read
      have known := (filter_eq_some_iff.mp read).1
      split at known
      · rename_i rest sign
        rw [sign] at inside
        rcases mem_cons.mp inside with same | inside
        · exact absurd same (by decide)
        · exact absurd (all_of_digits known _ inside) (by decide)
      · exact absurd (all_of_digits known _ inside) (by decide)
  · cases h

lemma parseUnsigned_of_previewLength (h : previewLength l = some length) :
    parseUnsigned 255 (trim l) = some length ∧ ∀ c ∈ l, isWhitespace c = false := by
  rw [previewLength] at h
  split at h
  · obtain ⟨known, small⟩ := filter_eq_some_iff.mp h
    have all := all_of_digits known
    have dark : ∀ c ∈ l, isWhitespace c = false := fun c h => isWhitespace_of_isDigit (all c h)
    refine ⟨?_, dark⟩
    have fits : length ≤ 255 := Nat.le_trans (of_decide_eq_true small) (by decide)
    rw [trim_of_dark dark]
    unfold parseUnsigned
    split
    · exact absurd (all '+' mem_cons_self) (by decide)
    · dsimp only
      rw [known, filter_some, if_pos (decide_eq_true fits)]
  · cases h

lemma toNat_usable (p : Prefix) : p.usable.toNat =
    if 31 ≤ p.length then 2 ^ (32 - p.length) else 2 ^ (32 - p.length) - 2 := by
  have size : p.size.toNat = 2 ^ (32 - p.length) := p.size_eq
  rw [Prefix.usable]
  split
  · exact size
  · have two : 2 ^ 1 ≤ 2 ^ (32 - p.length) := Nat.pow_le_pow_right (by decide) (by omega)
    have enough : 2 ≤ p.size := by
      rw [UInt64.le_iff_toNat_le, size]
      exact two
    rw [UInt64.toNat_sub_of_le _ _ enough, size]
    rfl

lemma parse_of_previewCidr {preview : CidrPreview} (clear : byteOrderMark ∉ t)
    (h : previewCidr t = some preview) : ∃ p, parse t = some p ∧ Shows preview p := by
  rw [previewCidr] at h
  split at h
  · rename_i addressText lengthText parts
    simp only [bind_eq_bind, bind_eq_some_iff] at h
    obtain ⟨length, read, address, known, done⟩ := h
    have small := previewLength_le read
    refine ⟨.of address length small, ?_, ?_⟩
    · obtain ⟨cut, whole⟩ := splitOnce_of_split parts
      obtain ⟨number, dark⟩ := parseUnsigned_of_previewLength read
      have core : byteOrderMark ∉ addressText := by
        obtain ⟨front, back, text, -⟩ := cut_parts isSpace t
        refine fun member => clear (text ▸ mem_append_right _ (mem_append_left _ ?_))
        rw [← JsText.trim, whole]
        exact mem_append_left _ member
      have read := parseAddress_of_parseIpv4 core known
      have given : ¬ Blank addressText := by
        intro blank
        rw [parseAddress, trim_of_blank blank] at read
        cases read
      have ends : trim t = trimStart addressText ++ '/' :: lengthText := by
        have slash : ¬ Blank ('/' :: lengthText) := fun blank => by cases blank '/' mem_cons_self
        have kept := trim_of_dark (forall_mem_cons.mpr ⟨show isWhitespace '/' = false from rfl, dark⟩)
        rw [← trim_jsTrim clear, whole, trim_append given slash]
        exact congrArg (trimStart addressText ++ ·) kept
      have before : '/' ∉ trimStart addressText := fun member =>
        (splitOnce_eq_some cut).2 ((dropWhile_suffix _).mem member)
      have again : trim (trimStart addressText) = trim addressText :=
        congrArg trimEnd (dropWhile_idempotent _ _)
      have same : parseAddress (trimStart addressText) = some address := by
        rw [← read, parseAddress, again, parseAddress]
      rw [parse, ends, splitOnce_append before]
      simp only [bind_eq_bind, bind_some, number, same, small, dite_true]
      rfl
    · cases done
      refine ⟨?_, ?_, fun parsed links addressCounts row index => ?_⟩
      · simp only [toCidr, of, formatIpv4_eq, mask_eq small]
      · exact (toNat_usable (.of address length small)).symm
      · simp only [prefixNode, of, Prefix.last, formatIpv4_eq, mask_eq small]
        by_cases pair : 31 ≤ length <;> simp [pair]
  · cases h

end

/-- The backend accepts the text, and what it stores has the same preview again. -/
def BackendAgrees (text : List Char) (preview : CidrPreview) : Prop :=
  ∃ p, Prefix.parse text = some p ∧ Shows preview p ∧
    ∃ again, previewCidr p.toCidr = some again ∧ Shows again p

theorem previewCidr_agrees_iff (text : List Char) (preview : CidrPreview)
    (h : previewCidr text = some preview) :
    BackendAgrees text preview ↔ byteOrderMark ∉ text := by
  constructor
  · rintro ⟨p, read, -⟩
    exact clear_of_parse read
  · intro clear
    obtain ⟨p, read, shows⟩ := parse_of_previewCidr clear h
    obtain ⟨again, stored, -⟩ := previewCidr_toCidr p
    obtain ⟨p', same, shown⟩ := parse_of_previewCidr (clear_of_parse p.parse_toCidr) stored
    cases p.parse_toCidr.symm.trans same
    exact ⟨p, read, shows, again, stored, shown⟩

theorem whole_space_agrees : ∃ preview, previewCidr "7.0.0.1/0".toList = some preview ∧
    (BackendAgrees "7.0.0.1/0".toList preview ↔ byteOrderMark ∉ "7.0.0.1/0".toList) :=
  ⟨_, rfl, previewCidr_agrees_iff _ _ rfl⟩

theorem mark_refused : ¬ ∀ text preview, previewCidr text = some preview →
    BackendAgrees text preview := by
  intro all
  obtain ⟨p, read, -⟩ := all (byteOrderMark :: "7.0.0.1/0".toList) _ rfl
  exact clear_of_parse read mem_cons_self

end Ipam
