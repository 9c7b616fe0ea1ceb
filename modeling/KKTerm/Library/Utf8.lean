import KKTerm.Library.Octets

/-!
# Lossy UTF-8 decoding

The decoder reads octet by octet. An octet that cannot continue the sequence
under way ends it with one replacement character and is read again as a first
octet; a sequence cut off by the end of the input is replaced as well. A text
of ASCII characters is found in the decoded text exactly where its octets are.
-/

namespace Utf8

open List UInt8

def replacement : Char := Char.ofNat 0xfffd

/-- Every completion of the sequence under way is a scalar value beyond ASCII.
`low` and `high` bound the next octet, and `owed` octets are missing. -/
structure Completable (owed value low high : Nat) : Prop where
  owed_pos : 0 < owed
  low_le : 0x80 ≤ low
  high_le : high ≤ 0xbf
  beyond_ascii : 0x80 ≤ (value * 64 + (low - 0x80)) * 64 ^ (owed - 1)
  scalar : (value * 64 + (high - 0x80) + 1) * 64 ^ (owed - 1) ≤ 0xd800 ∨
    0xe000 ≤ (value * 64 + (low - 0x80)) * 64 ^ (owed - 1) ∧
      (value * 64 + (high - 0x80) + 1) * 64 ^ (owed - 1) ≤ 0x110000

structure Partial where
  owed : Nat
  value : Nat
  low : Nat
  high : Nat
  completable : Completable owed value low high

/-- What the first octet of a longer sequence promises. -/
def lead (b : Nat) : Option Partial :=
  if h : 0xc2 ≤ b ∧ b ≤ 0xdf then
    some ⟨1, b - 0xc0, 0x80, 0xbf, by constructor <;> omega⟩
  else if b = 0xe0 then some ⟨2, 0, 0xa0, 0xbf, by constructor <;> omega⟩
  else if h : 0xe1 ≤ b ∧ b ≤ 0xec then
    some ⟨2, b - 0xe0, 0x80, 0xbf, by constructor <;> omega⟩
  else if b = 0xed then some ⟨2, 0xd, 0x80, 0x9f, by constructor <;> omega⟩
  else if h : 0xee ≤ b ∧ b ≤ 0xef then
    some ⟨2, b - 0xe0, 0x80, 0xbf, by constructor <;> omega⟩
  else if b = 0xf0 then some ⟨3, 0, 0x90, 0xbf, by constructor <;> omega⟩
  else if h : 0xf1 ≤ b ∧ b ≤ 0xf3 then
    some ⟨3, b - 0xf0, 0x80, 0xbf, by constructor <;> omega⟩
  else if b = 0xf4 then some ⟨3, 4, 0x80, 0x8f, by constructor <;> omega⟩
  else none

lemma Completable.extend {owed value low high b : Nat}
    (h : Completable (owed + 2) value low high) (hlow : low ≤ b) (hhigh : b ≤ high) :
    Completable (owed + 1) (value * 64 + (b - 0x80)) 0x80 0xbf := by
  have first : (value * 64 + (low - 0x80)) * 64 ≤
      (value * 64 + (b - 0x80)) * 64 + (0x80 - 0x80) := by omega
  have last : (value * 64 + (b - 0x80)) * 64 + (0xbf - 0x80) + 1 ≤
      (value * 64 + (high - 0x80) + 1) * 64 := by omega
  have first' := Nat.mul_le_mul_right (64 ^ owed) first
  have last' := Nat.mul_le_mul_right (64 ^ owed) last
  have beyond := h.beyond_ascii
  have scalar := h.scalar
  simp only [show owed + 2 - 1 = owed + 1 from rfl, Nat.pow_succ', ← Nat.mul_assoc] at beyond scalar
  refine ⟨Nat.succ_pos owed, Nat.le_refl _, Nat.le_refl _, ?_, ?_⟩
  · rw [Nat.add_sub_cancel]
    omega
  · rw [Nat.add_sub_cancel]
    omega

/-- One octet after a sequence under way, or between two characters. -/
def start (b : UInt8) : Option Partial × List Char :=
  if b.toNat < 0x80 then (none, [Char.ofNat b.toNat])
  else
    match lead b.toNat with
    | some p => (some p, [])
    | none => (none, [replacement])

def Partial.next : Partial → UInt8 → Option Partial × List Char
  | ⟨owed, value, low, high, completable⟩, b =>
    if h : low ≤ b.toNat ∧ b.toNat ≤ high then
      match owed, completable with
      | 0, none_owed => absurd none_owed.owed_pos (Nat.lt_irrefl 0)
      | 1, _ => (none, [Char.ofNat (value * 64 + (b.toNat - 0x80))])
      | owed + 2, more =>
        (some ⟨owed + 1, value * 64 + (b.toNat - 0x80), 0x80, 0xbf, more.extend h.1 h.2⟩, [])
    else ((start b).1, replacement :: (start b).2)

def next (state : Option Partial) (b : UInt8) : Option Partial × List Char :=
  match state with
  | none => start b
  | some p => p.next b

/-- The text of the remaining input, from a state between octets. -/
def text (state : Option Partial) : List UInt8 → List Char
  | [] => if state.isSome then [replacement] else []
  | b :: rest => (next state b).2 ++ text (next state b).1 rest

def fromUtf8Lossy (bytes : List UInt8) : List Char :=
  text none bytes

lemma text_cons (state : Option Partial) (b : UInt8) (rest : List UInt8) :
    text state (b :: rest) = (next state b).2 ++ text (next state b).1 rest :=
  rfl

lemma toNat_ofNat {n : Nat} (h : n < 0xd800 ∨ 0xe000 ≤ n ∧ n < 0x110000) :
    (Char.ofNat n).toNat = n := by
  have valid : n.isValidChar := by
    rcases h with h | h
    · exact .inl h
    · exact .inr ⟨by omega, h.2⟩
  rw [Char.ofNat, dif_pos valid]
  rfl

/-- Between two characters an octet is an ASCII character, or it produces none. -/
lemma start_cases (b : UInt8) :
    (b.toNat < 0x80 ∧ start b = (none, [Char.ofNat b.toNat])) ∨
    (0x80 ≤ b.toNat ∧ start b = (none, [replacement])) ∨
    (0x80 ≤ b.toNat ∧ ∃ p, start b = (some p, [])) := by
  unfold start
  split
  · rename_i ascii
    exact .inl ⟨ascii, rfl⟩
  · rename_i wide
    have wide := Nat.not_lt.mp wide
    cases lead b.toNat with
    | none => exact .inr (.inl ⟨wide, rfl⟩)
    | some p => exact .inr (.inr ⟨wide, p, rfl⟩)

/-- Inside a sequence an octet continues it, completes a character beyond ASCII,
or is read again behind a replacement character. -/
lemma Partial.next_cases (p : Partial) (b : UInt8) :
    (∃ p', 0x80 ≤ b.toNat ∧ p.next b = (some p', [])) ∨
    (∃ c, 0x80 ≤ c.toNat ∧ 0x80 ≤ b.toNat ∧ p.next b = (none, [c])) ∨
    p.next b = ((start b).1, replacement :: (start b).2) := by
  obtain ⟨owed, value, low, high, completable⟩ := p
  by_cases h : low ≤ b.toNat ∧ b.toNat ≤ high
  · have wide : 0x80 ≤ b.toNat := Nat.le_trans completable.low_le h.1
    rw [Partial.next, dif_pos h]
    match owed, completable with
    | 0, none_owed => exact absurd none_owed.owed_pos (Nat.lt_irrefl 0)
    | 1, last =>
      have beyond := last.beyond_ascii
      have scalar := last.scalar
      simp only [Nat.sub_self, Nat.pow_zero, Nat.mul_one] at beyond scalar
      refine Or.inr (.inl ⟨_, ?_, wide, rfl⟩)
      rw [toNat_ofNat (by omega)]
      omega
    | owed + 2, more => exact .inl ⟨_, wide, rfl⟩
  · rw [Partial.next, dif_neg h]
    exact .inr (.inr rfl)

def Ascii (t : List Char) : Prop :=
  ∀ c ∈ t, c.toNat < 0x80

/-- The octets of an ASCII text. -/
def asciiBytes (t : List Char) : List UInt8 :=
  t.map (fun c => UInt8.ofNat c.toNat)

lemma replacement_beyond_ascii : 0x80 ≤ replacement.toNat := by
  decide

/-- The text after a sequence under way does not begin with an ASCII character. -/
lemma text_partial_head (p : Partial) (bytes : List UInt8) :
    ∃ c rest, text (some p) bytes = c :: rest ∧ 0x80 ≤ c.toNat := by
  induction bytes generalizing p with
  | nil => exact ⟨_, [], rfl, replacement_beyond_ascii⟩
  | cons b bytes ih =>
    rw [text_cons]
    rcases p.next_cases b with ⟨p', _, hp⟩ | ⟨c, beyond, _, hp⟩ | hp
    · rw [next, hp]
      exact ih p'
    · rw [next, hp]
      exact ⟨c, _, rfl, beyond⟩
    · rw [next, hp]
      exact ⟨replacement, _, rfl, replacement_beyond_ascii⟩

variable (front : List UInt8) (chunks : List (List UInt8)) {b : UInt8} {p : Partial} {c : Char}
  {t : List Char} {back : List UInt8}

lemma ofNat_toNat_eq (ascii : b.toNat < 0x80) (same : Char.ofNat b.toNat = c) :
    ofNat c.toNat = b := by
  rw [← same, toNat_ofNat (by omega), UInt8.ofNat_toNat]

/-- An ASCII text at the front of the decoded text is at the front of the octets. -/
lemma prefix_of_text (ascii : Ascii t) {bytes : List UInt8} (h : t <+: text none bytes) :
    asciiBytes t <+: bytes := by
  induction t generalizing bytes with
  | nil => exact nil_prefix
  | cons c t ih =>
    have low : c.toNat < 0x80 := ascii c mem_cons_self
    cases bytes with
    | nil => exact absurd (prefix_nil.mp h) (cons_ne_nil c t)
    | cons b bytes =>
      rw [text_cons, next] at h
      rcases start_cases b with ⟨hb, hs⟩ | ⟨_, hs⟩ | ⟨_, p, hs⟩
      · rw [hs, singleton_append, cons_prefix_cons] at h
        have rest := ih (fun x hx => ascii x (mem_cons_of_mem c hx)) h.2
        rw [asciiBytes, map_cons, ofNat_toNat_eq hb h.1.symm, cons_prefix_cons]
        exact ⟨rfl, rest⟩
      · rw [hs, singleton_append, cons_prefix_cons] at h
        rw [h.1] at low
        exact absurd replacement_beyond_ascii (Nat.not_le.mpr low)
      · rw [hs, nil_append] at h
        obtain ⟨x, rest, head, beyond⟩ := text_partial_head p bytes
        rw [head, cons_prefix_cons] at h
        rw [h.1] at low
        exact absurd beyond (Nat.not_le.mpr low)

/-- An octet that does not continue the sequence is read again between two characters. -/
lemma text_some_cons (p : Partial) (b : UInt8) (rest : List UInt8) :
    (∃ p', text (some p) (b :: rest) = text (some p') rest) ∨
    (∃ c, 0x80 ≤ c.toNat ∧ text (some p) (b :: rest) = c :: text none rest) ∨
    text (some p) (b :: rest) = replacement :: text none (b :: rest) := by
  rcases p.next_cases b with ⟨p', _, hp⟩ | ⟨c, beyond, _, hp⟩ | hp
  · exact .inl ⟨p', by rw [text_cons, next, hp]; rfl⟩
  · exact .inr (.inl ⟨c, beyond, by rw [text_cons, next, hp]; rfl⟩)
  · exact .inr (.inr (by rw [text_cons, next, hp]; rfl))

lemma not_prefix_beyond {out : List Char} (ascii : Ascii t) (nonempty : t ≠ [])
    (beyond : 0x80 ≤ c.toNat) : ¬ t <+: c :: out := by
  intro h
  cases t with
  | nil => exact nonempty rfl
  | cons x t =>
    have low := ascii x mem_cons_self
    rw [(cons_prefix_cons.mp h).1] at low
    exact absurd beyond (Nat.not_le.mpr low)

lemma infix_of_text (ascii : Ascii t) (nonempty : t ≠ []) {bytes : List UInt8}
    {state : Option Partial} (h : t <:+: text state bytes) : asciiBytes t <:+: bytes := by
  induction bytes generalizing state with
  | nil =>
    cases state with
    | none => exact absurd (infix_nil.mp h) nonempty
    | some p =>
      rcases infix_cons_iff.mp h with front | inside
      · exact absurd front (not_prefix_beyond ascii nonempty replacement_beyond_ascii)
      · exact absurd (infix_nil.mp inside) nonempty
  | cons b bytes ih =>
    have later : ∀ {state'}, t <:+: text state' bytes → asciiBytes t <:+: b :: bytes :=
      fun inside => (ih inside).trans (suffix_cons b bytes).isInfix
    have between : t <:+: text none (b :: bytes) → asciiBytes t <:+: b :: bytes := by
      intro h
      by_cases front : t <+: text none (b :: bytes)
      · exact (prefix_of_text ascii front).isInfix
      · rw [text_cons, next] at h front
        rcases start_cases b with ⟨_, hs⟩ | ⟨_, hs⟩ | ⟨_, p, hs⟩
        · rw [hs] at h front
          exact later ((infix_cons_iff.mp h).resolve_left front)
        · rw [hs] at h front
          exact later ((infix_cons_iff.mp h).resolve_left front)
        · rw [hs] at h
          exact later h
    cases state with
    | none => exact between h
    | some p =>
      rcases text_some_cons p b bytes with ⟨p', hp⟩ | ⟨c, beyond, hp⟩ | hp
      · rw [hp] at h
        exact later h
      · rw [hp] at h
        exact later ((infix_cons_iff.mp h).resolve_left (not_prefix_beyond ascii nonempty beyond))
      · rw [hp] at h
        exact between ((infix_cons_iff.mp h).resolve_left
          (not_prefix_beyond ascii nonempty replacement_beyond_ascii))

lemma text_ascii (ascii : Ascii t) (rest : List UInt8) :
    text none (asciiBytes t ++ rest) = t ++ text none rest := by
  induction t with
  | nil => rfl
  | cons c t ih =>
    have low : c.toNat < 0x80 := ascii c mem_cons_self
    have octet : (ofNat c.toNat).toNat = c.toNat := by
      rw [toNat_ofNat']
      omega
    have first : start (ofNat c.toNat) = (none, [c]) := by
      rw [start, octet, if_pos low, Char.ofNat_toNat]
    have tail := ih (fun x hx => ascii x (mem_cons_of_mem c hx))
    rw [asciiBytes, map_cons, cons_append, text_cons, next, first]
    exact congrArg (c :: ·) tail

/-- Decoding a front part leaves some text and some state. -/
lemma text_append (state : Option Partial) :
    ∃ out state', ∀ rest, text state (front ++ rest) = out ++ text state' rest := by
  induction front generalizing state with
  | nil => exact ⟨[], state, fun _ => rfl⟩
  | cons b front ih =>
    obtain ⟨out, state', h⟩ := ih (next state b).1
    refine ⟨(next state b).2 ++ out, state', fun rest => ?_⟩
    rw [cons_append, text_cons, h, append_assoc]

/-- The state that a front part leaves. -/
def after (state : Option Partial) (front : List UInt8) : Option Partial :=
  front.foldl (fun state b => (next state b).1) state

def Partial.Accepts (p : Partial) (b : UInt8) : Prop :=
  p.low ≤ b.toNat ∧ b.toNat ≤ p.high

/-- The octet behind the cut continues the sequence under way before it. -/
def Inside (front back : List UInt8) : Prop :=
  ∃ p ∈ after none front, ∃ b ∈ back.head?, p.Accepts b

instance (p : Partial) (b : UInt8) : Decidable (p.Accepts b) :=
  inferInstanceAs (Decidable (_ ∧ _))

instance (front back : List UInt8) : Decidable (Inside front back) :=
  inferInstanceAs (Decidable (∃ p ∈ after none front, ∃ b ∈ back.head?, p.Accepts b))

/-- Both parts decode on their own when the cut falls inside no sequence. -/
lemma text_cut {front : List UInt8} {state : Option Partial}
    (clean : ∀ p ∈ after state front, ∀ b ∈ back.head?, ¬ p.Accepts b) :
    text state (front ++ back) = text state front ++ text none back := by
  induction front generalizing state with
  | nil =>
    cases state with
    | none => rfl
    | some p =>
      cases back with
      | nil => rfl
      | cons b rest =>
        have apart : ¬ (p.low ≤ b.toNat ∧ b.toNat ≤ p.high) := clean p rfl b rfl
        have again : next (some p) b = ((start b).1, replacement :: (start b).2) := by
          obtain ⟨owed, value, low, high, completable⟩ := p
          exact dif_neg apart
        rw [nil_append, text_cons, again]
        rfl
  | cons b front ih => rw [cons_append, text_cons, text_cons, ih clean, append_assoc]

/-- Chunks decode on their own when no cut falls inside a sequence. -/
lemma fromUtf8Lossy_flatten {chunks : List (List UInt8)}
    (clean : ∀ k < chunks.length, ¬ Inside (chunks.take k).flatten (chunks.drop k).flatten) :
    (chunks.map fromUtf8Lossy).flatten = fromUtf8Lossy chunks.flatten := by
  induction chunks using reverseRecOn with
  | nil => rfl
  | append_singleton chunks chunk ih =>
    have earlier : ∀ k < chunks.length,
        ¬ Inside (chunks.take k).flatten (chunks.drop k).flatten := by
      rintro k hk ⟨p, under_way, b, behind, accepts⟩
      refine clean k (by simp; omega) ⟨p, ?_, b, ?_, accepts⟩
      · rwa [take_append_of_le_length (Nat.le_of_lt hk)]
      · rw [drop_append_of_le_length (Nat.le_of_lt hk), flatten_append, head?_append]
        exact Option.or_eq_some_iff.mpr (.inl behind)
    have last := clean chunks.length (by simp)
    rw [take_left, drop_left, flatten_singleton] at last
    rw [map_append, flatten_append, ih earlier, flatten_append, fromUtf8Lossy,
      fromUtf8Lossy, text_cut]
    · simp [fromUtf8Lossy]
    · rw [flatten_singleton]
      exact fun p under_way b behind accepts => last ⟨p, under_way, b, behind, accepts⟩

/-- An octet that continues a sequence starts none. -/
lemma Partial.Accepts.start (h : p.Accepts b) : start b = (none, [replacement]) := by
  have low := p.completable.low_le
  have high := p.completable.high_le
  obtain ⟨above, below⟩ := h
  have wide : ¬ b.toNat < 0x80 := by omega
  have no_lead : lead b.toNat = none := by
    rw [lead, dif_neg (by omega), if_neg (by omega), dif_neg (by omega), if_neg (by omega),
      dif_neg (by omega), if_neg (by omega), dif_neg (by omega), if_neg (by omega)]
  rw [Utf8.start, if_neg wide, no_lead]

/-- An octet that is accepted goes on with the sequence or completes its character. -/
lemma Partial.Accepts.next (h : p.Accepts b) :
    (∃ p', p.next b = (some p', [])) ∨ ∃ c, p.next b = (none, [c]) := by
  obtain ⟨owed, value, low, high, completable⟩ := p
  have inside : low ≤ b.toNat ∧ b.toNat ≤ high := h
  rw [Partial.next, dif_pos inside]
  match owed, completable with
  | 0, none_owed => exact absurd none_owed.owed_pos (Nat.lt_irrefl 0)
  | 1, _ => exact .inr ⟨_, rfl⟩
  | owed + 2, _ => exact .inl ⟨_, rfl⟩

lemma Partial.next_of_not_accepts (h : ¬ p.Accepts b) :
    p.next b = ((Utf8.start b).1, replacement :: (Utf8.start b).2) := by
  obtain ⟨owed, value, low, high, completable⟩ := p
  exact dif_neg h

/-- A sequence under way costs at most one character more. -/
lemma length_text_some_le (p : Partial) (bytes : List UInt8) :
    (text (some p) bytes).length ≤ (text none bytes).length + 1 := by
  induction bytes generalizing p with
  | nil => exact Nat.le_refl 1
  | cons b rest ih =>
    by_cases accepts : p.Accepts b
    · have alone : text none (b :: rest) = replacement :: text none rest := by
        rw [text_cons, Utf8.next, accepts.start]
        rfl
      rw [alone, text_cons, Utf8.next]
      rcases accepts.next with ⟨p', goes_on⟩ | ⟨c, complete⟩
      · rw [goes_on]
        exact (ih p').trans (Nat.le_succ _)
      · rw [complete]
        exact Nat.le_succ _
    · rw [text_cons, Utf8.next, Partial.next_of_not_accepts accepts]
      exact Nat.le_refl _

/-- A cut inside a sequence makes the decoded text longer. -/
lemma length_text_lt_of_accepts (accepts : p.Accepts b) (rest : List UInt8) :
    (text (some p) (b :: rest)).length < (text none (b :: rest)).length + 1 := by
  have alone : text none (b :: rest) = replacement :: text none rest := by
    rw [text_cons, Utf8.next, accepts.start]
    rfl
  rw [alone, text_cons, Utf8.next]
  rcases accepts.next with ⟨p', goes_on⟩ | ⟨c, complete⟩
  · rw [goes_on]
    exact Nat.lt_succ_of_le (length_text_some_le p' rest)
  · rw [complete]
    exact Nat.lt_succ_self _

lemma length_text_append_le (back : List UInt8) (state : Option Partial) :
    (text state (front ++ back)).length ≤ (text state front).length + (text none back).length := by
  induction front generalizing state with
  | nil =>
    cases state with
    | none => exact Nat.le_add_left _ _
    | some p =>
      rw [Nat.add_comm]
      exact length_text_some_le p back
  | cons b front ih =>
    rw [cons_append, text_cons, text_cons, length_append, length_append, Nat.add_assoc]
    exact Nat.add_le_add_left (ih _) _

lemma length_text_append_lt {front : List UInt8} {state : Option Partial}
    (under_way : after state front = some p) (behind : back.head? = some b) (accepts : p.Accepts b) :
    (text state (front ++ back)).length < (text state front).length + (text none back).length := by
  induction front generalizing state with
  | nil =>
    obtain ⟨rest, rfl⟩ : ∃ rest, back = b :: rest := by
      cases back with
      | nil => cases behind
      | cons _ rest => exact ⟨rest, by rw [Option.some.inj behind]⟩
    change state = some p at under_way
    rw [under_way, Nat.add_comm]
    exact length_text_lt_of_accepts accepts rest
  | cons c front ih =>
    rw [cons_append, text_cons, text_cons, length_append, length_append, Nat.add_assoc]
    exact Nat.add_lt_add_left (ih under_way) _

lemma length_fromUtf8Lossy_flatten_le :
    (fromUtf8Lossy chunks.flatten).length ≤ (chunks.map fromUtf8Lossy).flatten.length := by
  induction chunks with
  | nil => exact Nat.le_refl _
  | cons chunk chunks ih =>
    rw [flatten_cons, map_cons, flatten_cons, length_append]
    exact (length_text_append_le chunk chunks.flatten none).trans (Nat.add_le_add_left ih _)

/-- Chunks decode on their own exactly when no cut falls inside a sequence. -/
lemma fromUtf8Lossy_flatten_iff :
    (chunks.map fromUtf8Lossy).flatten = fromUtf8Lossy chunks.flatten ↔
      ∀ k < chunks.length, ¬ Inside (chunks.take k).flatten (chunks.drop k).flatten := by
  refine ⟨?_, fromUtf8Lossy_flatten⟩
  rintro same k - ⟨p, under_way, b, behind, accepts⟩
  have cut : chunks.flatten = (chunks.take k).flatten ++ (chunks.drop k).flatten := by
    rw [← flatten_append, take_append_drop]
  have shorter := length_text_append_lt under_way behind accepts
  have front := length_fromUtf8Lossy_flatten_le (chunks.take k)
  have back := length_fromUtf8Lossy_flatten_le (chunks.drop k)
  have whole : (chunks.map fromUtf8Lossy).flatten.length =
      ((chunks.take k).map fromUtf8Lossy).flatten.length +
        ((chunks.drop k).map fromUtf8Lossy).flatten.length := by
    rw [← length_append, ← flatten_append, ← map_append, take_append_drop]
  rw [← cut] at shorter
  rw [same] at whole
  simp only [fromUtf8Lossy] at front back whole
  omega

/-- An ASCII text occurs in the decoded text exactly where its octets occur. -/
lemma infix_fromUtf8Lossy (ascii : Ascii t) (nonempty : t ≠ []) (bytes : List UInt8) :
    t <:+: fromUtf8Lossy bytes ↔ asciiBytes t <:+: bytes := by
  constructor
  · exact infix_of_text ascii nonempty
  · rintro ⟨front, back, rfl⟩
    obtain ⟨out, state, h⟩ := text_append front none
    rw [fromUtf8Lossy, append_assoc, h]
    refine IsInfix.trans ?_ (suffix_append out _).isInfix
    cases state with
    | none =>
      rw [text_ascii ascii]
      exact (prefix_append t _).isInfix
    | some p =>
      obtain ⟨c, rest, rfl⟩ := exists_cons_of_ne_nil nonempty
      have low : c.toNat < 0x80 := ascii c mem_cons_self
      have octet : (ofNat c.toNat).toNat = c.toNat := by
        rw [toNat_ofNat']
        omega
      have again : text (some p) (asciiBytes (c :: rest) ++ back) =
          replacement :: text none (asciiBytes (c :: rest) ++ back) := by
        rw [asciiBytes, map_cons, cons_append]
        rcases p.next_cases (ofNat c.toNat) with ⟨_, wide, _⟩ | ⟨_, _, wide, _⟩ | hp
        · omega
        · omega
        · rw [text_cons, next, hp]
          rfl
      rw [again, text_ascii ascii]
      exact (prefix_append _ _).isInfix.trans (suffix_cons replacement _).isInfix

end Utf8

/-!
# Decoding what was encoded

The lossy decoder gives back every text from its octets. Whatever it reads, it leaves out
nothing: the octets of what it makes are at least as many as those it was given.
-/

namespace Utf8

open Octets List UInt8

section Partials
variable {p : Partial} {b : UInt8} {owed : Nat}

lemma Partial.next_more (more : p.owed = owed + 2) (accepts : p.Accepts b) :
    ∃ p', p.next b = (some p', []) ∧ p'.owed = owed + 1 ∧
      p'.value = p.value * 64 + (b.toNat - 0x80) ∧ p'.low = 0x80 ∧ p'.high = 0xbf := by
  obtain ⟨_, value, low, high, completable⟩ := p
  cases more
  exact ⟨_, dif_pos accepts, rfl, rfl, rfl, rfl⟩

lemma Partial.next_last (last : p.owed = 1) (accepts : p.Accepts b) :
    p.next b = (none, [Char.ofNat (p.value * 64 + (b.toNat - 0x80))]) := by
  obtain ⟨_, value, low, high, completable⟩ := p
  cases last
  exact dif_pos accepts

lemma start_lead (lead_ : lead b.toNat = some p) (wide : 0x80 ≤ b.toNat) :
    start b = (some p, []) := by
  rw [start, if_neg (Nat.not_lt.mpr wide), lead_]

lemma lead_two {n : Nat} (low : 0xc2 ≤ n) (high : n ≤ 0xdf) :
    ∃ p, lead n = some p ∧ p.owed = 1 ∧ p.value = n - 0xc0 ∧ p.low = 0x80 ∧ p.high = 0xbf :=
  ⟨_, dif_pos ⟨low, high⟩, rfl, rfl, rfl, rfl⟩

/-- The first continuation keeps out what is shorter, and surrogates. -/
lemma lead_three {n : Nat} (low : 0xe0 ≤ n) (high : n ≤ 0xef) :
    ∃ p, lead n = some p ∧ p.owed = 2 ∧ p.value = n - 0xe0 ∧
      p.low = (if n = 0xe0 then 0xa0 else 0x80) ∧ p.high = if n = 0xed then 0x9f else 0xbf := by
  rw [lead, dif_neg (by omega)]
  by_cases first : n = 0xe0
  · subst first
    exact ⟨_, rfl, rfl, rfl, rfl, rfl⟩
  rw [if_neg first, if_neg first]
  by_cases lower : n ≤ 0xec
  · rw [if_neg (by omega)]
    exact ⟨_, dif_pos ⟨by omega, lower⟩, rfl, rfl, rfl, (if_neg (by omega)).symm⟩
  rw [dif_neg (by omega)]
  by_cases surrogates : n = 0xed
  · subst surrogates
    exact ⟨_, rfl, rfl, rfl, rfl, rfl⟩
  rw [if_neg surrogates, if_neg surrogates]
  exact ⟨_, dif_pos ⟨by omega, high⟩, rfl, rfl, rfl, rfl⟩

/-- The first continuation keeps out what is shorter, and what is beyond all scalar values. -/
lemma lead_four {n : Nat} (low : 0xf0 ≤ n) (high : n ≤ 0xf4) :
    ∃ p, lead n = some p ∧ p.owed = 3 ∧ p.value = n - 0xf0 ∧
      p.low = (if n = 0xf0 then 0x90 else 0x80) ∧ p.high = if n = 0xf4 then 0x8f else 0xbf := by
  rw [lead, dif_neg (by omega), if_neg (by omega), dif_neg (by omega), if_neg (by omega),
    dif_neg (by omega)]
  by_cases first : n = 0xf0
  · subst first
    exact ⟨_, rfl, rfl, rfl, rfl, rfl⟩
  rw [if_neg first, if_neg first]
  by_cases lower : n ≤ 0xf3
  · rw [if_neg (by omega)]
    exact ⟨_, dif_pos ⟨by omega, lower⟩, rfl, rfl, rfl, (if_neg (by omega)).symm⟩
  obtain rfl : n = 0xf4 := by omega
  exact ⟨_, rfl, rfl, rfl, rfl, rfl⟩

end Partials

variable (c : Char) {n : Nat}

lemma toNat_octet (small : n < 256) : (ofNat n).toNat = n := by
  rw [toNat_ofNat']
  omega

lemma scalar_range : c.toNat < 0xd800 ∨ 0xe000 ≤ c.toNat ∧ c.toNat < 0x110000 := by
  have value : c.val.toNat = c.toNat := rfl
  rcases c.valid with low | ⟨high, bound⟩
  · exact .inl low
  · exact .inr ⟨by omega, bound⟩

/-- The octets of a character decode to it. -/
lemma text_encodeChar (rest : List UInt8) :
    text none (String.utf8EncodeChar c ++ rest) = c :: text none rest := by
  have value : c.val.toNat = c.toNat := rfl
  have range := scalar_range c
  generalize number : c.toNat = v at value range
  have back : Char.ofNat v = c := by rw [← number, Char.ofNat_toNat]
  unfold String.utf8EncodeChar
  simp only [value]
  split_ifs with one two three
  · have octet := toNat_octet (n := v) (by omega)
    rw [singleton_append, text_cons, next, start, octet, if_pos (by omega), back]
    rfl
  · have first := toNat_octet (n := v / 64 % 0x20 + 0xc0) (by omega)
    have second := toNat_octet (n := v % 0x40 + 0x80) (by omega)
    obtain ⟨p, lead_, owed, val, low, high⟩ := lead_two (n := v / 64 % 0x20 + 0xc0) (by omega)
      (by omega)
    rw [← first] at lead_
    have accepts : p.Accepts (ofNat (v % 0x40 + 0x80)) := by
      rw [Partial.Accepts, second, low, high]
      omega
    have whole : p.value * 64 + (v % 0x40 + 0x80 - 0x80) = v := by
      rw [val]
      omega
    rw [cons_append, singleton_append, text_cons, next, start_lead lead_ (by omega),
      text_cons, next, Partial.next_last owed accepts, second, whole, back]
    rfl
  · have first := toNat_octet (n := v / 4096 % 0x10 + 0xe0) (by omega)
    have second := toNat_octet (n := v / 64 % 0x40 + 0x80) (by omega)
    have third := toNat_octet (n := v % 0x40 + 0x80) (by omega)
    obtain ⟨p, lead_, owed, val, low, high⟩ := lead_three (n := v / 4096 % 0x10 + 0xe0) (by omega)
      (by omega)
    rw [← first] at lead_
    have accepts : p.Accepts (ofNat (v / 64 % 0x40 + 0x80)) := by
      rw [Partial.Accepts, second, low, high]
      split_ifs <;> omega
    obtain ⟨p', more, owed', val', low', high'⟩ := Partial.next_more owed accepts
    have accepts' : p'.Accepts (ofNat (v % 0x40 + 0x80)) := by
      rw [Partial.Accepts, third, low', high']
      omega
    have whole : p'.value * 64 + (v % 0x40 + 0x80 - 0x80) = v := by
      rw [val', val, second]
      omega
    rw [cons_append, cons_append, singleton_append, text_cons, next,
      start_lead lead_ (by omega), text_cons, next, more, text_cons, next,
      Partial.next_last owed' accepts', third, whole, back]
    rfl
  · have first := toNat_octet (n := v / 262144 % 0x08 + 0xf0) (by omega)
    have second := toNat_octet (n := v / 4096 % 0x40 + 0x80) (by omega)
    have third := toNat_octet (n := v / 64 % 0x40 + 0x80) (by omega)
    have fourth := toNat_octet (n := v % 0x40 + 0x80) (by omega)
    obtain ⟨p, lead_, owed, val, low, high⟩ := lead_four (n := v / 262144 % 0x08 + 0xf0)
      (by omega) (by omega)
    rw [← first] at lead_
    have accepts : p.Accepts (ofNat (v / 4096 % 0x40 + 0x80)) := by
      rw [Partial.Accepts, second, low, high]
      split_ifs <;> omega
    obtain ⟨p', more, owed', val', low', high'⟩ := Partial.next_more owed accepts
    have accepts' : p'.Accepts (ofNat (v / 64 % 0x40 + 0x80)) := by
      rw [Partial.Accepts, third, low', high']
      omega
    obtain ⟨p'', more', owed'', val'', low'', high''⟩ := Partial.next_more owed' accepts'
    have accepts'' : p''.Accepts (ofNat (v % 0x40 + 0x80)) := by
      rw [Partial.Accepts, fourth, low'', high'']
      omega
    have whole : p''.value * 64 + (v % 0x40 + 0x80 - 0x80) = v := by
      rw [val'', val', val, second, third]
      omega
    rw [cons_append, cons_append, cons_append, singleton_append, text_cons,
      next, start_lead lead_ (by omega), text_cons, next, more, text_cons, next, more', text_cons,
      next, Partial.next_last owed'' accepts'', fourth, whole, back]
    rfl

lemma fromUtf8Lossy_encode (t : List Char) : fromUtf8Lossy (encode t) = t := by
  induction t with
  | nil => rfl
  | cons c t ih =>
    rw [encode_cons, fromUtf8Lossy, text_encodeChar]
    exact congrArg (c :: ·) ih

/-- The least scalar value that takes as many octets. -/
def least : Nat → Nat
  | 2 => 0x80
  | 3 => 0x800
  | 4 => 0x10000
  | _ => 0

lemma le_utf8Size {c : Char} (many : 2 ≤ n) (small : n ≤ 4) (reached : least n ≤ c.toNat) :
    n ≤ c.utf8Size := by
  have value : c.val.toNat = c.toNat := rfl
  rw [← String.length_utf8EncodeChar]
  unfold String.utf8EncodeChar
  simp only [value]
  match n, many, small with
  | 2, _, _ | 3, _, _ | 4, _, _ =>
    rw [least] at reached
    split_ifs
    all_goals first | omega | exact Nat.le_of_ble_eq_true rfl

/-- As many octets of the sequence were read, and every completion takes those and the missing
ones. -/
structure Partial.Read (p : Partial) (n : Nat) : Prop where
  pos : 0 < n
  small : n + p.owed ≤ 4
  reached : least (n + p.owed) ≤ (p.value * 64 + (p.low - 0x80)) * 64 ^ (p.owed - 1)

lemma lead_read {p : Partial} (lead_ : lead n = some p) : p.Read 1 := by
  rw [lead] at lead_
  split_ifs at lead_ <;> cases lead_ <;> exact ⟨Nat.one_pos, by simp, by simp [least] <;> omega⟩

section Reading
variable {p : Partial} {n : Nat} {b : UInt8}

lemma Partial.Read.le_three (read : p.Read n) : n ≤ 3 := by
  have owed := p.completable.owed_pos
  have small := read.small
  omega

lemma Partial.Read.more {owed : Nat} (read : p.Read n) (more : p.owed = owed + 2)
    (accepts : p.Accepts b) : ∃ p', p.next b = (some p', []) ∧ p'.Read (n + 1) := by
  obtain ⟨p', goes_on, owed_, value, low, -⟩ := Partial.next_more more accepts
  have small := read.small
  have reached := read.reached
  have above := accepts.1
  have bound : (p.value * 64 + (p.low - 0x80)) * 64 ≤
      (p.value * 64 + (b.toNat - 0x80)) * 64 + 0 := by omega
  rw [more] at small reached
  refine ⟨p', goes_on, Nat.succ_pos n, by omega, ?_⟩
  rw [owed_, value, low, Nat.add_right_comm]
  refine reached.trans ?_
  rw [Nat.add_sub_cancel, show owed + 2 - 1 = owed + 1 from rfl, Nat.pow_succ', ← Nat.mul_assoc]
  exact Nat.mul_le_mul_right _ bound

lemma Partial.Read.last (read : p.Read n) (last : p.owed = 1) (accepts : p.Accepts b) :
    ∃ c, p.next b = (none, [c]) ∧ n + 1 ≤ c.utf8Size := by
  refine ⟨_, Partial.next_last last accepts, ?_⟩
  have pos := read.pos
  have small := read.small
  have reached := read.reached
  have scalar := p.completable.scalar
  obtain ⟨above, below_⟩ := accepts
  rw [last] at small reached scalar
  rw [Nat.sub_self, Nat.pow_zero, Nat.mul_one] at reached
  simp only [Nat.sub_self, Nat.pow_zero, Nat.mul_one] at scalar
  refine le_utf8Size (by omega) small ?_
  rw [toNat_ofNat (by omega)]
  omega

lemma length_le_cons {c : Char} {t : List Char} {bytes : List UInt8} {k : Nat}
    (size : k ≤ c.utf8Size) (rest : bytes.length ≤ (encode t).length) :
    k + bytes.length ≤ (encode (c :: t)).length := by
  rw [length_encode_cons]
  omega

end Reading

variable (bytes : List UInt8)

/-- A replacement takes as many octets as any sequence that is cut off. -/
lemma length_le_text :
    bytes.length ≤ (encode (text none bytes)).length ∧
      ∀ p n, Partial.Read p n → n + bytes.length ≤ (encode (text (some p) bytes)).length := by
  induction bytes with
  | nil => exact ⟨Nat.zero_le _, fun p n read => read.le_three⟩
  | cons b bytes ih =>
    have between : (b :: bytes).length ≤ (encode (text none (b :: bytes))).length := by
      rw [length_cons, Nat.add_comm, text_cons, next]
      rcases start_cases b with ⟨-, same⟩ | ⟨-, same⟩ | ⟨wide, p, same⟩
      · rw [same]
        exact length_le_cons (Char.utf8Size_pos _) ih.1
      · rw [same]
        exact length_le_cons (Char.utf8Size_pos _) ih.1
      · rw [same]
        have lead_ : lead b.toNat = some p := by
          rw [start, if_neg (Nat.not_lt.mpr wide)] at same
          cases known : lead b.toNat with
          | none =>
            rw [known] at same
            cases same
          | some q =>
            rw [known] at same
            exact congrArg Prod.fst same
        exact ih.2 p 1 (lead_read lead_)
    refine ⟨between, fun p n read => ?_⟩
    by_cases accepts : p.Accepts b
    · rw [text_cons, next, length_cons, Nat.add_comm bytes.length, ← Nat.add_assoc]
      obtain last | ⟨owed, more⟩ : p.owed = 1 ∨ ∃ owed, p.owed = owed + 2 := by
        have owed := p.completable.owed_pos
        rcases Nat.lt_or_ge p.owed 2 with few | many
        · exact .inl (by omega)
        · exact .inr ⟨p.owed - 2, by omega⟩
      · obtain ⟨c, same, size⟩ := read.last last accepts
        rw [same]
        exact length_le_cons size ih.1
      · obtain ⟨p', same, read'⟩ := read.more more accepts
        rw [same]
        exact ih.2 p' (n + 1) read'
    · rw [text_cons, next, Partial.next_of_not_accepts accepts]
      exact length_le_cons read.le_three between

lemma length_le_fromUtf8Lossy : bytes.length ≤ (encode (fromUtf8Lossy bytes)).length :=
  (length_le_text bytes).1

end Utf8
