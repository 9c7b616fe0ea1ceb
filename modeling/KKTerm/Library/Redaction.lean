import Mathlib.Data.List.Infix

/-!
# Replacing words by a mark

`replace` substitutes the leftmost, non-overlapping occurrences of a word. When
the mark shares no character with the words, redacting word after word is
followed on tokens that remember which text was struck: what the reader sees of
a word was kept character by character.
-/

namespace Redaction

open List

universe u
variable {α : Type u}

lemma infix_disjoint_append {u word : List α} (nonempty : word ≠ [])
    (disjoint : ∀ a ∈ u, a ∉ word) (t : List α) : word <:+: u ++ t ↔ word <:+: t := by
  induction u with
  | nil => rfl
  | cons a u ih =>
    rw [cons_append, infix_cons_iff, ih (fun b hb => disjoint b (mem_cons_of_mem a hb))]
    constructor
    · rintro (starts | later)
      · cases word with
        | nil => exact absurd rfl nonempty
        | cons b w =>
          obtain ⟨rfl, _⟩ := cons_prefix_cons.mp starts
          exact absurd mem_cons_self (disjoint b mem_cons_self)
      · exact later
    · exact .inr

/-- An occurrence in a concatenation lies in one part or straddles the cut. -/
lemma infix_append_cases {word front back : List α} (h : word <:+: front ++ back) :
    word <:+: front ∨ word <:+: back ∨
      ∃ before left right after, word = left ++ right ∧ left ≠ [] ∧ right ≠ [] ∧
        front = before ++ left ∧ back = right ++ after := by
  obtain ⟨before, after, cut⟩ := h
  rw [append_assoc] at cut
  rcases append_eq_append_iff.mp cut with ⟨left, rfl, inner⟩ | ⟨gap, rfl, rfl⟩
  · rcases append_eq_append_iff.mp inner with ⟨rest, rfl, whole⟩ | ⟨right, rfl, rfl⟩
    · exact .inl ⟨before, rest, append_assoc _ _ _⟩
    · by_cases left_empty : left = []
      · subst left_empty
        exact .inr (.inl (prefix_append _ _).isInfix)
      · by_cases right_empty : right = []
        · subst right_empty
          exact .inl ⟨before, [], by simp⟩
        · exact .inr (.inr ⟨before, left, right, after, rfl, left_empty, right_empty, rfl, rfl⟩)
  · exact .inr (.inl ⟨gap, after, append_assoc _ _ _⟩)

lemma infix_flatten {word : List α} {parts : List (List α)} (nonempty : word ≠ [])
    (h : word <:+: parts.flatten) :
    (∃ part ∈ parts, word <:+: part) ∨
      ∃ front back before left right after, parts = front ++ back ∧ word = left ++ right ∧
        left ≠ [] ∧ right ≠ [] ∧ front.flatten = before ++ left ∧
        back.flatten = right ++ after := by
  induction parts with
  | nil => exact absurd (infix_nil.mp h) nonempty
  | cons part parts ih =>
    rcases infix_append_cases h with here | later | straddles
    · exact .inl ⟨part, mem_cons_self, here⟩
    · rcases ih later with ⟨other, member, here⟩ | ⟨front, back, before, left, right, after, rfl,
        word_cut, left_some, right_some, front_cut, back_cut⟩
      · exact .inl ⟨other, mem_cons_of_mem part member, here⟩
      · refine Or.inr ⟨part :: front, back, part ++ before, left, right, after, rfl, word_cut,
          left_some, right_some, ?_, back_cut⟩
        rw [flatten_cons, front_cut, append_assoc]
    · obtain ⟨before, left, right, after, word_cut, left_some, right_some, rfl, back_cut⟩ := straddles
      exact .inr ⟨[before ++ left], parts, before, left, right, after, rfl, word_cut, left_some,
        right_some, by simp, back_cut⟩

/-- A character that was kept, or an occurrence that was struck. -/
inductive Token (α : Type u) where
  | kept (a : α)
  | struck (word : List α) (nonempty : word ≠ [])
  deriving DecidableEq

namespace Token

def original : List (Token α) → List α
  | [] => []
  | kept a :: ts => a :: original ts
  | struck w _ :: ts => w ++ original ts

def render (mark : List α) : List (Token α) → List α
  | [] => []
  | kept a :: ts => a :: render mark ts
  | struck _ _ :: ts => mark ++ render mark ts

/-- Which characters of the text were struck. -/
def struckMask : List (Token α) → List Bool
  | [] => []
  | kept _ :: ts => false :: struckMask ts
  | struck w _ :: ts => w.map (fun _ => true) ++ struckMask ts

variable {word mark : List α} {ts : List (Token α)}

variable (front back : List (Token α))

lemma original_append : original (front ++ back) = original front ++ original back := by
  induction front with
  | nil => rfl
  | cons t front ih => cases t <;> simp [original, ih]

lemma render_append : render mark (front ++ back) = render mark front ++ render mark back := by
  induction front with
  | nil => rfl
  | cons t front ih => cases t <;> simp [render, ih]

lemma struckMask_append : struckMask (front ++ back) = struckMask front ++ struckMask back := by
  induction front with
  | nil => rfl
  | cons t front ih => cases t <;> simp [struckMask, ih]

lemma length_struckMask (ts : List (Token α)) :
    (struckMask ts).length = (original ts).length := by
  induction ts with
  | nil => rfl
  | cons t ts ih => cases t <;> simp [struckMask, original, ih]

variable (t : List α)

lemma original_kept : original (t.map kept) = t := by
  induction t with
  | nil => rfl
  | cons a t ih => exact congrArg (a :: ·) ih

lemma render_kept : render mark (t.map kept) = t := by
  induction t with
  | nil => rfl
  | cons a t ih => exact congrArg (a :: ·) ih

lemma struckMask_kept : struckMask (t.map kept) = t.map (fun _ => false) := by
  induction t with
  | nil => rfl
  | cons a t ih => exact congrArg (false :: ·) ih

lemma map_kept_ne_nil (h : word ≠ []) : word.map kept ≠ [] :=
  fun none => h (map_eq_nil_iff.mp none)

/-- A word without characters of the mark is read where it was kept. -/
lemma prefix_render (mark_nonempty : mark ≠ []) (disjoint : ∀ a ∈ mark, a ∉ word) :
    word <+: render mark ts ↔ word.map kept <+: ts := by
  induction word generalizing ts with
  | nil => simp
  | cons a w ih =>
    have later : w <+: render mark ts.tail ↔ _ :=
      ih (fun b hb h => disjoint b hb (mem_cons_of_mem a h))
    cases ts with
    | nil => simp [render]
    | cons t ts =>
      cases t with
      | kept b =>
        rw [render, map_cons, cons_prefix_cons, cons_prefix_cons, Token.kept.injEq]
        exact and_congr_right (fun _ => later)
      | struck w' _ =>
        cases mark with
        | nil => exact absurd rfl mark_nonempty
        | cons m mark =>
          have differ : a ≠ m := fun h => disjoint m mem_cons_self (h ▸ mem_cons_self)
          simp [render, cons_prefix_cons, differ]

lemma infix_render (mark_nonempty : mark ≠ []) (disjoint : ∀ a ∈ mark, a ∉ word)
    (nonempty : word ≠ []) : word <:+: render mark ts ↔ word.map kept <:+: ts := by
  induction ts with
  | nil => simp [render]
  | cons t ts ih =>
    have starts : word <+: render mark (t :: ts) ↔ _ := prefix_render mark_nonempty disjoint
    cases t with
    | kept a => rw [infix_cons_iff, ← starts, ← ih, render, infix_cons_iff]
    | struck w some_char =>
      have other : ¬ word.map kept <+: struck w some_char :: ts := by
        cases word with
        | nil => exact absurd rfl nonempty
        | cons b w' => simp [cons_prefix_cons]
      rw [render, infix_disjoint_append nonempty disjoint, ih, infix_cons_iff, or_iff_right other]

lemma prefix_kept {after : List α} (text : original ts = word ++ after)
    (kept_ : ∀ k < word.length, (struckMask ts)[k]? ≠ some true) : word.map kept <+: ts := by
  induction word generalizing ts with
  | nil => exact nil_prefix
  | cons a w ih =>
    cases ts with
    | nil => cases text
    | cons t ts =>
      cases t with
      | kept b =>
        obtain ⟨rfl, rest⟩ := List.cons.inj text
        have later := ih rest (fun k hk => kept_ (k + 1) (Nat.succ_lt_succ hk))
        exact cons_prefix_cons.mpr ⟨rfl, later⟩
      | struck w' some_char =>
        cases w' with
        | nil => exact absurd rfl some_char
        | cons b w' => exact absurd rfl (kept_ 0 (Nat.succ_pos _))

lemma not_struck_between {k : Nat} (first : (original front).length ≤ k)
    (last : k < (original front).length + word.length) :
    (struckMask (front ++ word.map kept ++ back))[k]? ≠ some true := by
  rw [← length_struckMask] at first last
  rw [struckMask_append, struckMask_append, struckMask_kept,
    getElem?_append_left (by simpa using last), getElem?_append_right first]
  intro struck
  have found := mem_of_getElem? struck
  simp at found

/-- A word is kept where it stands in the text and no character of it is struck. -/
lemma infix_kept_iff (nonempty : word ≠ []) :
    word.map kept <:+: ts ↔ ∃ before after, original ts = before ++ word ++ after ∧
      ∀ k, before.length ≤ k → k < before.length + word.length →
        (struckMask ts)[k]? ≠ some true := by
  constructor
  · rintro ⟨front, back, rfl⟩
    exact ⟨original front, original back, by simp [original_append, original_kept],
      fun k first last => not_struck_between front back first last⟩
  · rintro ⟨before, after, text, untouched⟩
    induction ts generalizing before with
    | nil => simp [original, nonempty] at text
    | cons t ts ih =>
      cases t with
      | kept a =>
        cases before with
        | nil =>
          have starts := prefix_kept (by simpa using text)
            (fun k hk => untouched k (Nat.zero_le k) (by simpa using hk))
          exact starts.isInfix
        | cons b before =>
          refine infix_cons (ih before (List.cons.inj text).2 (fun k hk hk' => ?_))
          have here := untouched (k + 1) (Nat.succ_le_succ hk) (by rw [length_cons]; omega)
          exact here
      | struck w some_char =>
        -- The occurrence begins behind the struck word, or its first character is struck.
        have behind : w.length ≤ before.length := by
          by_contra short
          have first := untouched before.length (Nat.le_refl _)
            (by have := length_pos_iff.mpr nonempty; omega)
          rw [struckMask, getElem?_append_left (by simpa using short)] at first
          simp [show before.length < w.length by omega] at first
        rw [original, append_assoc] at text
        obtain ⟨rest, rfl⟩ : w <+: before := by
          have starts := prefix_append w (original ts)
          rw [text] at starts
          exact prefix_of_prefix_length_le starts (prefix_append _ _) behind
        rw [append_assoc, append_cancel_left_eq, ← append_assoc] at text
        refine infix_cons (ih rest text (fun k hk hk' => ?_))
        have here := untouched (w.length + k) (by rw [length_append]; omega)
          (by rw [length_append]; omega)
        rwa [struckMask, getElem?_append_right (by simp), length_map,
          Nat.add_sub_cancel_left] at here

end Token

section Replace
variable [DecidableEq α]

/-- Replace, after `skip` more characters of the occurrence just replaced. -/
def replaceFrom (word new : List α) : Nat → List α → List α
  | _, [] => []
  | skip + 1, _ :: t => replaceFrom word new skip t
  | 0, a :: t =>
    if word <+: a :: t then new ++ replaceFrom word new (word.length - 1) t
    else a :: replaceFrom word new 0 t

/-- The text with the leftmost, non-overlapping occurrences of a nonempty word replaced. -/
def replace (word new t : List α) : List α :=
  replaceFrom word new 0 t

variable {word new : List α}

lemma replaceFrom_eq (word new : List α) (skip : Nat) (t : List α) :
    replaceFrom word new skip t = replace word new (t.drop skip) := by
  induction t generalizing skip with
  | nil => cases skip <;> rfl
  | cons a t ih =>
    cases skip with
    | zero => rfl
    | succ skip => exact ih skip

lemma replace_append (nonempty : word ≠ []) (t : List α) :
    replace word new (word ++ t) = new ++ replace word new t := by
  cases word with
  | nil => exact absurd rfl nonempty
  | cons a w =>
    have occurs : a :: w <+: a :: (w ++ t) := prefix_append (a :: w) t
    rw [cons_append, replace, replaceFrom, if_pos occurs, replaceFrom_eq]
    simp

lemma replace_cons {a : α} {t : List α} (h : ¬ word <+: a :: t) :
    replace word new (a :: t) = a :: replace word new t := by
  rw [replace, replaceFrom, if_neg h]
  rfl

/-- The recursion of `replace`: over an occurrence, or over one character. -/
lemma replace_induction {P : List α → Prop} (nonempty : word ≠ []) (nil : P [])
    (occurrence : ∀ t, P t → P (word ++ t))
    (other : ∀ a t, ¬ word <+: a :: t → P t → P (a :: t)) (t : List α) : P t := by
  induction size : t.length using Nat.strong_induction_on generalizing t with
  | _ size' ih =>
    cases t with
    | nil => exact nil
    | cons a t =>
      by_cases occurs : word <+: a :: t
      · obtain ⟨rest, cut⟩ := occurs
        have shorter : rest.length < size' := by
          have long := length_pos_iff.mpr nonempty
          have total := congrArg length cut
          rw [length_append, size] at total
          omega
        rw [← cut]
        exact occurrence rest (ih rest.length shorter rest rfl)
      · exact other a t occurs (ih t.length (by rw [← size]; exact Nat.lt_succ_self _) t rfl)

lemma replace_of_absent {t : List α} (absent : ¬ word <:+: t) : replace word new t = t := by
  induction t with
  | nil => rfl
  | cons a t ih =>
    rw [replace_cons (fun h => absent h.isInfix), ih (fun h => absent (infix_cons h))]

/-- Text that shares no character with the word is left alone. -/
lemma replace_disjoint_append (nonempty : word ≠ []) {u : List α} (disjoint : ∀ a ∈ u, a ∉ word)
    (t : List α) : replace word new (u ++ t) = u ++ replace word new t := by
  induction u with
  | nil => rfl
  | cons a u ih =>
    have other : ¬ word <+: a :: (u ++ t) := by
      intro h
      cases word with
      | nil => exact nonempty rfl
      | cons b w =>
        obtain ⟨rfl, _⟩ := cons_prefix_cons.mp h
        exact disjoint b mem_cons_self mem_cons_self
    rw [cons_append, replace_cons other, ih (fun b hb => disjoint b (mem_cons_of_mem a hb))]
    rfl

/-- So is text behind, when no occurrence reaches into it. -/
lemma replace_append_disjoint (nonempty : word ≠ []) {u : List α} (disjoint : ∀ a ∈ u, a ∉ word)
    (t : List α) : replace word new (t ++ u) = replace word new t ++ u := by
  induction t using replace_induction nonempty with
  | nil => simpa [replace, replaceFrom] using replace_disjoint_append nonempty disjoint []
  | occurrence t ih =>
    rw [append_assoc, replace_append nonempty, replace_append nonempty, ih, append_assoc]
  | other a t absent ih =>
    have other : ¬ word <+: a :: (t ++ u) := by
      intro begins
      rcases prefix_or_prefix_of_prefix begins (prefix_append (a :: t) u) with here | beyond
      · exact absent here
      · obtain ⟨rest, rfl⟩ := beyond
        cases rest with
        | nil => exact absent (by simp)
        | cons b rest =>
          rw [← cons_append, prefix_append_right_inj] at begins
          exact disjoint b (begins.subset mem_cons_self) (by simp)
    rw [cons_append, replace_cons other, replace_cons absent, ih]
    rfl

namespace Token
variable {mark : List α} {ts : List (Token α)}

def strike (nonempty : word ≠ []) (ts : List (Token α)) : List (Token α) :=
  replace (word.map kept) [struck word nonempty] ts

variable (nonempty : word ≠ [])

lemma strike_append (ts : List (Token α)) :
    strike nonempty (word.map kept ++ ts) = struck word nonempty :: strike nonempty ts :=
  replace_append (map_kept_ne_nil nonempty) ts

lemma render_strike (mark_nonempty : mark ≠ []) (disjoint : ∀ a ∈ mark, a ∉ word)
    (nonempty : word ≠ []) (ts : List (Token α)) :
    render mark (strike nonempty ts) = replace word mark (render mark ts) := by
  induction ts using replace_induction (map_kept_ne_nil nonempty) with
  | nil => rfl
  | occurrence ts ih =>
    rw [strike_append nonempty, render, render_append, render_kept, replace_append nonempty, ih]
  | other t ts absent ih =>
    rw [strike, replace_cons absent]
    cases t with
    | kept a =>
      have absent' : ¬ word <+: a :: render mark ts :=
        fun h => absent ((@prefix_render _ _ _ (kept a :: ts) mark_nonempty disjoint).mp h)
      rw [render, render, replace_cons absent']
      exact congrArg (a :: ·) ih
    | struck w _ =>
      rw [render, render, replace_disjoint_append nonempty disjoint]
      exact congrArg (mark ++ ·) ih

lemma original_strike (ts : List (Token α)) : original (strike nonempty ts) = original ts := by
  induction ts using replace_induction (map_kept_ne_nil nonempty) with
  | nil => rfl
  | occurrence ts ih => rw [strike_append nonempty, original, original_append, original_kept, ih]
  | other t ts absent ih =>
    rw [strike, replace_cons absent]
    cases t with
    | kept a => exact congrArg (a :: ·) ih
    | struck w _ => exact congrArg (w ++ ·) ih

variable {u : List α}

lemma prefix_of_prefix_strike (h : u.map kept <+: strike nonempty ts) : u.map kept <+: ts := by
  induction ts using replace_induction (map_kept_ne_nil nonempty) generalizing u with
  | nil => exact h
  | occurrence ts ih =>
    cases u with
    | nil => exact nil_prefix
    | cons a u =>
      rw [strike_append nonempty] at h
      cases (cons_prefix_cons.mp h).1
  | other t ts absent ih =>
    rw [strike, replace_cons absent] at h
    cases u with
    | nil => exact nil_prefix
    | cons a u =>
      obtain ⟨rfl, later⟩ := cons_prefix_cons.mp h
      exact cons_prefix_cons.mpr ⟨rfl, ih later⟩

/-- Striking a word leaves no other text that was not kept before. -/
lemma infix_of_infix_strike (h : u.map kept <:+: strike nonempty ts) : u.map kept <:+: ts := by
  induction ts using replace_induction (map_kept_ne_nil nonempty) with
  | nil => exact h
  | occurrence ts ih =>
    rw [strike_append nonempty] at h
    rcases infix_cons_iff.mp h with starts | later
    · cases u with
      | nil => exact nil_infix
      | cons a u => cases (cons_prefix_cons.mp starts).1
    · exact (ih later).trans (suffix_append _ _).isInfix
  | other t ts absent ih =>
    have starts : u.map kept <+: strike nonempty (t :: ts) → _ := prefix_of_prefix_strike nonempty
    rw [strike, replace_cons absent] at h starts
    rcases infix_cons_iff.mp h with here | later
    · exact (starts here).isInfix
    · exact infix_cons (ih later)

lemma not_infix_strike (ts : List (Token α)) : ¬ word.map kept <:+: strike nonempty ts := by
  induction ts using replace_induction (map_kept_ne_nil nonempty) with
  | nil => exact fun h => nonempty (map_eq_nil_iff.mp (infix_nil.mp h))
  | occurrence ts ih =>
    rw [strike_append nonempty, infix_cons_iff, not_or]
    refine ⟨fun starts => ?_, ih⟩
    cases word with
    | nil => exact nonempty rfl
    | cons a w => cases (cons_prefix_cons.mp starts).1
  | other t ts absent ih =>
    have starts : word.map kept <+: strike nonempty (t :: ts) → _ :=
      prefix_of_prefix_strike nonempty
    rw [strike, replace_cons absent] at starts ⊢
    rw [infix_cons_iff, not_or]
    exact ⟨fun h => absent (starts h), ih⟩

/-- Strike word after word; an empty word strikes nothing. -/
def strikeAll (words : List (List α)) (ts : List (Token α)) : List (Token α) :=
  words.foldl (fun ts w => if h : w = [] then ts else strike h ts) ts

variable {words : List (List α)}

lemma strikeAll_cons (w : List α) (words : List (List α)) (ts : List (Token α)) :
    strikeAll (w :: words) ts = strikeAll words (if h : w = [] then ts else strike h ts) :=
  rfl

lemma original_strikeAll (words : List (List α)) (ts : List (Token α)) :
    original (strikeAll words ts) = original ts := by
  induction words generalizing ts with
  | nil => rfl
  | cons w words ih =>
    rw [strikeAll_cons, ih]
    split
    · rfl
    · exact original_strike _ ts

lemma infix_of_infix_strikeAll (h : u.map kept <:+: strikeAll words ts) : u.map kept <:+: ts := by
  induction words generalizing ts with
  | nil => exact h
  | cons w words ih =>
    rw [strikeAll_cons] at h
    have before := ih h
    split at before
    · exact before
    · exact infix_of_infix_strike _ before

lemma not_infix_strikeAll (member : word ∈ words) (nonempty : word ≠ []) (ts : List (Token α)) :
    ¬ word.map kept <:+: strikeAll words ts := by
  induction words generalizing ts with
  | nil => cases member
  | cons w words ih =>
    rw [strikeAll_cons]
    rcases mem_cons.mp member with rfl | later
    · intro h
      have before := infix_of_infix_strikeAll h
      rw [dif_neg nonempty] at before
      exact not_infix_strike nonempty ts before
    · exact ih later _

end Token
end Replace
end Redaction
