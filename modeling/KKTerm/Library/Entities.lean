import KKTerm.Library.Redaction

/-!
# Characters written as entities

Some characters are written as words that begin with a mark, and are read back by
replacing one word after the other. A word that stands in the text itself is read back
too, unless the mark is written as a word of its own that is read last.
-/

namespace Entities

open List Redaction

universe u
variable {α : Type u}

/-- A character and what stands behind the mark for it. -/
structure Entity (α : Type u) where
  char : α
  name : List α

def Entity.word (mark : α) (e : Entity α) : List α :=
  mark :: e.name

/-- The words do not begin with one another and hold nothing that is written as a word. -/
structure Apart (mark : α) (es : List (Entity α)) : Prop where
  unmarked : ∀ e ∈ es, mark ∉ e.name
  plain : ∀ e ∈ es, ∀ f ∈ es, f.char ∉ e.name
  prefixFree : es.Pairwise (fun e f => ¬ e.name <+: f.name ∧ ¬ f.name <+: e.name)
  chars : (es.map Entity.char).Nodup

section Words
variable {mark : α} {e f : Entity α} {es : List (Entity α)}

lemma word_ne_nil : e.word mark ≠ [] :=
  cons_ne_nil _ _

lemma Apart.tail (h : Apart mark (e :: es)) : Apart mark es where
  unmarked f member := h.unmarked f (mem_cons_of_mem e member)
  plain f member g member' := h.plain f (mem_cons_of_mem e member) g (mem_cons_of_mem e member')
  prefixFree := (pairwise_cons.mp h.prefixFree).2
  chars := (nodup_cons.mp h.chars).2

/-- The character of the first entity is none of the others. -/
lemma Apart.other (h : Apart mark (e :: es)) : ∀ f ∈ es, f.char ≠ e.char := by
  intro f member same
  exact (nodup_cons.mp h.chars).1 (mem_map.mpr ⟨f, member, same⟩)

end Words

variable [DecidableEq α]

def encodeChar (mark : α) (es : List (Entity α)) (a : α) : List α :=
  match es.find? (fun e => e.char = a) with
  | some e => e.word mark
  | none => [a]

def encode (mark : α) (es : List (Entity α)) (t : List α) : List α :=
  t.flatMap (encodeChar mark es)

def decode (mark : α) (es : List (Entity α)) (t : List α) : List α :=
  es.foldl (fun t e => Redaction.replace (e.word mark) [e.char] t) t

section Encode
variable {mark : α} {e f : Entity α} {es : List (Entity α)} {a : α} {t : List α}

lemma encode_cons (a : α) (t : List α) :
    encode mark es (a :: t) = encodeChar mark es a ++ encode mark es t :=
  flatMap_cons

lemma encode_append (s t : List α) :
    encode mark es (s ++ t) = encode mark es s ++ encode mark es t :=
  flatMap_append

lemma encodeChar_plain (h : ∀ e ∈ es, e.char ≠ a) : encodeChar mark es a = [a] := by
  have none : es.find? (fun e => e.char = a) = none := by simpa using h
  rw [encodeChar, none]

lemma encode_plain (h : ∀ a ∈ t, ∀ e ∈ es, e.char ≠ a) : encode mark es t = t := by
  induction t with
  | nil => rfl
  | cons a t ih =>
    rw [encode_cons, encodeChar_plain (h a mem_cons_self),
      ih (fun b member => h b (mem_cons_of_mem a member))]
    rfl

lemma encodeChar_cases (mark : α) (es : List (Entity α)) (a : α) :
    (∃ e ∈ es, e.char = a ∧ encodeChar mark es a = e.word mark) ∨
      ((∀ e ∈ es, e.char ≠ a) ∧ encodeChar mark es a = [a]) := by
  cases found : es.find? (fun e => e.char = a) with
  | none =>
    right
    have other : ∀ e ∈ es, e.char ≠ a := by simpa using found
    exact ⟨other, encodeChar_plain other⟩
  | some e =>
    left
    have same := find?_some found
    rw [decide_eq_true_iff] at same
    refine ⟨e, mem_of_find?_eq_some found, same, ?_⟩
    rw [encodeChar, found]

/-- A text without the mark that begins a written text begins the text itself. -/
lemma prefix_of_prefix_encode {u : List α} (unmarked : mark ∉ u) (h : u <+: encode mark es t) :
    u <+: t := by
  induction u generalizing t with
  | nil => exact nil_prefix
  | cons b u ih =>
    cases t with
    | nil => exact h
    | cons a t =>
      rw [encode_cons] at h
      rcases encodeChar_cases mark es a with ⟨e, -, -, written⟩ | ⟨-, written⟩
      · rw [written, Entity.word, cons_append, cons_prefix_cons] at h
        exact absurd (h.1 ▸ mem_cons_self) unmarked
      · rw [written, singleton_append, cons_prefix_cons] at h
        exact cons_prefix_cons.mpr
          ⟨h.1, ih (fun member => unmarked (mem_cons_of_mem b member)) h.2⟩

/-- A text is passed over when the word begins at none of its places. -/
lemma replace_pass {word new u : List α}
    (clear : ∀ front back, u = front ++ back → back ≠ [] → ∀ t, ¬ word <+: back ++ t)
    (t : List α) : Redaction.replace word new (u ++ t) = u ++ Redaction.replace word new t := by
  induction u with
  | nil => rfl
  | cons a u ih =>
    have here : ¬ word <+: a :: (u ++ t) := clear [] (a :: u) rfl (by simp) t
    rw [cons_append, Redaction.replace_cons here, ih]
    · rfl
    · intro front back cut
      exact clear (a :: front) back (congrArg (a :: ·) cut)

lemma replace_word_append (unmarked : mark ∉ f.name) (first : ¬ e.name <+: f.name)
    (second : ¬ f.name <+: e.name) (t : List α) :
    Redaction.replace (e.word mark) [e.char] (f.word mark ++ t) =
      f.word mark ++ Redaction.replace (e.word mark) [e.char] t := by
  apply replace_pass
  intro front back cut nonempty t h
  cases front with
  | nil =>
    rw [← show f.word mark = back from cut, Entity.word, Entity.word, cons_append,
      cons_prefix_cons] at h
    rcases prefix_or_prefix_of_prefix h.2 (prefix_append f.name t) with inside | inside
    · exact first inside
    · exact second inside
  | cons a front =>
    obtain ⟨b, back, rfl⟩ := exists_cons_of_ne_nil nonempty
    obtain ⟨-, cut⟩ := List.cons.inj cut
    rw [Entity.word, cons_append, cons_prefix_cons] at h
    apply unmarked
    rw [cut, h.1]
    simp

lemma encodeChar_self : encodeChar mark (e :: es) e.char = e.word mark := by
  rw [encodeChar, find?_cons_of_pos (by simp)]

lemma encodeChar_skip (h : e.char ≠ a) : encodeChar mark (e :: es) a = encodeChar mark es a := by
  rw [encodeChar, find?_cons_of_neg (by simpa using h)]
  rfl

lemma Apart.pass (h : Apart mark (e :: es)) (member : f ∈ es) (t : List α) :
    Redaction.replace (e.word mark) [e.char] (f.word mark ++ t) =
      f.word mark ++ Redaction.replace (e.word mark) [e.char] t :=
  have apart := (pairwise_cons.mp h.prefixFree).1 f member
  replace_word_append (h.unmarked f (mem_cons_of_mem e member)) apart.1 apart.2 t

/-- Reading the first word back reads it in the text as well, when the mark is not
written as a word. -/
lemma replace_encode (h : Apart mark (e :: es)) (uncoded : ∀ f ∈ e :: es, f.char ≠ mark)
    (t : List α) :
    Redaction.replace (e.word mark) [e.char] (encode mark (e :: es) t) =
      encode mark es (Redaction.replace (e.word mark) [e.char] t) := by
  have self : encodeChar mark es e.char = [e.char] := encodeChar_plain h.other
  have nonempty : e.word mark ≠ [] := word_ne_nil
  induction t using replace_induction nonempty with
  | nil => rfl
  | occurrence t ih =>
    have plain : encode mark (e :: es) (e.word mark) = e.word mark := by
      apply encode_plain
      intro a member f known same
      rcases mem_cons.mp member with rfl | member
      · exact uncoded f known same
      · exact h.plain e mem_cons_self f known (same ▸ member)
    rw [encode_append, plain, Redaction.replace_append word_ne_nil, ih,
      Redaction.replace_append word_ne_nil, singleton_append, singleton_append, encode_cons,
      self]
    rfl
  | other a t absent ih =>
    rw [encode_cons, Redaction.replace_cons absent, encode_cons]
    by_cases first : e.char = a
    · subst first
      rw [encodeChar_self, Redaction.replace_append word_ne_nil, ih, self]
    · rw [encodeChar_skip first]
      rcases encodeChar_cases mark es a with ⟨f, known, -, written⟩ | ⟨-, written⟩
      · rw [written, h.pass known, ih]
      · have clear : ¬ e.word mark <+: a :: encode mark (e :: es) t := by
          intro begins
          obtain ⟨same, begins⟩ := cons_prefix_cons.mp begins
          apply absent
          exact cons_prefix_cons.mpr
            ⟨same, prefix_of_prefix_encode (h.unmarked e mem_cons_self) begins⟩
        rw [written]
        exact (Redaction.replace_cons clear).trans (congrArg (a :: ·) ih)

/-- Reading the word of the mark back leaves the text with the other words written. -/
lemma replace_encode_mark (h : Apart mark (e :: es)) (coded : e.char = mark) (t : List α) :
    Redaction.replace (e.word mark) [e.char] (encode mark (e :: es) t) = encode mark es t := by
  induction t with
  | nil => rfl
  | cons a t ih =>
    rw [encode_cons, encode_cons]
    by_cases first : e.char = a
    · subst first
      rw [encodeChar_self, Redaction.replace_append word_ne_nil, ih, encodeChar_plain h.other]
    · rw [encodeChar_skip first]
      rcases encodeChar_cases mark es a with ⟨f, known, -, written⟩ | ⟨-, written⟩
      · rw [written, h.pass known, ih]
      · have clear : ¬ e.word mark <+: a :: encode mark (e :: es) t := by
          intro begins
          exact first (coded.trans (cons_prefix_cons.mp begins).1)
        rw [written]
        exact (Redaction.replace_cons clear).trans (congrArg (a :: ·) ih)

lemma decode_cons (t : List α) :
    decode mark (e :: es) t = decode mark es (Redaction.replace (e.word mark) [e.char] t) :=
  rfl

lemma decode_encode (h : Apart mark es) (uncoded : ∀ f ∈ es, f.char ≠ mark) (t : List α) :
    decode mark es (encode mark es t) = decode mark es t := by
  induction es generalizing t with
  | nil => exact congrArg (decode mark []) (encode_plain (fun _ _ f known => nomatch known))
  | cons e es ih =>
    rw [decode_cons, replace_encode h uncoded, decode_cons]
    exact ih h.tail (fun f member => uncoded f (mem_cons_of_mem e member)) _

/-- When the mark is read first, all other words that stand in the text are read too. -/
lemma decode_encode_mark (h : Apart mark (e :: es)) (coded : e.char = mark) (t : List α) :
    decode mark (e :: es) (encode mark (e :: es) t) = decode mark es t := by
  rw [decode_cons, replace_encode_mark h coded]
  exact decode_encode h.tail (fun f member => coded ▸ h.other f member) t

end Encode

section Decode
variable {mark : α} {es : List (Entity α)} {t : List α}

/-- A word of two characters or more becomes one character. -/
lemma length_replace {word : List α} {c : α} (long : 2 ≤ word.length) (t : List α) :
    (Redaction.replace word [c] t).length ≤ t.length ∧
      ((Redaction.replace word [c] t).length = t.length → ¬ word <:+: t) := by
  have nonempty : word ≠ [] := by
    rintro rfl
    exact absurd long (Nat.not_succ_le_zero 1)
  induction t using replace_induction nonempty with
  | nil => refine ⟨Nat.le_refl 0, fun _ h => nonempty (infix_nil.mp h)⟩
  | occurrence t ih =>
    rw [Redaction.replace_append nonempty, length_append, length_append, length_singleton]
    have shorter := ih.1
    exact ⟨by omega, fun same => by omega⟩
  | other a t absent ih =>
    rw [Redaction.replace_cons absent, length_cons, length_cons]
    refine ⟨Nat.succ_le_succ ih.1, fun same inside => ?_⟩
    rcases infix_cons_iff.mp inside with here | later
    · exact absent here
    · exact ih.2 (Nat.succ.inj same) later

lemma length_decode (names : ∀ e ∈ es, e.name ≠ []) (t : List α) :
    (decode mark es t).length ≤ t.length ∧
      ((decode mark es t).length = t.length → ∀ e ∈ es, ¬ e.word mark <:+: t) := by
  induction es generalizing t with
  | nil => exact ⟨Nat.le_refl _, fun _ e known => nomatch known⟩
  | cons e es ih =>
    have long : 2 ≤ (e.word mark).length :=
      Nat.succ_le_succ (length_pos_iff.mpr (names e mem_cons_self))
    have first := length_replace (c := e.char) long t
    have rest := ih (fun f member => names f (mem_cons_of_mem e member))
      (Redaction.replace (e.word mark) [e.char] t)
    rw [decode_cons]
    refine ⟨Nat.le_trans rest.1 first.1, fun same => ?_⟩
    have kept := first.2 (by omega)
    rw [replace_of_absent kept] at rest same
    exact forall_mem_cons.mpr ⟨kept, rest.2 same⟩

lemma decode_of_absent (absent : ∀ e ∈ es, ¬ e.word mark <:+: t) : decode mark es t = t := by
  induction es with
  | nil => rfl
  | cons e es ih =>
    obtain ⟨first, rest⟩ := forall_mem_cons.mp absent
    rw [decode_cons, replace_of_absent first, ih rest]

/-- Text that shares no character with the words stays where it is, before and behind. -/
lemma decode_between {u v : List α} (front : ∀ a ∈ u, ∀ e ∈ es, a ∉ e.word mark)
    (back : ∀ a ∈ v, ∀ e ∈ es, a ∉ e.word mark) (t : List α) :
    decode mark es (u ++ (t ++ v)) = u ++ (decode mark es t ++ v) := by
  induction es generalizing t with
  | nil => rfl
  | cons e es ih =>
    have first : ∀ a ∈ u, a ∉ e.word mark := fun a member => front a member e mem_cons_self
    have last : ∀ a ∈ v, a ∉ e.word mark := fun a member => back a member e mem_cons_self
    rw [decode_cons, replace_disjoint_append word_ne_nil first,
      replace_append_disjoint word_ne_nil last, decode_cons]
    exact ih (fun a member f known => front a member f (mem_cons_of_mem e known))
      (fun a member f known => back a member f (mem_cons_of_mem e known)) _

lemma exists_mem_decode {p : α → Prop} (chars : ∀ e ∈ es, p e.char) (h : ∃ a ∈ t, p a) :
    ∃ a ∈ decode mark es t, p a := by
  induction es generalizing t with
  | nil => exact h
  | cons e es ih =>
    rw [decode_cons]
    refine ih (fun f member => chars f (mem_cons_of_mem e member)) ?_
    have nonempty : e.word mark ≠ [] := word_ne_nil
    induction t using replace_induction nonempty with
    | nil => exact h
    | occurrence t =>
      rw [Redaction.replace_append word_ne_nil]
      exact ⟨e.char, mem_cons_self, chars e mem_cons_self⟩
    | other a t absent ih =>
      rw [Redaction.replace_cons absent]
      obtain ⟨b, member, kind⟩ := h
      rcases mem_cons.mp member with rfl | member
      · exact ⟨b, mem_cons_self, kind⟩
      · obtain ⟨d, inside, kind⟩ := ih ⟨b, member, kind⟩
        exact ⟨d, mem_cons_of_mem a inside, kind⟩

end Decode

end Entities
