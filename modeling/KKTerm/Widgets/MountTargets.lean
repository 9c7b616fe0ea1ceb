import KKTerm.Library.Octets
import KKTerm.Widgets.StoredBody

/-!
# Mount targets of a widget script

The ids that a script hands to `document.getElementById` are read from the octets of its
source, whether the call stands in code, in a comment or in a template. The reading goes
on behind each call. A quote that is never closed takes it one octet behind the end of
the source, where no text can be cut.
-/

namespace Widgets.MountTargets

open Octets List Option UInt8

def isWhitespaceOctet (b : UInt8) : Bool :=
  b == 0x20 || b == 0x09 || b == 0x0a || b == 0x0c || b == 0x0d

/-- The index behind white space, in the octets from an index on. -/
def skipWhitespace : List UInt8 → Nat → Nat
  | [], i => i
  | b :: rest, i => if isWhitespaceOctet b then skipWhitespace rest (i + 1) else i

/-- The index of the closing quote, in the octets from an index on. -/
def closing (quote : UInt8) : Bool → List UInt8 → Nat → Option Nat
  | _, [], _ => none
  | escaped, b :: rest, i =>
    if b = 0x5c ∧ escaped = false then closing quote true rest (i + 1)
    else if b = quote ∧ escaped = false then some i
    else closing quote false rest (i + 1)

/-- What one turn of the loop comes to. -/
inductive Turn where
  | panic
  | done
  | next (offset : Nat) (id : Option (List Char))
  deriving DecidableEq

/-- The quoted text from the octet `i` on. -/
def readText (source : List Char) (quote : UInt8) (i : Nat) : Turn :=
  match closing quote false ((encode source).drop i) i with
  | some stop =>
    match slice source i stop with
    | some id => .next (stop + 1) (some id)
    | none => .panic
  | none => .next ((encode source).length + 1) none

/-- The argument whose parenthesis is open at the octet `i`. -/
def readArgument (source : List Char) (i : Nat) : Turn :=
  let i := skipWhitespace ((encode source).drop i) i
  match (encode source)[i]? with
  | none => .next i none
  | some quote =>
    if quote ≠ 0x27 ∧ quote ≠ 0x22 then .next i none else readText source quote (i + 1)

/-- The call whose text ends at the octet `i`. -/
def readCall (source : List Char) (i : Nat) : Turn :=
  let i := skipWhitespace ((encode source).drop i) i
  if (encode source)[i]? ≠ some 0x28 then .next i none else readArgument source (i + 1)

def turn (source : List Char) (offset : Nat) : Turn :=
  match dropOctets source offset with
  | none => .panic
  | some rest =>
    match find getElementById rest with
    | none => .done
    | some relative => readCall source (offset + relative + getElementById.length)

inductive Outcome where
  | unfinished
  | panicked
  | returned (ids : List (List Char))
  deriving DecidableEq

def scan (source : List Char) : Nat → Nat → List (List Char) → Outcome
  | 0, _, _ => .unfinished
  | fuel + 1, offset, ids =>
    match turn source offset with
    | .panic => .panicked
    | .done => .returned ids
    | .next offset id => scan source fuel offset (ids ++ id.toList)

/-- Every turn but the last goes beyond a call text. -/
def extractGetElementByIdTargets (source : List Char) : Outcome :=
  scan source ((encode source).length + 1) 0 []

inductive Argument where
  | missing (rest : List Char)
  | quoted (id rest : List Char)
  | unclosed
  deriving DecidableEq

namespace Argument

def id? : Argument → Option (List Char)
  | quoted id _ => some id
  | _ => none

def rest? : Argument → Option (List Char)
  | missing rest => some rest
  | quoted _ rest => some rest
  | unclosed => none

end Argument

/-- What stands behind an open parenthesis: nothing that is read, a quoted text, or a quote
that is never closed. -/
def quotedArgument : List Char → Argument
  | [] => .missing []
  | quote :: rest =>
    if quote = '\'' ∨ quote = '"' then
      match readQuoted quote false rest with
      | some (id, behind) => .quoted id behind
      | none => .unclosed
    else .missing (quote :: rest)

def argument (t : List Char) : Argument :=
  match t.dropWhile isAsciiWhitespace with
  | [] => .missing []
  | c :: rest =>
    if c = '(' then quotedArgument (rest.dropWhile isAsciiWhitespace) else .missing (c :: rest)

/-- The texts behind all call texts of a source. -/
def occurrences : List Char → List (List Char)
  | [] => []
  | c :: t =>
    if getElementById.isPrefixOf (c :: t) then
      (c :: t).drop getElementById.length :: occurrences t
    else occurrences t

/-- The quoted first arguments of all call texts whose quote is closed. -/
def closedArguments (source : List Char) : List (List Char) :=
  (occurrences source).filterMap (fun u => (argument u).id?)

section Loops

variable {front rest t u : List Char}

variable {c quote : Char} {needle : List Char}

lemma isWhitespaceOctet_ascii (ascii : c.toNat < 0x80) :
    isWhitespaceOctet (ofNat c.toNat) = isAsciiWhitespace c := by
  have same : ∀ k : UInt8, (ofNat c.toNat == k) = (c.toNat == k.toNat) := by
    intro k
    rw [Bool.eq_iff_iff, beq_iff_eq, beq_iff_eq, ← UInt8.toNat_inj, ofNat_toNat_ascii ascii]
  simp only [isWhitespaceOctet, isAsciiWhitespace, same]
  rfl

lemma isWhitespaceOctet_wide {b : UInt8} (wide : 0x80 ≤ b.toNat) :
    isWhitespaceOctet b = false := by
  have other : ∀ k : UInt8, k.toNat < 0x80 → (b == k) = false := by
    intro k bound
    rw [beq_eq_false_iff_ne]
    rintro rfl
    omega
  simp only [isWhitespaceOctet, other 0x20 (by decide), other 0x09 (by decide),
    other 0x0a (by decide), other 0x0c (by decide), other 0x0d (by decide), Bool.or_false]

lemma isAsciiWhitespace_wide (wide : 0x80 ≤ c.toNat) : isAsciiWhitespace c = false := by
  simp only [isAsciiWhitespace, Bool.or_eq_false_iff, beq_eq_false_iff_ne]
  omega

lemma skipWhitespace_encode (t : List Char) (i : Nat) :
    skipWhitespace (encode t) i = i + (encode (t.takeWhile isAsciiWhitespace)).length := by
  induction t generalizing i with
  | nil => rfl
  | cons c t ih =>
    rcases Nat.lt_or_ge c.toNat 0x80 with ascii | wide
    · rw [encode_ascii ascii, skipWhitespace, isWhitespaceOctet_ascii ascii, takeWhile_cons]
      split
      · rw [ih, encode_ascii ascii, length_cons]
        omega
      · rfl
    · obtain ⟨b, octets, split⟩ := exists_cons_of_ne_nil (String.utf8EncodeChar_ne_nil)
      have beyond : 0x80 ≤ b.toNat := le_of_mem_encodeChar wide b (split ▸ mem_cons_self)
      rw [encode_cons, split, cons_append, skipWhitespace, isWhitespaceOctet_wide beyond,
        takeWhile_cons, isAsciiWhitespace_wide wide]
      rfl

lemma closing_wide {quote : UInt8} (narrow : quote.toNat < 0x80) {octets rest : List UInt8}
    (wide : ∀ b ∈ octets, 0x80 ≤ b.toNat) (nonempty : octets ≠ []) (escaped : Bool) (i : Nat) :
    closing quote escaped (octets ++ rest) i = closing quote false rest (i + octets.length) := by
  induction octets generalizing escaped i with
  | nil => exact absurd rfl nonempty
  | cons b octets ih =>
    have beyond := wide b mem_cons_self
    have noBackslash : b ≠ 0x5c := by
      rintro rfl
      exact absurd beyond (by decide)
    have noQuote : b ≠ quote := by
      rintro rfl
      omega
    rw [cons_append, closing, if_neg (fun both => noBackslash both.1),
      if_neg (fun both => noQuote both.1)]
    rcases octets with - | ⟨next, octets⟩
    · rfl
    · rw [ih (fun b member => wide b (mem_cons_of_mem _ member)) (cons_ne_nil _ _)]
      congr 1
      simp only [length_cons]
      omega

lemma ofNat_inj {d : Char} (hc : c.toNat < 0x80) (hd : d.toNat < 0x80) :
    ofNat c.toNat = ofNat d.toNat ↔ c = d := by
  rw [← UInt8.toNat_inj, ofNat_toNat_ascii hc, ofNat_toNat_ascii hd, Char.toNat_inj]

/-- The octets of a quoted text end where its characters do. -/
lemma closing_encode (narrow : quote.toNat < 0x80) (escaped : Bool) (t : List Char) (i : Nat) :
    closing (ofNat quote.toNat) escaped (encode t) i =
      (readQuoted quote escaped t).map (fun cut => i + (encode cut.1).length) := by
  induction t generalizing escaped i with
  | nil => rfl
  | cons c t ih =>
    have next : ∀ again : Bool,
        ((readQuoted quote again t).map (fun cut => (c :: cut.1, cut.2))).map
          (fun cut => i + (encode cut.1).length) =
          (readQuoted quote again t).map (fun cut => i + c.utf8Size + (encode cut.1).length) := by
      intro again
      rw [Option.map_map]
      congr 1
      funext cut
      rw [Function.comp_apply, length_encode_cons, Nat.add_assoc]
    rcases Nat.lt_or_ge c.toNat 0x80 with ascii | wide
    · have size : c.utf8Size = 1 := by
        rw [← String.length_utf8EncodeChar, encodeChar_of_ascii ascii]
        rfl
      have backslash : ofNat c.toNat = 0x5c ↔ c = '\\' := ofNat_inj (d := '\\') ascii (by decide)
      rw [encode_ascii ascii, closing, readQuoted]
      simp only [backslash, ofNat_inj ascii narrow]
      split
      · rw [next, ih, size]
      · split
        · rfl
        · rw [next, ih, size]
    · have noBackslash : c ≠ '\\' := by
        rintro rfl
        exact absurd wide (by decide)
      have noQuote : c ≠ quote := by
        rintro rfl
        omega
      rw [encode_cons, closing_wide (by rwa [ofNat_toNat_ascii narrow])
        (le_of_mem_encodeChar wide) (String.utf8EncodeChar_ne_nil), readQuoted,
        if_neg (fun both => noBackslash both.1), if_neg (fun both => noQuote both.1), next, ih,
        String.length_utf8EncodeChar]

lemma readQuoted_eq_some {escaped : Bool} {cut : List Char × List Char}
    (closed : readQuoted quote escaped t = some cut) : t = cut.1 ++ quote :: cut.2 := by
  induction t generalizing escaped cut with
  | nil => cases closed
  | cons c t ih =>
    rw [readQuoted] at closed
    split at closed
    · obtain ⟨before, found, rfl⟩ := map_eq_some_iff.mp closed
      exact congrArg (c :: ·) (ih found)
    · split at closed
      · next here =>
        cases closed
        rw [here.1]
        rfl
      · obtain ⟨before, found, rfl⟩ := map_eq_some_iff.mp closed
        exact congrArg (c :: ·) (ih found)

lemma find_of_afterFirst (found : afterFirst needle t = some u) :
    ∃ front, t = front ++ needle ++ u ∧ find needle t = some (encode front).length := by
  induction t with
  | nil =>
    rw [afterFirst] at found
    split at found
    · next empty =>
      cases found
      exact ⟨[], by rw [empty]; rfl, by rw [find, if_pos empty]; rfl⟩
    · cases found
  | cons c t ih =>
    rw [afterFirst] at found
    split at found
    · next here =>
      obtain ⟨rest, same⟩ := isPrefixOf_iff_prefix.mp here
      cases found
      refine ⟨[], ?_, by rw [find, if_pos here]; rfl⟩
      rw [← same, drop_left]
      rfl
    · next absent =>
      obtain ⟨front, rfl, offset⟩ := ih found
      refine ⟨c :: front, rfl, ?_⟩
      rw [find, if_neg absent, offset, map_some, length_encode_cons, Nat.add_comm]

lemma find_of_none (found : afterFirst needle t = none) : find needle t = none := by
  induction t with
  | nil =>
    rw [afterFirst] at found
    split at found
    · cases found
    · next empty => rw [find, if_neg empty]
  | cons c t ih =>
    rw [afterFirst] at found
    split at found
    · cases found
    · next absent => rw [find, if_neg absent, ih found, map_none]

end Loops

section Turns

variable {front t u rest id : List Char}

/-- White space is skipped to where the first other character begins. -/
lemma skip_eq (front t : List Char) : ∃ blank, t = blank ++ t.dropWhile isAsciiWhitespace ∧
    skipWhitespace ((encode (front ++ t)).drop (encode front).length) (encode front).length =
      (encode (front ++ blank)).length := by
  refine ⟨t.takeWhile isAsciiWhitespace, takeWhile_append_dropWhile.symm, ?_⟩
  rw [drop_encode, skipWhitespace_encode, encode_append, length_append]

variable {quote : Char} {arg : Argument}

lemma readText_closed (narrow : quote.toNat < 0x80)
    (closed : readQuoted quote false t = some (id, rest)) :
    readText (front ++ t) (ofNat quote.toNat) (encode front).length =
      .next (encode (front ++ (id ++ [quote]))).length (some id) := by
  have split := readQuoted_eq_some closed
  have cutOut : slice (front ++ t) (encode front).length
      ((encode front).length + (encode id).length) = some id := by
    rw [split, ← append_assoc]
    exact slice_append
  have size : (encode [quote]).length = 1 := by
    rw [encode_ascii narrow]
    rfl
  rw [readText, drop_encode, closing_encode narrow, closed]
  simp only [map_some, cutOut]
  rw [encode_append, encode_append, length_append, length_append, size, Nat.add_assoc]

lemma readText_unclosed (narrow : quote.toNat < 0x80) (open_ : readQuoted quote false t = none) :
    readText (front ++ t) (ofNat quote.toNat) (encode front).length =
      .next ((encode (front ++ t)).length + 1) none := by
  rw [readText, drop_encode, closing_encode narrow, open_]
  rfl

/-- A turn goes on where the text goes on behind the argument, or behind the end when the
quote is not closed. -/
def Agrees (front u : List Char) (arg : Argument) (turn : Turn) : Prop :=
  (∃ taken rest, arg.rest? = some rest ∧ u = taken ++ rest ∧
    turn = .next (encode (front ++ taken)).length arg.id?) ∨
  (arg = .unclosed ∧ turn = .next ((encode (front ++ u)).length + 1) none)

lemma Agrees.behind {before : List Char} {turn : Turn}
    (agrees : Agrees (front ++ before) u arg turn) : Agrees front (before ++ u) arg turn := by
  rcases agrees with ⟨taken, rest, goesOn, rfl, same⟩ | ⟨unclosed, same⟩
  · refine .inl ⟨before ++ taken, rest, goesOn, (append_assoc _ _ _).symm, ?_⟩
    rw [same, append_assoc]
  · refine .inr ⟨unclosed, ?_⟩
    rw [same, append_assoc]

lemma Agrees.stays (missing : arg = .missing u) :
    Agrees front u arg (.next (encode front).length none) := by
  refine .inl ⟨[], u, ?_, rfl, ?_⟩
  · rw [missing]
    rfl
  · rw [missing, append_nil]
    rfl

lemma readText_agrees (isQuote : quote = '\'' ∨ quote = '"') :
    Agrees front (quote :: t) (quotedArgument (quote :: t))
      (readText (front ++ quote :: t) (ofNat quote.toNat) ((encode front).length + 1)) := by
  have narrow : quote.toNat < 0x80 := by rcases isQuote with rfl | rfl <;> decide
  have place : (encode front).length + 1 = (encode (front ++ [quote])).length := by
    rw [encode_append, encode_ascii narrow, length_append]
    rfl
  rw [place, append_cons front quote t, quotedArgument, if_pos isQuote]
  cases found : readQuoted quote false t with
  | none =>
    rw [readText_unclosed narrow found]
    refine .inr ⟨rfl, ?_⟩
    rw [append_assoc, singleton_append]
  | some cut =>
    rw [readText_closed narrow found, append_assoc]
    refine .inl ⟨[quote] ++ (cut.1 ++ [quote]), cut.2, rfl, ?_, rfl⟩
    rw [readQuoted_eq_some found]
    simp

/-- At another octet than the two quotes there is no argument. -/
lemma head?_ne {c d : Char} (narrow : d.toNat < 0x80) (other : c ≠ d) {b : UInt8}
    (head : (encode (c :: t)).head? = some b) : b ≠ ofNat d.toNat := by
  rintro rfl
  exact other (Option.some.inj ((head?_encode_iff narrow).mp head))

lemma readArgument_agrees : Agrees front u (quotedArgument (u.dropWhile isAsciiWhitespace))
    (readArgument (front ++ u) (encode front).length) := by
  obtain ⟨blank, split, skipped⟩ := skip_eq front u
  generalize u.dropWhile isAsciiWhitespace = v at split
  rw [readArgument, skipped]
  subst split
  rw [← append_assoc, getElem?_encode]
  refine Agrees.behind ?_
  rcases v with - | ⟨c, t⟩
  · exact Agrees.stays rfl
  · by_cases isQuote : c = '\'' ∨ c = '"'
    · have narrow : c.toNat < 0x80 := by rcases isQuote with rfl | rfl <;> decide
      have none : ¬ (ofNat c.toNat ≠ 0x27 ∧ ofNat c.toNat ≠ 0x22) := by
        rcases isQuote with rfl | rfl <;> decide
      rw [encode_ascii narrow, head?_cons]
      simp only [if_neg none]
      exact readText_agrees isQuote
    · rw [not_or] at isQuote
      obtain ⟨b, octets, octet⟩ := exists_cons_of_ne_nil (String.utf8EncodeChar_ne_nil)
      have head : (encode (c :: t)).head? = some b := by
        rw [encode_cons, octet]
        rfl
      have single : b ≠ 0x27 := head?_ne (d := '\'') (by decide) isQuote.1 head
      have double : b ≠ 0x22 := head?_ne (d := '"') (by decide) isQuote.2 head
      rw [head]
      simp only [if_pos (And.intro single double)]
      refine Agrees.stays ?_
      rw [quotedArgument, if_neg (not_or.mpr isQuote)]

lemma readCall_agrees (front u : List Char) :
    Agrees front u (argument u) (readCall (front ++ u) (encode front).length) := by
  obtain ⟨blank, split, skipped⟩ := skip_eq front u
  rw [argument]
  generalize u.dropWhile isAsciiWhitespace = v at split
  rw [readCall, skipped]
  subst split
  rw [← append_assoc, getElem?_encode]
  refine Agrees.behind ?_
  rcases v with - | ⟨c, t⟩
  · exact Agrees.stays rfl
  · by_cases opens : c = '('
    · have place : (encode (front ++ blank)).length + 1 =
          (encode (front ++ blank ++ ['('])).length := by
        simp only [encode_append, length_append]
        rfl
      subst opens
      simp only [if_pos]
      rw [if_neg, place, append_cons (front ++ blank) '(' t, ← singleton_append]
      · exact Agrees.behind readArgument_agrees
      · rw [not_ne_iff]
        rfl
    · have head : (encode (c :: t)).head? ≠ some 0x28 := fun head =>
        head?_ne (d := '(') (by decide) opens head rfl
      simp only [if_pos head, if_neg opens]
      exact Agrees.stays rfl

/-- A turn from where a text begins finds the first call text in it. -/
lemma turn_of_some (front : List Char) {t u : List Char}
    (found : afterFirst getElementById t = some u) :
    ∃ before, t = before ++ u ∧ before.length ≠ 0 ∧
      Agrees (front ++ before) u (argument u) (turn (front ++ t) (encode front).length) := by
  obtain ⟨before, rfl, offset⟩ := find_of_afterFirst found
  refine ⟨before ++ getElementById, rfl, ?_, ?_⟩
  · rw [length_append]
    exact Nat.ne_of_gt (Nat.lt_of_lt_of_le (by decide) (Nat.le_add_left _ _))
  · have ends : (encode front).length + (encode before).length + getElementById.length =
        (encode (front ++ (before ++ getElementById))).length := by
      rw [encode_append, encode_append, length_append, length_append, Nat.add_assoc]
      rfl
    rw [turn, dropOctets_append]
    simp only [offset]
    rw [ends, ← append_assoc front (before ++ getElementById) u]
    exact readCall_agrees _ u

lemma turn_of_none {t : List Char} (found : afterFirst getElementById t = none) :
    turn (front ++ t) (encode front).length = .done := by
  rw [turn, dropOctets_append]
  simp only [find_of_none found]

end Turns

lemma rest_suffix {u rest : List Char} (goesOn : (argument u).rest? = some rest) :
    rest <:+ u := by
  rcases readCall_agrees [] u with ⟨taken, other, same, split, -⟩ | ⟨unclosed, -⟩
  · cases Option.some.inj (goesOn.symm.trans same)
    exact ⟨taken, split.symm⟩
  · rw [unclosed] at goesOn
    cases goesOn

lemma length_afterFirst {t u : List Char} (found : afterFirst getElementById t = some u) :
    u.length < t.length := by
  obtain ⟨before, rfl, nonempty, -⟩ := turn_of_some [] found
  rw [length_append]
  omega

/-- The texts behind the calls that a reader from left to right meets. A call text inside
the argument of another call, or sharing a letter with another call text, is not met. -/
def calls (t : List Char) : List (List Char) :=
  match found : afterFirst getElementById t with
  | none => []
  | some u =>
    match goesOn : (argument u).rest? with
    | none => [u]
    | some rest =>
      have : rest.length < t.length :=
        Nat.lt_of_le_of_lt (rest_suffix goesOn).length_le (length_afterFirst found)
      u :: calls rest
termination_by t.length

section Calls

variable {t u rest : List Char}

lemma calls_of_none (found : afterFirst getElementById t = none) : calls t = [] := by
  rw [calls]
  split
  · rfl
  · next other => cases found.symm.trans other

lemma calls_of_last (found : afterFirst getElementById t = some u)
    (last : (argument u).rest? = none) : calls t = [u] := by
  rw [calls]
  split
  · next other => cases found.symm.trans other
  · next v other =>
    cases Option.some.inj (found.symm.trans other)
    split
    · rfl
    · next goesOn => cases last.symm.trans goesOn

lemma calls_of_some (found : afterFirst getElementById t = some u)
    (goesOn : (argument u).rest? = some rest) : calls t = u :: calls rest := by
  rw [calls]
  split
  · next other => cases found.symm.trans other
  · next v other =>
    cases Option.some.inj (found.symm.trans other)
    split
    · next last => cases goesOn.symm.trans last
    · next w other => rw [Option.some.inj (goesOn.symm.trans other)]

/-- The scan returns the ids of the calls that are met, unless a quote stays open. -/
lemma scan_eq (front : List Char) {fuel : Nat} (ids : List (List Char)) (enough : t.length < fuel) :
    ((∀ u ∈ calls t, argument u ≠ .unclosed) ∧
      scan (front ++ t) fuel (encode front).length ids =
        .returned (ids ++ (calls t).filterMap (fun u => (argument u).id?))) ∨
    ((∃ u ∈ calls t, argument u = .unclosed) ∧
      scan (front ++ t) fuel (encode front).length ids = .panicked) := by
  induction fuel generalizing t front ids with
  | zero => exact absurd enough (Nat.not_lt_zero _)
  | succ fuel ih =>
    rw [scan]
    cases found : afterFirst getElementById t with
    | none =>
      rw [calls_of_none found, turn_of_none found]
      refine .inl ⟨by simp, ?_⟩
      simp
    | some u =>
      obtain ⟨before, split, nonempty, agrees⟩ := turn_of_some front found
      rcases agrees with ⟨taken, rest, goesOn, rfl, next⟩ | ⟨unclosed, next⟩
      · rw [next]
        have whole : front ++ t = (front ++ before ++ taken) ++ rest := by
          rw [split]
          simp
        have shorter : rest.length < fuel := by
          rw [split, length_append, length_append] at enough
          omega
        have clear : argument (taken ++ rest) ≠ .unclosed := by
          intro unclosed
          rw [unclosed] at goesOn
          cases goesOn
        rw [calls_of_some found goesOn, whole]
        rcases ih (front ++ before ++ taken) (ids ++ (argument (taken ++ rest)).id?.toList)
          shorter with
          ⟨closed, returned⟩ | ⟨⟨v, member, unclosed⟩, panicked⟩
        · refine .inl ⟨?_, Eq.trans returned ?_⟩
          · rintro v (- | ⟨-, later⟩)
            · exact clear
            · exact closed v later
          · rw [filterMap_cons]
            cases (argument (taken ++ rest)).id? <;> simp
        · exact .inr ⟨⟨v, mem_cons_of_mem _ member, unclosed⟩, panicked⟩
      · have last : (argument u).rest? = none := by
          rw [unclosed]
          rfl
        rw [next, calls_of_last found last]
        refine .inr ⟨⟨u, mem_singleton_self u, unclosed⟩, ?_⟩
        -- the next cut is one octet behind the end
        have more : ∃ m, fuel = m + 1 := by
          rw [split, length_append] at enough
          exact Nat.exists_eq_succ_of_ne_zero (by omega)
        obtain ⟨m, rfl⟩ := more
        have source : front ++ t = front ++ before ++ u := by rw [split, append_assoc]
        have panics : turn (front ++ t) ((encode (front ++ before ++ u)).length + 1) = .panic := by
          rw [turn, source, dropOctets_beyond (Nat.lt_succ_self _)]
        simp only [scan, panics]

lemma extract_cases (source : List Char) :
    ((∀ u ∈ calls source, argument u ≠ .unclosed) ∧ extractGetElementByIdTargets source =
      .returned ((calls source).filterMap (fun u => (argument u).id?))) ∨
    ((∃ u ∈ calls source, argument u = .unclosed) ∧
      extractGetElementByIdTargets source = .panicked) :=
  scan_eq [] [] (Nat.lt_succ_of_le length_le_length_encode)

lemma occurrences_suffix {s : List Char} (suffix : s <:+ t) :
    (occurrences s).Sublist (occurrences t) := by
  induction t with
  | nil => rw [suffix_nil.mp suffix]
  | cons c t ih =>
    rcases suffix_cons_iff.mp suffix with rfl | shorter
    · exact Sublist.refl _
    · refine (ih shorter).trans ?_
      rw [occurrences]
      split
      · exact sublist_cons_self _ _
      · exact Sublist.refl _

lemma occurrences_of_some {s : List Char} (found : afterFirst getElementById t = some u)
    (suffix : s <:+ u) : (u :: occurrences s).Sublist (occurrences t) := by
  induction t with
  | nil => cases found
  | cons c t ih =>
    rw [afterFirst] at found
    split at found
    · next here =>
      cases found
      rw [occurrences, if_pos here]
      refine Sublist.cons_cons _ (occurrences_suffix (suffix.trans ?_))
      exact drop_suffix 22 t
    · next absent =>
      rw [occurrences, if_neg absent]
      exact ih found

lemma calls_sublist (t : List Char) : (calls t).Sublist (occurrences t) := by
  induction length : t.length using Nat.strong_induction_on generalizing t with
  | _ n ih =>
    cases found : afterFirst getElementById t with
    | none =>
      rw [calls_of_none found]
      exact nil_sublist _
    | some u =>
      cases goesOn : (argument u).rest? with
      | none =>
        rw [calls_of_last found goesOn]
        have first := occurrences_of_some found (suffix_refl u)
        exact (cons_sublist_cons.mpr (nil_sublist _)).trans first
      | some rest =>
        have suffix := rest_suffix goesOn
        have shorter := Nat.lt_of_le_of_lt suffix.length_le (length_afterFirst found)
        rw [calls_of_some found goesOn]
        refine Sublist.trans (cons_sublist_cons.mpr ?_) (occurrences_of_some found suffix)
        exact ih rest.length (length ▸ shorter) rest rfl

lemma length_of_mem_occurrences (member : u ∈ occurrences t) :
    u.length + getElementById.length ≤ t.length := by
  induction t with
  | nil => cases member
  | cons c t ih =>
    rw [occurrences] at member
    split at member
    · next here =>
      rcases mem_cons.mp member with rfl | later
      · have bound := (List.isPrefixOf_iff_prefix.mp here).length_le
        rw [length_drop, Nat.sub_add_cancel bound]
      · exact Nat.le_succ_of_le (ih later)
    · exact Nat.le_succ_of_le (ih member)

lemma occurrences_nodup (t : List Char) : (occurrences t).Nodup := by
  induction t with
  | nil => exact .nil
  | cons c t ih =>
    rw [occurrences]
    split
    · next here =>
      refine nodup_cons.mpr ⟨?_, ih⟩
      intro again
      have bound := (List.isPrefixOf_iff_prefix.mp here).length_le
      have later := length_of_mem_occurrences again
      rw [length_drop, Nat.sub_add_cancel bound, length_cons] at later
      omega
    · exact ih

/-- A part of a list without repetition finds the same when it has every item that finds
something. -/
lemma filterMap_sublist {α β : Type} {f : α → Option β} {l k : List α} (sub : l.Sublist k)
    (distinct : k.Nodup) :
    l.filterMap f = k.filterMap f ↔ ∀ a ∈ k, (f a).isSome → a ∈ l := by
  have kept : ∀ m : List α, (m.filterMap f).length = (m.filter (fun a => (f a).isSome)).length := by
    intro m
    rw [length_filterMap_eq_countP, countP_eq_length_filter]
  constructor
  · intro same a member found
    have lengths : (l.filter (fun a => (f a).isSome)).length =
        (k.filter (fun a => (f a).isSome)).length := by
      rw [← kept, ← kept, same]
    have equal := (sub.filter (fun a => (f a).isSome)).eq_of_length lengths
    have inside : a ∈ k.filter (fun a => (f a).isSome) := mem_filter.mpr ⟨member, found⟩
    rw [← equal] at inside
    exact (mem_filter.mp inside).1
  · intro met
    have perm : (l.filter (fun a => (f a).isSome)).Perm (k.filter (fun a => (f a).isSome)) := by
      refine (perm_ext_iff_of_nodup ((distinct.sublist sub).filter _) (distinct.filter _)).mpr ?_
      intro a
      rw [mem_filter, mem_filter]
      exact ⟨fun ⟨member, found⟩ => ⟨sub.subset member, found⟩,
        fun ⟨member, found⟩ => ⟨met a member found, found⟩⟩
    refine (sub.filterMap f).eq_of_length ?_
    rw [kept, kept, perm.length_eq]

theorem targets_exact_iff (source : List Char) :
    extractGetElementByIdTargets source ≠ .unfinished ∧
    (extractGetElementByIdTargets source = .returned (closedArguments source) ↔
      (∀ u ∈ calls source, argument u ≠ .unclosed) ∧
        ∀ u ∈ occurrences source, (argument u).id?.isSome → u ∈ calls source) := by
  rcases extract_cases source with ⟨closed, returned⟩ | ⟨⟨u, member, unclosed⟩, panicked⟩
  · rw [returned]
    refine ⟨Outcome.noConfusion, ?_⟩
    rw [Outcome.returned.injEq, closedArguments, filterMap_sublist (calls_sublist source)
      (occurrences_nodup source)]
    exact ⟨fun met => ⟨closed, met⟩, And.right⟩
  · rw [panicked]
    refine ⟨Outcome.noConfusion, ⟨Outcome.noConfusion, ?_⟩⟩
    rintro ⟨closed, -⟩
    exact absurd unclosed (closed u member)

/-- A comment is enough. -/
theorem open_quote_panics :
    extractGetElementByIdTargets "// document.getElementById('".toList = .panicked := by
  decide +kernel

end Calls

end Widgets.MountTargets
