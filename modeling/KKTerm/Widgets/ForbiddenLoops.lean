import KKTerm.Library.JsLexer
import KKTerm.Widgets.StoredBody
import Mathlib.Data.List.Forall2

/-!
# Forbidden loops of a widget script

The filter blanks strings and comments by a scan of its own, in which a line comment ends
only at a line feed. It finds a forbidden loop that it reads as code, and loses what it
reads as the rest of a comment.
-/

namespace Widgets.ForbiddenLoops

open Fallible JsLexer List JsText

/-- A token by its text, or a string, a template, or what is not read as code. -/
inductive Mark where
  | word (text : List Char)
  | other
  deriving DecidableEq

def tokens : List Element → List Mark
  | [] => []
  | .token text :: es => .word text :: tokens es
  | .string _ _ :: es => .other :: tokens es
  | .template _ :: es => .other :: tokens es
  | .space _ :: es => tokens es
  | .lineComment _ :: es => tokens es
  | .blockComment _ :: es => tokens es

def forbidden : List (List String) :=
  [["while", "(", "true", ")"], ["while", "(", "1", ")"], ["for", "(", ";", ";", ")"]]

/-- The tokens of a forbidden loop stand one behind the other. -/
def HasLoop (marks : List Mark) : Prop :=
  ∃ loop ∈ forbidden, loop.map (fun word => .word word.toList) <:+: marks

instance (marks : List Mark) : Decidable (HasLoop marks) :=
  inferInstanceAs (Decidable (∃ _ ∈ _, _))

/-- Where the filter stands between two elements: in code, or still in a line comment. -/
inductive View where
  | code
  | comment

def View.state : View → StripState
  | code => .normal
  | comment => .lineComment

/-- What the filter makes of an element, and where it stands then. A line comment goes on
up to a line feed; where that is not white space, the filter is lost in the middle of an
element. The byte order mark is white space of the script and not of the filter. -/
def see : View → Element → List Mark × Option View
  | .code, .space c => (if c = JsText.byteOrderMark then [.other] else [], some .code)
  | .code, .lineComment _ => ([], some .comment)
  | .code, .blockComment _ => ([], some .code)
  | .code, .token text => ([.word text], some .code)
  | .code, .string _ _ => ([.other], some .code)
  | .code, .template _ => ([.other], some .code)
  | .comment, .space c => ([], some (if c = '\n' then .code else .comment))
  | .comment, e =>
    (tokens [e] |>.map (fun _ => .other), if '\n' ∈ e.source then none else some .comment)

/-- The tokens that the filter reads as code. -/
def seen : View → List Element → List Mark
  | _, [] => []
  | view, e :: es =>
    (see view e).1 ++ match (see view e).2 with
      | some next => seen next es
      | none => []

/-- Line feeds for line feeds, and nothing else for them. -/
def Keeps (a b : Char) : Prop :=
  b = '\n' ↔ a = '\n'

lemma keeps_blank {c : Char} (other : c ≠ '\n') : Keeps c ' ' :=
  ⟨fun same => absurd same (by decide), fun same => absurd same other⟩

lemma keeps_keepNewline (c : Char) : Keeps c (keepNewline c) := by
  rw [keepNewline]
  split
  · exact Iff.rfl
  · next other => exact keeps_blank other

lemma strip_keeps (state : StripState) (backslashes : Nat) (source : List Char) :
    Forall₂ Keeps source (stripFrom state backslashes source) := by
  induction state, backslashes, source using stripFrom.induct with
  | case1 state backslashes =>
    rw [stripFrom]
    exact .nil
  | case2 backslashes rest ih =>
    rw [stripFrom]
    exact .cons (keeps_blank (by decide)) (.cons (keeps_blank (by decide)) ih)
  | case3 backslashes rest ih =>
    rw [stripFrom]
    exact .cons (keeps_blank (by decide)) (.cons (keeps_blank (by decide)) ih)
  | case4 backslashes rest line block ih =>
    rw [stripFrom.eq_4 _ _ _ line block, if_pos rfl]
    exact .cons (keeps_blank (by decide)) ih
  | case5 backslashes rest line block single ih =>
    rw [stripFrom.eq_4 _ _ _ line block, if_neg single, if_pos rfl]
    exact .cons (keeps_blank (by decide)) ih
  | case6 backslashes c rest line block single double grave ih =>
    rw [stripFrom.eq_4 _ _ _ line block, if_neg single, if_neg double, if_pos grave]
    refine .cons (keeps_blank ?_) ih
    rintro rfl
    exact absurd grave (by decide)
  | case7 backslashes c rest line block single double grave ih =>
    rw [stripFrom.eq_4 _ _ _ line block, if_neg single, if_neg double, if_neg grave]
    exact .cons Iff.rfl ih
  | case8 backslashes rest ih =>
    rw [stripFrom, if_pos rfl]
    exact .cons Iff.rfl ih
  | case9 backslashes c rest other ih =>
    rw [stripFrom, if_neg other]
    exact .cons (keeps_blank other) ih
  | case10 backslashes rest ih =>
    rw [stripFrom]
    exact .cons (keeps_blank (by decide)) (.cons (keeps_blank (by decide)) ih)
  | case11 backslashes c rest more ih =>
    rw [stripFrom.eq_7 _ _ _ more]
    exact .cons (keeps_keepNewline c) ih
  | case12 state backslashes c rest normal line block escaped closed inside =>
    rw [stripFrom.eq_8 _ _ _ _ normal line block]
    refine .cons (keeps_keepNewline c) ?_
    split
    · exact escaped
    · split
      · exact closed
      · exact inside

lemma getElem?_of_keeps {source out : List Char} (keeps : Forall₂ Keeps source out)
    (i : Nat) : out[i]? = some '\n' ↔ source[i]? = some '\n' := by
  induction keeps generalizing i with
  | nil => rfl
  | cons head _ ih =>
    cases i with
    | zero => simpa [Keeps] using head
    | succ i => simpa using ih i

def collapse (t : List Char) : List Char :=
  t.filter (fun c => !Text.isWhitespace c)

section Filter

variable {t text rest : List Char} {c : Char} {backslashes : Nat}

lemma collapse_blank (t : List Char) : collapse (' ' :: t) = collapse t :=
  filter_cons_of_neg (by decide)

lemma collapse_keepNewline (c : Char) (t : List Char) :
    collapse (keepNewline c :: t) = collapse t := by
  rw [keepNewline]
  split
  · next feed =>
    subst feed
    exact filter_cons_of_neg (by decide)
  · exact collapse_blank t

lemma stripFrom_plain (plain : isPlain c = true) :
    stripFrom .normal backslashes (c :: t) = c :: stripFrom .normal backslashes t := by
  simp only [isPlain, Bool.and_eq_true, decide_eq_true_eq] at plain
  obtain ⟨⟨⟨slash, single⟩, double⟩, grave⟩ := plain
  have other : c.toNat ≠ 0x60 := fun same => grave (Char.toNat_inj.mp same)
  rw [stripFrom.eq_4 _ _ _ (fun _ same => absurd same slash) (fun _ same => absurd same slash),
    if_neg single, if_neg double, if_neg other]

lemma stripFrom_slash (line : t.head? ≠ some '/') (block : t.head? ≠ some '*') :
    stripFrom .normal backslashes ('/' :: t) = '/' :: stripFrom .normal backslashes t := by
  rw [stripFrom.eq_4, if_neg (by decide), if_neg (by decide), if_neg (by decide)]
  · rintro rest - rfl
    exact line rfl
  · rintro rest - rfl
    exact block rfl

lemma stripFrom_single :
    stripFrom .normal backslashes ('\'' :: t) = ' ' :: stripFrom .single 0 t := by
  rw [stripFrom.eq_4, if_pos rfl]
  · exact fun _ same => absurd same (by decide)
  · exact fun _ same => absurd same (by decide)

lemma stripFrom_double :
    stripFrom .normal backslashes ('"' :: t) = ' ' :: stripFrom .double 0 t := by
  rw [stripFrom.eq_4, if_neg (by decide), if_pos rfl]
  · exact fun _ same => absurd same (by decide)
  · exact fun _ same => absurd same (by decide)

lemma stripFrom_template :
    stripFrom .normal backslashes (graveAccent :: t) = ' ' :: stripFrom .template 0 t := by
  rw [stripFrom.eq_4, if_neg (by decide), if_neg (by decide), if_pos (by decide)]
  · exact fun _ same => absurd same (by decide)
  · exact fun _ same => absurd same (by decide)

lemma stripFrom_plains (plain : ∀ c ∈ text, isPlain c = true) :
    stripFrom .normal backslashes (text ++ rest) = text ++ stripFrom .normal backslashes rest := by
  induction text with
  | nil => rfl
  | cons c text ih =>
    rw [cons_append, stripFrom_plain (plain c mem_cons_self),
      ih (fun d member => plain d (mem_cons_of_mem c member))]
    rfl

/-- In a line comment everything is left out up to a line feed. -/
lemma collapse_lineComment (noFeed : '\n' ∉ text) :
    collapse (stripFrom .lineComment backslashes (text ++ rest)) =
      collapse (stripFrom .lineComment backslashes rest) := by
  induction text with
  | nil => rfl
  | cons c text ih =>
    rw [mem_cons, not_or] at noFeed
    rw [cons_append, stripFrom, if_neg (Ne.symm noFeed.1), collapse_blank, ih noFeed.2]

lemma collapse_blockBody (closed : blockBody t = some (text, rest)) :
    collapse (stripFrom .blockComment backslashes t) =
      collapse (stripFrom .normal backslashes rest) := by
  induction t using blockBody.induct generalizing text with
  | case1 => cases closed
  | case2 behind =>
    cases closed
    rw [stripFrom, collapse_blank, collapse_blank]
  | case3 c t more ih =>
    rw [blockBody.eq_3 _ _ more] at closed
    obtain ⟨cut, found, same⟩ := Option.map_eq_some_iff.mp closed
    obtain ⟨-, rfl⟩ := Prod.mk.inj same
    rw [stripFrom.eq_7 _ _ _ more, collapse_keepNewline, ih found]

structure Quoted (state : StripState) (quote : Char) : Prop where
  closes : ∀ c, state.closes c = true ↔ c = quote
  notBackslash : quote ≠ '\\'
  notFeed : quote ≠ '\n'
  step : ∀ backslashes c rest, stripFrom state backslashes (c :: rest) = keepNewline c ::
    (if c = '\\' then stripFrom state (backslashes + 1) rest
    else if state.closes c && backslashes % 2 == 0 then stripFrom .normal 0 rest
    else stripFrom state 0 rest)

lemma quoted_single : Quoted .single '\'' where
  closes c := by simp [StripState.closes]
  notBackslash := by decide
  notFeed := by decide
  step _ _ _ := stripFrom.eq_8 _ _ _ _ nofun nofun nofun

lemma quoted_double : Quoted .double '"' where
  closes c := by simp [StripState.closes]
  notBackslash := by decide
  notFeed := by decide
  step _ _ _ := stripFrom.eq_8 _ _ _ _ nofun nofun nofun

lemma quoted_template : Quoted .template graveAccent where
  closes c := by
    rw [StripState.closes, decide_eq_true_eq]
    exact Char.toNat_inj (d := graveAccent)
  notBackslash := by decide
  notFeed := by decide
  step _ _ _ := stripFrom.eq_8 _ _ _ _ nofun nofun nofun

namespace Quoted

variable {state : StripState} {quote : Char} (quoted : Quoted state quote)
include quoted

lemma collapse_step (other : c ≠ quote) (plain : c ≠ '\\') :
    collapse (stripFrom state backslashes (c :: t)) = collapse (stripFrom state 0 t) := by
  have stays : state.closes c = false := by
    rw [← Bool.not_eq_true, quoted.closes]
    exact other
  rw [quoted.step, collapse_keepNewline, if_neg plain, stays]
  rfl

/-- After an even number of backslashes a pair of characters leaves the number even. -/
lemma collapse_pair (even : backslashes % 2 = 0) : ∃ after, after % 2 = 0 ∧
    collapse (stripFrom state backslashes ('\\' :: c :: t)) =
      collapse (stripFrom state after t) := by
  by_cases again : c = '\\'
  · refine ⟨backslashes + 2, by omega, ?_⟩
    rw [quoted.step, collapse_keepNewline, if_pos rfl, quoted.step, collapse_keepNewline,
      if_pos again]
  · refine ⟨0, rfl, ?_⟩
    have odd : ((backslashes + 1) % 2 == 0) = false := by
      rw [beq_eq_false_iff_ne]
      omega
    rw [quoted.step, collapse_keepNewline, if_pos rfl, quoted.step, collapse_keepNewline,
      if_neg again, odd, Bool.and_false]
    rfl

lemma collapse_close (even : backslashes % 2 = 0) :
    collapse (stripFrom state backslashes (quote :: t)) = collapse (stripFrom .normal 0 t) := by
  have closes : state.closes quote = true := (quoted.closes quote).mpr rfl
  have parity : (backslashes % 2 == 0) = true := by
    rw [even]
    rfl
  rw [quoted.step, collapse_keepNewline, if_neg quoted.notBackslash, closes, parity]
  rfl

/-- A string or a template ends for the filter where it ends in the script. -/
lemma collapse_enclosed (even : backslashes % 2 = 0) (body : Enclosed quote t text rest) :
    collapse (stripFrom state backslashes t) = collapse (stripFrom .normal 0 rest) := by
  induction body generalizing backslashes with
  | close => exact quoted.collapse_close even
  | @escaped c t text rest body ih =>
    obtain ⟨after, evenAfter, pair⟩ := quoted.collapse_pair (c := c) (t := t) even
    rw [pair, ih evenAfter]
  | plain other slash body ih => rw [quoted.collapse_step other slash, ih rfl]

end Quoted

lemma isPlain_of_isSpace (blank : isSpace c = true) : isPlain c = true := by
  apply isPlain_of_toNat
  simp only [isSpace, Bool.or_eq_true, Bool.and_eq_true, decide_eq_true_eq, beq_iff_eq] at blank
  omega

/-- White space of the script is white space of the filter, but for the byte order mark. -/
lemma isWhitespace_of_isSpace (blank : isSpace c = true) (other : c ≠ byteOrderMark) :
    Text.isWhitespace c = true := by
  have number : c.toNat ≠ 0xfeff := fun same => other (Char.toNat_inj.mp same)
  simp only [isSpace, Text.isWhitespace, Bool.or_eq_true, Bool.and_eq_true,
    decide_eq_true_eq, beq_iff_eq] at blank ⊢
  omega

lemma collapse_append (s t : List Char) : collapse (s ++ t) = collapse s ++ collapse t :=
  filter_append s t

lemma collapse_token {L : Letters} (line : ∀ u, t ≠ '/' :: '/' :: u)
    (block : ∀ u, t ≠ '/' :: '*' :: u) (read : lexToken L t = some (text, rest)) :
    collapse (stripFrom .normal backslashes t) =
      collapse text ++ collapse (stripFrom .normal backslashes rest) := by
  obtain ⟨rfl, tail, head⟩ := lexToken_plain read
  rw [← collapse_append]
  congr 1
  cases text with
  | nil => rfl
  | cons c text =>
    have further : ∀ d ∈ text, isPlain d = true := tail
    rcases head c rfl with plain | rfl
    · rw [cons_append, stripFrom_plain plain, stripFrom_plains further]
      rfl
    · rw [cons_append, stripFrom_slash, stripFrom_plains further]
      · rfl
      · intro slash
        obtain ⟨u, more⟩ := head?_eq_some_iff.mp slash
        exact line u (congrArg ('/' :: ·) more)
      · intro star
        obtain ⟨u, more⟩ := head?_eq_some_iff.mp star
        exact block u (congrArg ('/' :: ·) more)

end Filter

/-- A text in which words stand as they do among the marks, one directly behind the other. -/
inductive Shows : List Mark → List Char → Prop
  | nil (out : List Char) : Shows [] out
  | word {marks : List Mark} {out : List Char} (text : List Char) (later : Shows marks out) :
    Shows (.word text :: marks) (collapse text ++ out)
  | other {marks : List Mark} {out : List Char} (shown : List Char) (later : Shows marks out) :
    Shows (.other :: marks) (shown ++ out)

section Showing

variable {marks : List Mark} {out : List Char}

lemma Shows.others {hidden : List Mark} (all : ∀ m ∈ hidden, m = .other)
    (later : Shows marks out) : Shows (hidden ++ marks) out := by
  induction hidden with
  | nil => exact later
  | cons m hidden ih =>
    rw [all m mem_cons_self]
    exact .other [] (ih (fun m member => all m (mem_cons_of_mem _ member)))

lemma Shows.behind {before : List Mark} (shows : Shows (before ++ marks) out) :
    ∃ front back, out = front ++ back ∧ Shows marks back := by
  induction before generalizing out with
  | nil => exact ⟨[], out, rfl, shows⟩
  | cons m before ih =>
    cases shows with
    | word text later =>
      obtain ⟨front, back, rfl, behind⟩ := ih later
      exact ⟨collapse text ++ front, back, (append_assoc _ _ _).symm, behind⟩
    | other shown later =>
      obtain ⟨front, back, rfl, behind⟩ := ih later
      exact ⟨shown ++ front, back, (append_assoc _ _ _).symm, behind⟩

lemma Shows.words {words : List (List Char)} {after : List Mark}
    (shows : Shows (words.map .word ++ after) out) :
    ∃ back, out = (words.map collapse).flatten ++ back := by
  induction words generalizing out with
  | nil => exact ⟨out, rfl⟩
  | cons text words ih =>
    cases shows with
    | word _ later =>
      obtain ⟨back, rfl⟩ := ih later
      exact ⟨back, (append_assoc _ _ _).symm⟩

lemma Shows.infix {words : List (List Char)} (shows : Shows marks out)
    (inside : words.map .word <:+: marks) : (words.map collapse).flatten <:+: out := by
  obtain ⟨before, after, rfl⟩ := inside
  rw [append_assoc] at shows
  obtain ⟨front, middle, rfl, behind⟩ := shows.behind
  obtain ⟨back, rfl⟩ := behind.words
  exact ⟨front, back, append_assoc _ _ _⟩

end Showing

section Script

variable {L : Letters} {t rest : List Char} {e : Element} {es : List Element}

lemma seen_cons {view next : View} (goesOn : (see view e).2 = some next) :
    seen view (e :: es) = (see view e).1 ++ seen next es := by
  rw [seen, goesOn]

lemma shows_code (reads : Reads L t e rest) (later : ∀ view backslashes, Shows (seen view es)
      (collapse (stripFrom (View.state view) backslashes rest))) (backslashes : Nat) :
    Shows (seen .code (e :: es)) (collapse (stripFrom .normal backslashes t)) := by
  cases reads with
  | @space c _ blank =>
    rw [seen_cons rfl, stripFrom_plain (isPlain_of_isSpace blank), see]
    by_cases mark : c = byteOrderMark
    · rw [if_pos mark]
      have dark : collapse (c :: stripFrom .normal backslashes rest) =
          [c] ++ collapse (stripFrom .normal backslashes rest) := by
        rw [mark]
        exact filter_cons_of_pos (by decide)
      rw [dark]
      exact .other [c] (later .code backslashes)
    · have white := isWhitespace_of_isSpace blank mark
      rw [if_neg mark, collapse, filter_cons_of_neg (by simp [white])]
      exact later .code backslashes
  | @lineComment text _ line =>
    have noFeed : '\n' ∉ text := by
      intro member
      exact absurd (line _ member) (by decide)
    rw [seen_cons rfl, stripFrom, collapse_blank, collapse_blank, collapse_lineComment noFeed]
    exact later .comment backslashes
  | blockComment closed =>
    rw [seen_cons rfl, stripFrom, collapse_blank, collapse_blank, collapse_blockBody closed]
    exact later .code backslashes
  | string isQuote closed =>
    rw [seen_cons rfl]
    rcases isQuote with rfl | rfl
    · rw [stripFrom_single, collapse_blank,
        quoted_single.collapse_enclosed rfl (stringBody_enclosed (by decide) closed)]
      exact .other [] (later .code 0)
    · rw [stripFrom_double, collapse_blank,
        quoted_double.collapse_enclosed rfl (stringBody_enclosed (by decide) closed)]
      exact .other [] (later .code 0)
  | template closed =>
    rw [seen_cons rfl, stripFrom_template, collapse_blank,
      quoted_template.collapse_enclosed rfl (templateBody_enclosed closed)]
    exact .other [] (later .code 0)
  | token line block read =>
    rw [seen_cons rfl, collapse_token line block read]
    exact .word _ (later .code backslashes)

lemma see_comment (other : ∀ c, e ≠ .space c) : see .comment e =
    ((tokens [e]).map (fun _ => .other), if '\n' ∈ e.source then none else some .comment) := by
  cases e with
  | space c => exact absurd rfl (other c)
  | _ => rfl

/-- In a line comment the filter leaves out all up to the line feed. -/
lemma shows_comment (reads : Reads L t e rest) (later : ∀ view backslashes, Shows (seen view es)
      (collapse (stripFrom (View.state view) backslashes rest))) (backslashes : Nat) :
    Shows (seen .comment (e :: es)) (collapse (stripFrom .lineComment backslashes t)) := by
  by_cases blank : ∃ c, e = .space c
  · obtain ⟨c, rfl⟩ := blank
    rw [reads.whole, Element.source, singleton_append, seen_cons rfl, stripFrom]
    by_cases feed : c = '\n'
    · subst feed
      have white : collapse ('\n' :: stripFrom .normal backslashes rest) =
          collapse (stripFrom .normal backslashes rest) :=
        collapse_keepNewline '\n' _
      rw [if_pos rfl, if_pos rfl, white]
      exact later .code backslashes
    · rw [if_neg feed, if_neg feed, collapse_blank]
      exact later .comment backslashes
  · have other : ∀ c, e ≠ .space c := fun c same => blank ⟨c, same⟩
    have hidden : ∀ m ∈ (see .comment e).1, m = .other := by
      rw [see_comment other]
      intro m member
      obtain ⟨_, -, rfl⟩ := mem_map.mp member
      rfl
    by_cases feed : '\n' ∈ e.source
    · have lost : (see .comment e).2 = none := by rw [see_comment other, if_pos feed]
      rw [seen, lost]
      exact Shows.others hidden (.nil _)
    · have goesOn : (see .comment e).2 = some .comment := by rw [see_comment other, if_neg feed]
      rw [seen_cons goesOn, reads.whole, collapse_lineComment feed]
      exact Shows.others hidden (later .comment backslashes)

lemma shows_script (lexes : Lexes L t es) (view : View) (backslashes : Nat) :
    Shows (seen view es) (collapse (stripFrom (View.state view) backslashes t)) := by
  induction lexes generalizing view backslashes with
  | nil => cases view <;> exact .nil _
  | cons read _ ih =>
    cases view with
    | code => exact shows_code (reads_of_lexElement read) ih backslashes
    | comment => exact shows_comment (reads_of_lexElement read) ih backslashes

end Script

lemma collapsed_loop : ∀ words ∈ forbidden, ((words.map String.toList).map collapse).flatten ∈
      ["while(true)".toList, "while(1)".toList, "for(;;)".toList] := by
  decide

lemma rejects_of_seen {L : Letters} {source : List Char} {es : List Element}
    (lexes : Lexes L source es) (loop : HasLoop (seen .code es)) :
    ∃ e, validateScriptSourceInner source = .error e := by
  have shows := shows_script lexes .code 0
  obtain ⟨words, member, inside⟩ := loop
  have found : ((words.map String.toList).map collapse).flatten <:+:
      collapse (stripStringsAndComments source) := by
    refine shows.infix ?_
    rwa [map_map]
  cases outcome : validateScriptSourceInner source with
  | error e => exact ⟨e, rfl⟩
  | ok _ =>
    exfalso
    obtain ⟨-, accepted⟩ := reject_bind_ok.mp outcome
    obtain ⟨noWhile, accepted⟩ := reject_bind_ok.mp accepted
    have noFor := reject_eq_ok.mp accepted
    have text := collapsed_loop words member
    simp only [mem_cons, not_mem_nil, or_false] at text
    rcases text with same | same | same
    · exact noWhile (.inl (decide_eq_true (same ▸ found)))
    · exact noWhile (.inr (decide_eq_true (same ▸ found)))
    · exact noFor (decide_eq_true (same ▸ found))

/-- No letters beyond ASCII. -/
def asciiLetters : Letters where
  idStart _ := false
  idContinue _ := false

/-- A comment that ends at a carriage return. -/
def returnSource : List Char :=
  "// a\rwhile(true)\x7b\x7d".toList

def returnElements : List Element :=
  [.lineComment " a".toList, .space '\r', .token "while".toList, .token "(".toList,
    .token "true".toList, .token ")".toList, .token "\x7b".toList, .token "\x7d".toList]

end Widgets.ForbiddenLoops
