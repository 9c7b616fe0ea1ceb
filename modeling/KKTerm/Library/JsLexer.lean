import KKTerm.Library.Text

/-!
# The lexical grammar of ECMAScript

A script is read into white space, comments, strings, templates and other tokens, always
the longest token that can be read. A slash that begins no comment is a punctuator, and a
template with a substitution is not read, since only a parser can tell where a regular
expression or the rest of a template begins. The letters of names beyond ASCII are a
parameter, and escapes and separators are read by their form.
-/

namespace JsLexer

open Text Bool
open Option hiding all_eq_true
open List

/-- The properties `ID_Start` and `ID_Continue` beyond ASCII. -/
structure Letters where
  idStart : Char → Bool
  idContinue : Char → Bool

inductive Element where
  | space (c : Char)
  | lineComment (text : List Char)
  | blockComment (text : List Char)
  | string (quote : Char) (text : List Char)
  | template (text : List Char)
  | token (text : List Char)
  deriving DecidableEq

def graveAccent : Char := Char.ofNat 0x60
def openBrace : Char := Char.ofNat 0x7b
def closeBrace : Char := Char.ofNat 0x7d

def isLineTerminator (c : Char) : Bool :=
  c = '\n' || c = '\r' || c.toNat == 0x2028 || c.toNat == 0x2029

/-- The text of a block comment, and what is behind its end. -/
def blockBody : List Char → Option (List Char × List Char)
  | [] => none
  | '*' :: '/' :: rest => some ([], rest)
  | c :: t => (blockBody t).map (fun cut => (c :: cut.1, cut.2))

/-- A backslash takes the next character with it, and the two characters of a line break. -/
def stringBody (quote : Char) : List Char → Option (List Char × List Char)
  | [] => none
  | '\\' :: '\r' :: '\n' :: t =>
    (stringBody quote t).map (fun cut => ('\\' :: '\r' :: '\n' :: cut.1, cut.2))
  | '\\' :: c :: t => (stringBody quote t).map (fun cut => ('\\' :: c :: cut.1, cut.2))
  | c :: t =>
    if c = quote then some ([], t)
    else if c = '\\' ∨ c = '\n' ∨ c = '\r' then none
    else (stringBody quote t).map (fun cut => (c :: cut.1, cut.2))

def templateBody : List Char → Option (List Char × List Char)
  | [] => none
  | '\\' :: c :: t => (templateBody t).map (fun cut => ('\\' :: c :: cut.1, cut.2))
  | c :: t =>
    if c = graveAccent then some ([], t)
    else if c = '\\' ∨ (c = '$' ∧ t.head? = some openBrace) then none
    else (templateBody t).map (fun cut => (c :: cut.1, cut.2))

section Names

variable (L : Letters)

def isIdStart (c : Char) : Bool :=
  Text.isAsciiAlphabetic c || c = '$' || c = '_' || (0x80 ≤ c.toNat && L.idStart c)

def isIdPart (c : Char) : Bool :=
  isIdStart L c || Text.isAsciiDigit c ||
    (0x80 ≤ c.toNat && (L.idContinue c || c.toNat == 0x200c || c.toNat == 0x200d))

/-- Inside a name, before so many digits of an escape, or before the brace that ends one. -/
inductive NameState where
  | plain
  | digits (missing : Nat)
  | braces

def isHexDigit (c : Char) : Bool :=
  (Text.hexDigit c).isSome

def nameFrom : NameState → List Char → Option (List Char × List Char)
  | .plain, [] => some ([], [])
  | .plain, '\\' :: 'u' :: c :: t =>
    if c = openBrace then
      (nameFrom .braces t).map (fun cut => ('\\' :: 'u' :: c :: cut.1, cut.2))
    else if isHexDigit c then
      (nameFrom (.digits 3) t).map (fun cut => ('\\' :: 'u' :: c :: cut.1, cut.2))
    else none
  | .plain, c :: t =>
    if isIdPart L c then (nameFrom .plain t).map (fun cut => (c :: cut.1, cut.2))
    else some ([], c :: t)
  | .digits missing, c :: t =>
    if isHexDigit c then
      (nameFrom (if missing ≤ 1 then .plain else .digits (missing - 1)) t).map
        (fun cut => (c :: cut.1, cut.2))
    else none
  | .braces, c :: t =>
    if c = closeBrace then (nameFrom .plain t).map (fun cut => (c :: cut.1, cut.2))
    else if isHexDigit c then (nameFrom .braces t).map (fun cut => (c :: cut.1, cut.2))
    else none
  | _, [] => none

def startsName (t : List Char) : Bool :=
  t.head?.any (fun c => isIdStart L c || c = '\\')

end Names

def digitRun (p : Char → Bool) (t : List Char) : List Char × List Char :=
  t.span (fun c => p c || c = '_')

def andThen (first : List Char × List Char) (next : List Char → List Char × List Char) :
    List Char × List Char :=
  (first.1 ++ (next first.2).1, (next first.2).2)

def oneOf (cs t : List Char) : List Char × List Char :=
  match t with
  | [] => ([], [])
  | c :: rest => if c ∈ cs then ([c], rest) else ([], c :: rest)

def startsDigit (t : List Char) : Bool :=
  t.head?.any Text.isAsciiDigit

def fraction (t : List Char) : List Char × List Char :=
  match oneOf ['.'] t with
  | ([], rest) => ([], rest)
  | point => andThen point (digitRun Text.isAsciiDigit)

def exponent (t : List Char) : List Char × List Char :=
  let sign := andThen (oneOf ['e', 'E'] t) (oneOf ['+', '-'])
  if (oneOf ['e', 'E'] t).1 ≠ [] && startsDigit sign.2 then
    andThen sign (digitRun Text.isAsciiDigit)
  else ([], t)

def decimal (t : List Char) : List Char × List Char :=
  let whole := digitRun Text.isAsciiDigit t
  if whole.1 ≠ [] && whole.2.head? = some 'n' then andThen whole (oneOf ['n'])
  else andThen (andThen whole fraction) exponent

def radixDigits (c : Char) : Option (Char → Bool) :=
  if c = 'x' ∨ c = 'X' then some isHexDigit
  else if c = 'o' ∨ c = 'O' then some (fun d => d.toNat < 0x38 && Text.isAsciiDigit d)
  else if c = 'b' ∨ c = 'B' then some (fun d => d = '0' || d = '1')
  else none

def number (t : List Char) : List Char × List Char :=
  match t with
  | '0' :: c :: rest =>
    match radixDigits c with
    | some p => andThen (andThen (['0', c], rest) (digitRun p)) (oneOf ['n'])
    | none => decimal t
  | _ => decimal t

def punctuators : List String :=
  [">>>=", "...", "===", "!==", "**=", "<<=", ">>=", ">>>", "&&=", "||=", "??=", "=>", "==",
    "!=", "<=", ">=", "&&", "||", "??", "?.", "++", "--", "+=", "-=", "*=", "%=", "&=", "|=",
    "^=", "<<", ">>", "**", "/=", "\x7b", "\x7d", "(", ")", "[", "]", ";", ",", "<", ">", "+",
    "-", "*", "/", "%", "&", "|", "^", "!", "~", "?", ":", "=", "."]

/-- `?.` is no punctuator before a digit. -/
def punctuator (t : List Char) : Option (List Char × List Char) :=
  (punctuators.find? (fun p =>
    p.toList.isPrefixOf t && !(p == "?." && startsDigit (t.drop 2)))).map
      (fun p => (p.toList, t.drop p.toList.length))

section Elements

variable (L : Letters)

/-- A number is not followed by a digit or by a name. -/
def lexToken (t : List Char) : Option (List Char × List Char) :=
  if startsName L t then nameFrom L .plain t
  else if t.head? = some '#' then
    if startsName L t.tail then
      (nameFrom L .plain t.tail).map (fun cut => ('#' :: cut.1, cut.2))
    else none
  else if startsDigit t || (t.head? = some '.' && startsDigit t.tail) then
    if startsDigit (number t).2 || startsName L (number t).2 then none else some (number t)
  else punctuator t

def lexElement (t : List Char) : Option (Element × List Char) :=
  match t with
  | [] => none
  | '/' :: '/' :: rest =>
    some (.lineComment (rest.takeWhile (fun c => !isLineTerminator c)),
      rest.dropWhile (fun c => !isLineTerminator c))
  | '/' :: '*' :: rest => (blockBody rest).map (fun cut => (.blockComment cut.1, cut.2))
  | c :: rest =>
    if JsText.isSpace c then some (.space c, rest)
    else if c = '\'' ∨ c = '"' then
      (stringBody c rest).map (fun cut => (.string c cut.1, cut.2))
    else if c = graveAccent then
      (templateBody rest).map (fun cut => (.template cut.1, cut.2))
    else (lexToken L (c :: rest)).map (fun cut => (.token cut.1, cut.2))

inductive Lexes : List Char → List Element → Prop
  | nil : Lexes [] []
  | cons {t rest : List Char} {e : Element} {es : List Element}
      (read : lexElement L t = some (e, rest)) (later : Lexes rest es) : Lexes t (e :: es)

end Elements

/-- A character that begins no comment, string or template. -/
def isPlain (c : Char) : Bool :=
  c ≠ '/' && c ≠ '\'' && c ≠ '"' && c ≠ graveAccent

/-- A reading takes the front of a text, in characters of a kind. -/
structure Cut (p : Char → Bool) (t : List Char) (cut : List Char × List Char) : Prop where
  whole : cut.1 ++ cut.2 = t
  all : ∀ c ∈ cut.1, p c = true

section Cuts

variable {p : Char → Bool} {t : List Char} {cut : List Char × List Char}

lemma Cut.none : Cut p t ([], t) :=
  ⟨rfl, fun _ member => absurd member not_mem_nil⟩

variable {c : Char} {q : Char → Bool}

lemma Cut.cons (kind : p c = true) (rest : Cut p t cut) : Cut p (c :: t) (c :: cut.1, cut.2) where
  whole := congrArg (c :: ·) rest.whole
  all := forall_mem_cons.mpr ⟨kind, rest.all⟩

lemma Cut.andThen {next : List Char → List Char × List Char} (first : Cut p t cut)
    (second : ∀ u, Cut p u (next u)) : Cut p t (andThen cut next) where
  whole := by
    rw [JsLexer.andThen, append_assoc, (second cut.2).whole, first.whole]
  all := forall_mem_append.mpr ⟨first.all, (second cut.2).all⟩

lemma Cut.span (kind : ∀ c, q c = true → p c = true) : Cut p t (t.span q) := by
  rw [span_eq_takeWhile_dropWhile]
  exact ⟨takeWhile_append_dropWhile, fun c member => kind c (mem_takeWhile_imp member)⟩

lemma Cut.oneOf {cs : List Char} (kind : cs.all p = true) (t : List Char) :
    Cut p t (oneOf cs t) := by
  cases t with
  | nil => exact Cut.none
  | cons c t =>
    rw [JsLexer.oneOf]
    split
    · next member => exact Cut.none.cons (all_eq_true.mp kind c member)
    · exact Cut.none

lemma isPlain_of_toNat (other : c.toNat ≠ 0x2f ∧ c.toNat ≠ 0x27 ∧ c.toNat ≠ 0x22 ∧ c.toNat ≠ 0x60) :
    isPlain c = true := by
  obtain ⟨slash, single, double, grave⟩ := other
  have ne : ∀ d : Char, c.toNat ≠ d.toNat → (c ≠ d) := fun d differ same => differ (same ▸ rfl)
  simp only [isPlain, and_eq_true, decide_eq_true_eq]
  exact ⟨⟨⟨ne '/' slash, ne '\'' single⟩, ne '"' double⟩, ne graveAccent grave⟩

lemma isPlain_digit (digit : isAsciiDigit c = true) : isPlain c = true := by
  simp only [isAsciiDigit, and_eq_true, decide_eq_true_eq] at digit
  exact isPlain_of_toNat (by omega)

lemma isPlain_hexDigit (digit : isHexDigit c = true) : isPlain c = true := by
  apply isPlain_of_toNat
  rw [isHexDigit, hexDigit] at digit
  by_contra other
  rw [if_neg (by omega), if_neg (by omega), if_neg (by omega)] at digit
  cases digit

variable {L : Letters} {inner : Option (List Char × List Char)}

lemma isPlain_idPart (part : isIdPart L c = true) : isPlain c = true := by
  apply isPlain_of_toNat
  simp only [isIdPart, isIdStart, isAsciiAlphabetic, isAsciiDigit, or_eq_true,
    and_eq_true, decide_eq_true_eq] at part
  rcases part with ((((letter | rfl) | rfl) | ⟨wide, -⟩) | digit) | ⟨wide, -⟩
  · omega
  · decide
  · decide
  · omega
  · omega
  · omega

/-- A reading that goes on behind a character it has taken. -/
lemma Cut.of_map (kind : p c = true) (rest : ∀ cut, inner = some cut → Cut p t cut)
    (read : inner.map (fun cut => (c :: cut.1, cut.2)) = some cut) : Cut p (c :: t) cut := by
  obtain ⟨first, found, rfl⟩ := map_eq_some_iff.mp read
  exact (rest first found).cons kind

lemma Cut.of_map_escape (kind : isPlain c = true)
    (rest : ∀ cut, inner = some cut → Cut isPlain t cut)
    (read : inner.map (fun cut => ('\\' :: 'u' :: c :: cut.1, cut.2)) = some cut) :
    Cut isPlain ('\\' :: 'u' :: c :: t) cut := by
  obtain ⟨first, found, rfl⟩ := map_eq_some_iff.mp read
  have inside := (rest first found).cons kind
  have letter := inside.cons (c := 'u') (by decide)
  exact letter.cons (c := '\\') (by decide)

lemma nameFrom_cut {state : NameState} (read : nameFrom L state t = some cut) :
    Cut isPlain t cut := by
  induction state, t using nameFrom.induct L generalizing cut with
  | case1 =>
    cases read
    exact Cut.none
  | case2 t ih =>
    rw [nameFrom, if_pos rfl] at read
    exact Cut.of_map_escape (by decide) (fun _ => ih) read
  | case3 c t other digit ih =>
    rw [nameFrom, if_neg other, if_pos digit] at read
    exact Cut.of_map_escape (isPlain_hexDigit digit) (fun _ => ih) read
  | case4 c t other nodigit =>
    rw [nameFrom, if_neg other, if_neg nodigit] at read
    cases read
  | case5 c t noEscape part ih =>
    rw [nameFrom.eq_3 L c t noEscape, if_pos part] at read
    exact Cut.of_map (isPlain_idPart part) (fun _ => ih) read
  | case6 c t noEscape nopart =>
    rw [nameFrom.eq_3 L c t noEscape, if_neg nopart] at read
    cases read
    exact Cut.none
  | case7 missing c t digit ih =>
    rw [nameFrom, if_pos digit] at read
    exact Cut.of_map (isPlain_hexDigit digit) (fun _ => ih) read
  | case8 missing c t nodigit =>
    rw [nameFrom, if_neg nodigit] at read
    cases read
  | case9 t ih =>
    rw [nameFrom, if_pos rfl] at read
    exact Cut.of_map (by decide) (fun _ => ih) read
  | case10 c t other digit ih =>
    rw [nameFrom, if_neg other, if_pos digit] at read
    exact Cut.of_map (isPlain_hexDigit digit) (fun _ => ih) read
  | case11 c t other nodigit =>
    rw [nameFrom, if_neg other, if_neg nodigit] at read
    cases read
  | case12 state more =>
    cases state with
    | plain => exact absurd rfl more
    | digits missing => cases read
    | braces => cases read

lemma digitRun_cut (kind : ∀ c, q c = true → isPlain c = true) (t : List Char) :
    Cut isPlain t (digitRun q t) := by
  refine Cut.span (fun c member => ?_)
  rcases (or_eq_true _ _).mp member with digit | separator
  · exact kind c digit
  · rw [of_decide_eq_true separator]
    decide

lemma fraction_cut (t : List Char) : Cut isPlain t (fraction t) := by
  have point : Cut isPlain t (oneOf ['.'] t) := Cut.oneOf (by decide) t
  rw [fraction]
  split
  · next rest empty =>
    rw [empty] at point
    exact point
  · exact point.andThen (digitRun_cut (fun _ => isPlain_digit))

lemma exponent_cut (t : List Char) : Cut isPlain t (exponent t) := by
  have sign : Cut isPlain t (andThen (oneOf ['e', 'E'] t) (oneOf ['+', '-'])) :=
    (Cut.oneOf (by decide) t).andThen (Cut.oneOf (by decide))
  rw [exponent]
  split
  · exact sign.andThen (digitRun_cut (fun _ => isPlain_digit))
  · exact Cut.none

lemma decimal_cut (t : List Char) : Cut isPlain t (decimal t) := by
  have whole : Cut isPlain t (digitRun isAsciiDigit t) := digitRun_cut (fun _ => isPlain_digit) t
  rw [decimal]
  split
  · exact whole.andThen (Cut.oneOf (by decide))
  · exact (whole.andThen fraction_cut).andThen exponent_cut

lemma radixDigits_plain (radix : radixDigits c = some q) :
    isPlain c = true ∧ ∀ d, q d = true → isPlain d = true := by
  rw [radixDigits] at radix
  split at radix
  · next letter =>
    cases radix
    exact ⟨by rcases letter with rfl | rfl <;> decide, fun _ => isPlain_hexDigit⟩
  · split at radix
    · next letter =>
      cases radix
      refine ⟨by rcases letter with rfl | rfl <;> decide, fun d digit => ?_⟩
      exact isPlain_digit (and_eq_true_iff.mp digit).2
    · split at radix
      · next letter =>
        cases radix
        refine ⟨by rcases letter with rfl | rfl <;> decide, fun d digit => ?_⟩
        rcases (or_eq_true _ _).mp digit with zero | one
        · rw [of_decide_eq_true zero]
          decide
        · rw [of_decide_eq_true one]
          decide
      · cases radix

lemma number_cut (t : List Char) : Cut isPlain t (number t) := by
  unfold number
  split
  · next c rest =>
    split
    · next q radix =>
      obtain ⟨letter, digits⟩ := radixDigits_plain radix
      have start : Cut isPlain ('0' :: c :: rest) (['0', c], rest) :=
        (Cut.none.cons letter).cons (c := '0') (by decide)
      exact (start.andThen (digitRun_cut digits)).andThen (Cut.oneOf (by decide))
    · exact decimal_cut _
  · exact decimal_cut t

lemma punctuators_plain : ∀ q ∈ punctuators, q.toList.tail.all isPlain = true ∧
      q.toList.head?.all (fun c => isPlain c || c = '/') = true := by
  decide

/-- Only a punctuator begins with a slash, and no token has one further in. -/
lemma lexToken_plain {t text rest : List Char} (read : lexToken L t = some (text, rest)) :
    text ++ rest = t ∧ (∀ c ∈ text.tail, isPlain c = true) ∧
      ∀ c ∈ text.head?, isPlain c = true ∨ c = '/' := by
  have plain : Cut isPlain t (text, rest) → text ++ rest = t ∧
      (∀ c ∈ text.tail, isPlain c = true) ∧ ∀ c ∈ text.head?, isPlain c = true ∨ c = '/' := by
    intro cut
    refine ⟨cut.whole, fun c member => cut.all c (mem_of_mem_tail member), ?_⟩
    exact fun c head => .inl (cut.all c (mem_of_head? head))
  rw [lexToken] at read
  split at read
  · exact plain (nameFrom_cut read)
  · split at read
    · next hash =>
      split at read
      · obtain ⟨c, u, rfl⟩ : ∃ c u, t = c :: u := by
          cases t with
          | nil => cases hash
          | cons c u => exact ⟨c, u, rfl⟩
        cases hash
        exact plain (Cut.of_map (by decide) (fun _ => nameFrom_cut) read)
      · cases read
    · split at read
      · split at read
        · cases read
        · have same : number t = (text, rest) := Option.some.inj read
          exact plain (same ▸ number_cut t)
      · rw [punctuator] at read
        obtain ⟨q, found, same⟩ := map_eq_some_iff.mp read
        cases same
        have member := mem_of_find?_eq_some found
        have both := find?_some found
        obtain ⟨behind, whole⟩ := isPrefixOf_iff_prefix.mp (and_eq_true_iff.mp both).1
        obtain ⟨tail, head⟩ := punctuators_plain q member
        refine ⟨?_, all_eq_true.mp tail, fun c first => ?_⟩
        · rw [← whole, drop_left]
        · rw [mem_def.mp first, all_some, or_eq_true] at head
          exact head.imp_right of_decide_eq_true

end Cuts

/-- The part of a script that an element is read from. -/
def Element.source : Element → List Char
  | space c => [c]
  | lineComment text => '/' :: '/' :: text
  | blockComment text => '/' :: '*' :: (text ++ ['*', '/'])
  | string quote text => quote :: (text ++ [quote])
  | template text => graveAccent :: (text ++ [graveAccent])
  | token text => text

inductive Reads (L : Letters) : List Char → Element → List Char → Prop
  | space {c : Char} {rest : List Char} (blank : JsText.isSpace c = true) :
    Reads L (c :: rest) (.space c) rest
  | lineComment {text rest : List Char} (line : ∀ c ∈ text, isLineTerminator c = false) :
    Reads L ('/' :: '/' :: (text ++ rest)) (.lineComment text) rest
  | blockComment {t text rest : List Char} (closed : blockBody t = some (text, rest)) :
    Reads L ('/' :: '*' :: t) (.blockComment text) rest
  | string {quote : Char} {t text rest : List Char} (isQuote : quote = '\'' ∨ quote = '"')
    (closed : stringBody quote t = some (text, rest)) :
    Reads L (quote :: t) (.string quote text) rest
  | template {t text rest : List Char} (closed : templateBody t = some (text, rest)) :
    Reads L (graveAccent :: t) (.template text) rest
  | token {t text rest : List Char} (line : ∀ u, t ≠ '/' :: '/' :: u)
    (block : ∀ u, t ≠ '/' :: '*' :: u) (read : lexToken L t = some (text, rest)) :
    Reads L t (.token text) rest

section Sources

variable {L : Letters} {t text rest : List Char} {e : Element}

lemma blockBody_whole (closed : blockBody t = some (text, rest)) :
    t = text ++ '*' :: '/' :: rest := by
  induction t using blockBody.induct generalizing text with
  | case1 => cases closed
  | case2 behind =>
    cases closed
    rfl
  | case3 c t more ih =>
    rw [blockBody.eq_3 _ _ more] at closed
    obtain ⟨cut, found, same⟩ := map_eq_some_iff.mp closed
    cases same
    exact congrArg (c :: ·) (ih found)

/-- `text` stands before the first `close` that no backslash takes with it. -/
inductive Enclosed (close : Char) : List Char → List Char → List Char → Prop
  | close {rest : List Char} : Enclosed close (close :: rest) [] rest
  | escaped {c : Char} {t text rest : List Char} (body : Enclosed close t text rest) :
    Enclosed close ('\\' :: c :: t) ('\\' :: c :: text) rest
  | plain {c : Char} {t text rest : List Char} (other : c ≠ close) (slash : c ≠ '\\')
    (body : Enclosed close t text rest) : Enclosed close (c :: t) (c :: text) rest

lemma Enclosed.whole {close : Char} (body : Enclosed close t text rest) :
    t = text ++ close :: rest := by
  induction body with
  | close => rfl
  | escaped body ih => rw [ih, cons_append, cons_append]
  | plain other slash body ih => rw [ih, cons_append]

lemma stringBody_enclosed {quote : Char} (feed : '\n' ≠ quote)
    (closed : stringBody quote t = some (text, rest)) : Enclosed quote t text rest := by
  induction t using stringBody.induct quote generalizing text with
  | case1 => cases closed
  | case2 t ih =>
    rw [stringBody] at closed
    obtain ⟨cut, found, same⟩ := map_eq_some_iff.mp closed
    cases same
    exact .escaped (.plain feed (by decide) (ih found))
  | case3 c t more ih =>
    rw [stringBody.eq_3 _ _ _ more] at closed
    obtain ⟨cut, found, same⟩ := map_eq_some_iff.mp closed
    cases same
    exact .escaped (ih found)
  | case4 t line pair =>
    rw [stringBody.eq_4 _ _ _ line pair, if_pos rfl] at closed
    cases closed
    exact .close
  | case5 c t line pair other wrong =>
    rw [stringBody.eq_4 _ _ _ line pair, if_neg other, if_pos wrong] at closed
    cases closed
  | case6 c t line pair other right ih =>
    rw [stringBody.eq_4 _ _ _ line pair, if_neg other, if_neg right] at closed
    obtain ⟨cut, found, same⟩ := map_eq_some_iff.mp closed
    cases same
    exact .plain other (fun same => right (.inl same)) (ih found)

lemma templateBody_enclosed (closed : templateBody t = some (text, rest)) :
    Enclosed graveAccent t text rest := by
  induction t using templateBody.induct generalizing text with
  | case1 => cases closed
  | case2 c t ih =>
    rw [templateBody] at closed
    obtain ⟨cut, found, same⟩ := map_eq_some_iff.mp closed
    cases same
    exact .escaped (ih found)
  | case3 t pair =>
    rw [templateBody.eq_3 _ _ pair, if_pos rfl] at closed
    cases closed
    exact .close
  | case4 c t pair other wrong =>
    rw [templateBody.eq_3 _ _ pair, if_neg other, if_pos wrong] at closed
    cases closed
  | case5 c t pair other right ih =>
    rw [templateBody.eq_3 _ _ pair, if_neg other, if_neg right] at closed
    obtain ⟨cut, found, same⟩ := map_eq_some_iff.mp closed
    cases same
    exact .plain other (fun same => right (.inl same)) (ih found)

/-- Elements are read one behind the other, and nothing is left out between them. -/
lemma Reads.whole (reads : Reads L t e rest) : t = e.source ++ rest := by
  cases reads with
  | space blank => rfl
  | lineComment line => rfl
  | blockComment closed =>
    rw [blockBody_whole closed, Element.source]
    simp
  | @string quote _ _ _ isQuote closed =>
    have feed : '\n' ≠ quote := by rcases isQuote with rfl | rfl <;> decide
    rw [(stringBody_enclosed feed closed).whole, Element.source]
    simp
  | template closed =>
    rw [(templateBody_enclosed closed).whole, Element.source]
    simp
  | token line block read => exact (lexToken_plain read).1.symm

lemma reads_of_lexElement (read : lexElement L t = some (e, rest)) : Reads L t e rest := by
  unfold lexElement at read
  split at read
  · cases read
  · next u =>
    cases read
    have line : Reads L ('/' :: '/' :: (u.takeWhile (fun c => !isLineTerminator c) ++
        u.dropWhile (fun c => !isLineTerminator c)))
        (.lineComment (u.takeWhile (fun c => !isLineTerminator c)))
        (u.dropWhile (fun c => !isLineTerminator c)) :=
      .lineComment (fun c member => by simpa using mem_takeWhile_imp member)
    rwa [takeWhile_append_dropWhile] at line
  · next u =>
    obtain ⟨cut, found, same⟩ := map_eq_some_iff.mp read
    cases same
    exact .blockComment found
  · next c u line block =>
    split at read
    · next blank =>
      cases read
      exact .space blank
    · split at read
      · next isQuote =>
        obtain ⟨cut, found, same⟩ := map_eq_some_iff.mp read
        cases same
        exact .string isQuote found
      · split at read
        · next grave =>
          obtain ⟨cut, found, same⟩ := map_eq_some_iff.mp read
          cases same
          rw [grave]
          exact .template found
        · obtain ⟨cut, found, same⟩ := map_eq_some_iff.mp read
          cases same
          refine .token ?_ ?_ found
          · intro v same
            cases same
            exact line v rfl rfl
          · intro v same
            cases same
            exact block v rfl rfl

end Sources

end JsLexer
