import KKTerm.Library.Runs
import Mathlib.Algebra.BigOperators.Group.Finset.Basic
import Mathlib.Algebra.GroupWithZero.Nat

/-!
# Scripts with quoted values

A lexer for a language with literals between quote characters, in which a
doubled quote character stands for one. Strings with escapes are read as code,
so that a quote inside one opens no literal. A script that is put together from
fixed text and escaped values is read as intended exactly when the escaping
doubles every quote character of every value.
-/

namespace QuotedScript

open List

/-- The characters that delimit literals and strings. -/
structure Alphabet (α : Type) where
  quote : α → Bool
  string : α → Bool
  escape : α → Bool

inductive Token (α : Type) where
  | code (c : α)
  | literal (value : List α)
  deriving DecidableEq

/-- In `closing` the last character was a quote, which ends the literal unless
another one follows. -/
inductive Mode (α : Type) where
  | code
  | string
  | escaped
  | literal (value : List α)
  | closing (value : List α)

namespace Alphabet

variable {α : Type} (A : Alphabet α)

def readCode (c : α) : List (Token α) × Mode α :=
  if A.quote c then ([], .literal [])
  else ([.code c], if A.string c then .string else .code)

def step : Mode α → α → List (Token α) × Mode α
  | .code, c => A.readCode c
  | .string, c =>
    ([.code c], if A.string c then .code else if A.escape c then .escaped else .string)
  | .escaped, c => ([.code c], .string)
  | .literal value, c =>
    if A.quote c then ([], .closing value) else ([], .literal (value ++ [c]))
  | .closing value, c =>
    if A.quote c then ([], .literal (value ++ [c]))
    else (.literal value :: (A.readCode c).1, (A.readCode c).2)

def run : Mode α → List α → List (Token α) × Mode α
  | m, [] => ([], m)
  | m, c :: rest =>
    ((A.step m c).1 ++ (run (A.step m c).2 rest).1, (run (A.step m c).2 rest).2)

/-- A script may end in code, or with the quote that ends a literal. -/
def finish : Mode α → Option (List (Token α))
  | .code => some []
  | .closing value => some [.literal value]
  | _ => none

def lex (script : List α) : Option (List (Token α)) :=
  (finish (A.run .code script).2).map ((A.run .code script).1 ++ ·)

variable {A}

lemma run_append (m : Mode α) (front back : List α) :
    A.run m (front ++ back) = ((A.run m front).1 ++ (A.run (A.run m front).2 back).1,
        (A.run (A.run m front).2 back).2) := by
  induction front generalizing m with
  | nil => rfl
  | cons c front ih =>
    rw [cons_append, run, ih, run, append_assoc]

end Alphabet

section Renaming

variable {α β : Type} {A : Alphabet α} {B : Alphabet β}

def Token.map (f : α → β) : Token α → Token β
  | .code c => .code (f c)
  | .literal value => .literal (value.map f)

def Mode.map (f : α → β) : Mode α → Mode β
  | .code => .code
  | .string => .string
  | .escaped => .escaped
  | .literal value => .literal (value.map f)
  | .closing value => .closing (value.map f)

/-- A renaming that keeps the delimiters apart from the rest. -/
structure Respects (A : Alphabet α) (B : Alphabet β) (f : α → β) : Prop where
  quote : ∀ c, B.quote (f c) = A.quote c
  string : ∀ c, B.string (f c) = A.string c
  escape : ∀ c, B.escape (f c) = A.escape c

variable {f : α → β} (h : Respects A B f)
include h

lemma Respects.readCode (c : α) :
    B.readCode (f c) = ((A.readCode c).1.map (Token.map f), (A.readCode c).2.map f) := by
  unfold Alphabet.readCode
  rw [h.quote, h.string]
  split_ifs <;> rfl

variable (m : Mode α) (script : List α)

lemma Respects.step (c : α) :
    B.step (m.map f) (f c) = ((A.step m c).1.map (Token.map f), (A.step m c).2.map f) := by
  cases m with
  | code => exact h.readCode c
  | string =>
    simp only [Mode.map, Alphabet.step, h.string, h.escape]
    split_ifs <;> rfl
  | escaped => rfl
  | literal value =>
    simp only [Mode.map, Alphabet.step, h.quote]
    split_ifs <;> simp
  | closing value =>
    simp only [Mode.map, Alphabet.step, h.quote, h.readCode]
    split_ifs <;> simp [Token.map]

lemma Respects.run :
    B.run (m.map f) (script.map f) =
      ((A.run m script).1.map (Token.map f), (A.run m script).2.map f) := by
  induction script generalizing m with
  | nil => rfl
  | cons c rest ih =>
    rw [map_cons, Alphabet.run, h.step, ih, Alphabet.run, map_append]

/-- The tokens of a renamed script are the renamed tokens. -/
lemma Respects.lex : B.lex (script.map f) = (A.lex script).map (map (Token.map f)) := by
  unfold Alphabet.lex
  rw [show (Mode.code : Mode β) = (Mode.code : Mode α).map f from rfl, h.run]
  cases (A.run .code script).2 <;> simp [Alphabet.finish, Mode.map, Token.map]

end Renaming

/-! ## The weight of a script

A quote character weighs 1 and any other character what it counts inside a
literal. The two quotes around a literal and the quote doubled inside it are
then paid for by the characters read, so reading neither gains nor loses weight. -/

section Weight

variable {α : Type} (A : Alphabet α) (size : α → Nat)

def weight (c : α) : Nat :=
  if A.quote c then 1 else size c

def content (value : List α) : Nat :=
  (value.map size).sum

def Token.weight : Token α → Nat
  | .code c => QuotedScript.weight A size c
  | .literal value => content size value + 2

def Mode.weight : Mode α → Nat
  | .literal value => content size value + 1
  | .closing value => content size value + 2
  | _ => 0

def total (tokens : List (Token α)) : Nat :=
  (tokens.map (Token.weight A size)).sum

variable {A size}

lemma content_append (front back : List α) :
    content size (front ++ back) = content size front + content size back := by
  simp [content]

lemma total_append (front back : List (Token α)) :
    total A size (front ++ back) = total A size front + total A size back := by
  simp [total]

lemma total_readCode (c : α) :
    total A size (A.readCode c).1 + (A.readCode c).2.weight size = weight A size c := by
  by_cases quote : A.quote c
  · simp [Alphabet.readCode, quote, total, Mode.weight, content, weight]
  · by_cases string : A.string c <;>
      simp [Alphabet.readCode, quote, string, total, Mode.weight, Token.weight]

variable (doubled : ∀ c, A.quote c = true → size c = 2)
include doubled

lemma total_step (m : Mode α) (c : α) :
    total A size (A.step m c).1 + (A.step m c).2.weight size =
      m.weight size + weight A size c := by
  cases m with
  | code =>
    have read : total A size (A.readCode c).1 + (A.readCode c).2.weight size = weight A size c :=
      total_readCode c
    simpa [Alphabet.step, Mode.weight] using read
  | string =>
    by_cases string : A.string c <;> by_cases escape : A.escape c <;>
      simp [Alphabet.step, string, escape, total, Mode.weight, Token.weight]
  | escaped => simp [Alphabet.step, total, Mode.weight, Token.weight]
  | literal value =>
    by_cases quote : A.quote c
    · simp [Alphabet.step, quote, total, Mode.weight, weight]
    · simp [Alphabet.step, quote, total, Mode.weight, weight, content]
      omega
  | closing value =>
    by_cases quote : A.quote c
    · have size : size c = 2 := doubled c quote
      simp [Alphabet.step, quote, total, Mode.weight, weight, content, size]
    · have read : total A size (A.readCode c).1 + (A.readCode c).2.weight size = weight A size c :=
      total_readCode c
      have emitted : total A size (.literal value :: (A.readCode c).1) =
          content size value + 2 + total A size (A.readCode c).1 := by
        simp [total, Token.weight]
      have paid : (Mode.closing value).weight size = content size value + 2 := rfl
      simp only [Alphabet.step, if_neg quote, emitted, paid]
      omega

lemma total_run (m : Mode α) (script : List α) :
    total A size (A.run m script).1 + (A.run m script).2.weight size =
      m.weight size + (script.map (weight A size)).sum := by
  induction script generalizing m with
  | nil => simp [Alphabet.run, total]
  | cons c rest ih =>
    have first := total_step doubled m c
    have later := ih (A.step m c).2
    simp only [Alphabet.run, total_append, map_cons, sum_cons]
    omega

lemma total_lex {script : List α} {tokens : List (Token α)} (h : A.lex script = some tokens) :
    total A size tokens = (script.map (weight A size)).sum := by
  have balance := total_run doubled .code script
  obtain ⟨ending, finished, rfl⟩ := Option.map_eq_some_iff.mp h
  rw [total_append]
  cases mode : (A.run .code script).2 with
  | code =>
    cases mode ▸ finished
    simpa [mode, Mode.weight, total] using balance
  | closing value =>
    cases mode ▸ finished
    simpa [mode, Mode.weight, total, Token.weight] using balance
  | string => cases mode ▸ finished
  | escaped => cases mode ▸ finished
  | literal value => cases mode ▸ finished

end Weight

/-- A character of the fixed text, or a place where a value is put in. -/
inductive Piece (α β : Type) where
  | char (c : α)
  | hole (value : β)

section Templates

variable {α β : Type} (A : Alphabet α)

def Piece.holds (p : α → Bool) : Piece α β → Bool
  | .char c => p c
  | .hole _ => false

/-- A value is read as part of the literal around it, whatever it holds. -/
def Alphabet.template : Alphabet (Piece α β) where
  quote := Piece.holds A.quote
  string := Piece.holds A.string
  escape := Piece.holds A.escape

/-- The same template without what is put into it. -/
def Piece.blank : Piece α β → Piece α Unit
  | .char c => .char c
  | .hole _ => .hole ()

lemma respects_blank : Respects (A.template : Alphabet (Piece α β)) A.template Piece.blank where
  quote := fun s => by cases s <;> rfl
  string := fun s => by cases s <;> rfl
  escape := fun s => by cases s <;> rfl

/-- The tokens of a template, apart from the values put into its literals, are
those of the blank template. -/
lemma lex_blank (template : List (Piece α β)) :
    A.template.lex (template.map Piece.blank) =
      (A.template.lex template).map (map (Token.map Piece.blank)) :=
  (respects_blank A).lex template

def Token.Sound : Token (Piece α β) → Prop
  | .code (.hole _) => False
  | _ => True

inductive Place where
  | code
  | string
  | escaped
  | literal
  | closing
  deriving DecidableEq

def Mode.place : Mode α → Place
  | .code => .code
  | .string => .string
  | .escaped => .escaped
  | .literal _ => .literal
  | .closing _ => .closing

def Place.ofCode (c : α) : Place :=
  if A.quote c then .literal else if A.string c then .string else .code

/-- Where the lexer is after one more symbol. -/
def Place.next : Place → Piece α β → Option Place
  | .literal, .hole _ => some .literal
  | _, .hole _ => none
  | .code, .char c => some (Place.ofCode A c)
  | .string, .char c =>
    some (if A.string c then .code else if A.escape c then .escaped else .string)
  | .escaped, .char _ => some .string
  | .literal, .char c => some (if A.quote c then .closing else .literal)
  | .closing, .char c => some (if A.quote c then .literal else Place.ofCode A c)

variable {A}

lemma place_readCode (c : α) :
    (A.template.readCode (.char c : Piece α β)).2.place = .ofCode A c ∧
      ∀ t ∈ (A.template.readCode (.char c : Piece α β)).1, t.Sound := by
  by_cases quote : A.quote c <;> by_cases string : A.string c <;>
    simp [Alphabet.readCode, Alphabet.template, Piece.holds, Place.ofCode, quote, string,
      Mode.place, Token.Sound]

variable {template : List (Piece α β)} {m : Mode (Piece α β)} {p : Place}

lemma place_step {s : Piece α β} (h : m.place.next A s = some p) :
    (A.template.step m s).2.place = p ∧ ∀ t ∈ (A.template.step m s).1, t.Sound := by
  cases s with
  | char c =>
    have read : (A.template.readCode (.char c : Piece α β)).2.place = .ofCode A c ∧ _ :=
      place_readCode c
    cases m with
    | code =>
      cases h
      exact read
    | string =>
      cases h
      by_cases string : A.string c <;> by_cases escape : A.escape c <;>
        simp [Alphabet.step, Alphabet.template, Piece.holds, string, escape, Mode.place,
          Token.Sound]
    | escaped =>
      cases h
      simp [Alphabet.step, Mode.place, Token.Sound]
    | literal value =>
      cases h
      by_cases quote : A.quote c <;>
        simp [Alphabet.step, Alphabet.template, Piece.holds, quote, Mode.place]
    | closing value =>
      cases h
      by_cases quote : A.quote c
      · simp [Alphabet.step, Alphabet.template, Piece.holds, quote, Mode.place]
      · have plain : ¬ A.template.quote (.char c : Piece α β) = true := quote
        rw [Alphabet.step, if_neg plain, if_neg quote]
        refine ⟨read.1, ?_⟩
        intro t member
        rcases mem_cons.mp member with rfl | later
        · trivial
        · exact read.2 t later
  | hole value =>
    cases m <;> cases h
    simp [Alphabet.step, Alphabet.template, Piece.holds, Mode.place]

lemma place_run (h : Runs.run (Place.next A) m.place template = some p) :
    (A.template.run m template).2.place = p ∧ ∀ t ∈ (A.template.run m template).1, t.Sound := by
  induction template generalizing m with
  | nil =>
    cases h
    exact ⟨rfl, by simp [Alphabet.run]⟩
  | cons s rest ih =>
    obtain ⟨p₁, taken, rest⟩ := Runs.run_cons_eq_some.mp h
    obtain ⟨rfl, sound⟩ := place_step taken
    obtain ⟨place, later⟩ := ih rest
    refine ⟨place, ?_⟩
    intro t member
    rcases mem_append.mp member with old | new
    · exact sound t old
    · exact later t new

/-- A template is read to its end, with values in literals only. -/
lemma lex_of_place (h : Runs.run (Place.next A) .code template = some .code) :
    ∃ tokens, A.template.lex template = some tokens ∧ ∀ t ∈ tokens, t.Sound := by
  obtain ⟨place, sound⟩ := place_run (m := .code) h
  refine ⟨(A.template.run .code template).1, ?_, sound⟩
  cases mode : (A.template.run .code template).2 with
  | code => simp [Alphabet.lex, mode, Alphabet.finish]
  | string => cases mode ▸ place
  | escaped => cases mode ▸ place
  | literal value => cases mode ▸ place
  | closing value => cases mode ▸ place

end Templates

section Escaping

variable {α : Type} (A : Alphabet α) (escaped : α → Bool)

def double (c : α) : List α :=
  if escaped c then [c, c] else [c]

/-- The script: every value stands in its place with the escaped characters doubled. -/
def Piece.render : Piece α (List α) → List α
  | .char c => [c]
  | .hole value => value.flatMap (double escaped)

/-- What the script is meant to hold at that place. -/
def Piece.fill : Piece α (List α) → List α
  | .char c => [c]
  | .hole value => value

def Token.fill : Token (Piece α (List α)) → Token α
  | .code (.char c) => .code c
  | .code (.hole value) => .literal value
  | .literal value => .literal (value.flatMap Piece.fill)

def Mode.fill : Mode (Piece α (List α)) → Mode α
  | .code => .code
  | .string => .string
  | .escaped => .escaped
  | .literal value => .literal (value.flatMap Piece.fill)
  | .closing value => .closing (value.flatMap Piece.fill)

def Piece.value {β : Type} : Piece α β → Option β
  | .char _ => none
  | .hole value => some value

def holes {β : Type} (template : List (Piece α β)) : List β :=
  template.filterMap Piece.value

/-- Every quote character of the value is one that the escaping doubles. -/
def Clean (value : List α) : Prop :=
  ∀ c ∈ value, A.quote c = true → escaped c = true

variable {A escaped}

lemma fill_readCode (c : α) :
    A.readCode c = ((A.template.readCode (.char c : Piece α (List α))).1.map Token.fill,
      (A.template.readCode (.char c : Piece α (List α))).2.fill) := by
  by_cases quote : A.quote c <;> by_cases string : A.string c <;>
    simp [Alphabet.readCode, Alphabet.template, Piece.holds, quote, string, Mode.fill, Token.fill]

lemma fill_step (m : Mode (Piece α (List α))) (c : α) :
    A.step m.fill c =
      ((A.template.step m (.char c)).1.map Token.fill, (A.template.step m (.char c)).2.fill) := by
  cases m with
  | code => exact fill_readCode c
  | string =>
    by_cases string : A.string c <;> by_cases escape : A.escape c <;>
      simp [Alphabet.step, Alphabet.template, Piece.holds, string, escape, Mode.fill, Token.fill]
  | escaped => rfl
  | literal value =>
    by_cases quote : A.quote c <;>
      simp [Alphabet.step, Alphabet.template, Piece.holds, quote, Mode.fill, Piece.fill]
  | closing value =>
    by_cases quote : A.quote c
    · simp [Alphabet.step, Alphabet.template, Piece.holds, quote, Mode.fill, Piece.fill]
    · have plain : ¬ A.template.quote (.char c : Piece α (List α)) = true := quote
      rw [Mode.fill, Alphabet.step, if_neg quote, Alphabet.step, if_neg plain, fill_readCode]
      rfl

lemma run_double {value : List α} (clean : Clean A escaped value)
    (doubled : ∀ c, escaped c = true → A.quote c = true) (before : List α) :
    A.run (.literal before) (value.flatMap (double escaped)) = ([], .literal (before ++ value)) := by
  induction value generalizing before with
  | nil => simp [Alphabet.run]
  | cons c value ih =>
    have later := ih (fun d member => clean d (mem_cons_of_mem c member)) (before ++ [c])
    rw [append_assoc, singleton_append] at later
    rw [flatMap_cons, Alphabet.run_append]
    by_cases twice : escaped c
    · have quote : A.quote c = true := doubled c twice
      simp [double, twice, Alphabet.run, Alphabet.step, quote, later]
    · have plain : ¬ A.quote c = true := fun quote => twice (clean c mem_cons_self quote)
      simp [double, twice, Alphabet.run, Alphabet.step, plain, later]

variable {template : List (Piece α (List α))} {tokens : List (Token (Piece α (List α)))}

/-- Reading the script with clean values goes as reading the template. -/
lemma run_render {m : Mode (Piece α (List α))} (doubled : ∀ c, escaped c = true → A.quote c = true)
    (clean : ∀ value ∈ holes template, Clean A escaped value)
    (sound : ∀ t ∈ (A.template.run m template).1, t.Sound) :
    A.run m.fill (template.flatMap (Piece.render escaped)) =
      ((A.template.run m template).1.map Token.fill, (A.template.run m template).2.fill) := by
  induction template generalizing m with
  | nil => rfl
  | cons s rest ih =>
    have soundRest := fun t member => sound t (mem_append_right _ member)
    have soundFirst := fun t member => sound t (mem_append_left _ member)
    rw [flatMap_cons, Alphabet.run_append]
    cases s with
    | char c =>
      have later := ih clean soundRest
      simp only [Piece.render, Alphabet.run, fill_step, append_nil, later, map_append]
    | hole value =>
      have later := ih (fun v member => clean v (mem_cons_of_mem value member)) soundRest
      have first := clean value mem_cons_self
      cases m with
      | literal before =>
        have reads := run_double first doubled (before.flatMap Piece.fill)
        have next : A.template.step (.literal before) (.hole value) =
            ([], .literal (before ++ [.hole value])) := rfl
        have filled : (Mode.literal (before ++ [Piece.hole value])).fill =
            .literal (before.flatMap Piece.fill ++ value) := by
          simp [Mode.fill, Piece.fill]
        rw [next, filled] at later
        simp only [Piece.render, Mode.fill, reads, Alphabet.run, next, later, nil_append]
      | code => exact absurd (soundFirst _ mem_cons_self) id
      | string => exact absurd (soundFirst _ mem_cons_self) id
      | escaped => exact absurd (soundFirst _ mem_cons_self) id
      | closing before =>
        exact absurd (soundFirst _ (mem_cons_of_mem _ mem_cons_self)) id

lemma lex_render (doubled : ∀ c, escaped c = true → A.quote c = true)
    (intended : A.template.lex template = some tokens) (sound : ∀ t ∈ tokens, t.Sound)
    (clean : ∀ value ∈ holes template, Clean A escaped value) :
    A.lex (template.flatMap (Piece.render escaped)) = some (tokens.map Token.fill) := by
  obtain ⟨ending, finished, rfl⟩ := Option.map_eq_some_iff.mp intended
  have reads := run_render (m := .code) doubled clean
    (fun t member => sound t (mem_append_left _ member))
  have start : (Mode.code : Mode (Piece α (List α))).fill = .code := rfl
  have ends : Alphabet.finish (A.template.run .code template).2.fill =
      some (ending.map Token.fill) := by
    cases mode : (A.template.run .code template).2 <;> cases mode ▸ finished <;> rfl
  rw [start] at reads
  simp only [Alphabet.lex, reads, ends, Option.map_some, map_append]

def Piece.size : Piece α (List α) → Nat
  | .char _ => 2
  | .hole value => 2 * value.length

lemma content_fill (value : List (Piece α (List α))) :
    content (fun _ => 2) (value.flatMap Piece.fill) = content Piece.size value := by
  induction value with
  | nil => rfl
  | cons s rest ih =>
    have first : content (fun _ => 2) s.fill = s.size := by
      cases s <;> simp [Piece.fill, Piece.size, content, Nat.mul_comm]
    rw [flatMap_cons, content_append, ih, first]
    simp [content]

lemma total_fill (sound : ∀ t ∈ tokens, t.Sound) :
    total A (fun _ => 2) (tokens.map Token.fill) = total A.template Piece.size tokens := by
  rw [total, total, map_map]
  refine congrArg sum (map_congr_left ?_)
  intro t member
  cases t with
  | code s =>
    cases s with
    | char c => rfl
    | hole value => exact absurd (sound _ member) id
  | literal value =>
    simp [Token.fill, Token.weight, content_fill]

/-- The undoubled quote characters of the values. -/
def loose (A : Alphabet α) (escaped : α → Bool) (value : List α) : List α :=
  value.filter (fun c => A.quote c && !escaped c)

section
variable (doubled : ∀ c, escaped c = true → A.quote c = true)
include doubled

lemma weight_double (value : List α) :
    ((value.flatMap (double escaped)).map (weight A (fun _ => 2))).sum +
      (loose A escaped value).length = 2 * value.length := by
  induction value with
  | nil => rfl
  | cons c value ih =>
    by_cases twice : escaped c
    · have quote : A.quote c = true := doubled c twice
      simp [double, twice, weight, quote, loose] at ih ⊢
      omega
    · by_cases quote : A.quote c <;> simp [double, twice, weight, quote, loose] at ih ⊢ <;> omega

lemma weight_render (template : List (Piece α (List α))) :
    ((template.flatMap (Piece.render escaped)).map (weight A (fun _ => 2))).sum +
      ((holes template).flatMap (loose A escaped)).length =
        (template.map (weight A.template Piece.size)).sum := by
  induction template with
  | nil => rfl
  | cons s rest ih =>
    cases s with
    | char c =>
      have same : weight A.template Piece.size (.char c) = weight A (fun _ => 2) c := rfl
      have skip : holes (.char c :: rest) = holes rest := rfl
      simp only [flatMap_cons, Piece.render, map_append, map_cons, map_nil,
        sum_append, sum_cons, sum_nil, same, skip]
      omega
    | hole value =>
      have paid := weight_double doubled value
      have same : weight A.template Piece.size (.hole value) = 2 * value.length := rfl
      have skip : holes (.hole value :: rest) = value :: holes rest := rfl
      simp only [flatMap_cons, Piece.render, map_append, map_cons,
        sum_append, sum_cons, same, skip, length_append]
      omega

/-- The script is read as its template exactly when every value is clean. -/
lemma lex_render_iff
    (intended : A.template.lex template = some tokens) (sound : ∀ t ∈ tokens, t.Sound) :
    A.lex (template.flatMap (Piece.render escaped)) = some (tokens.map Token.fill) ↔
      ∀ value ∈ holes template, Clean A escaped value := by
  constructor
  · intro read value member c inside quote
    have single : ∀ s : Piece α (List α), A.template.quote s = true → s.size = 2 := by
      intro s holds
      cases s with
      | char c => rfl
      | hole value => cases holds
    have script : total A (fun _ => 2) (tokens.map Token.fill) = _ := total_lex (fun _ _ => rfl) read
    have meant : total A.template Piece.size tokens = _ := total_lex single intended
    have balance := weight_render doubled template
    rw [total_fill sound, meant] at script
    have none : (holes template).flatMap (loose A escaped) = [] :=
      eq_nil_of_length_eq_zero (by omega)
    by_contra undoubled
    have lost : c ∈ (holes template).flatMap (loose A escaped) := by
      refine mem_flatMap.mpr ⟨value, member, mem_filter.mpr ⟨inside, ?_⟩⟩
      simp [quote, Bool.eq_false_iff.mpr undoubled]
    rw [none] at lost
    cases lost
  · exact lex_render doubled intended sound

end

end Escaping

end QuotedScript
