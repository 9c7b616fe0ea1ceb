import KKTerm.Ssh.Config

/-!
# First obtained values

The drafts are compared with the rule that reads the directives in the order of
the lines: the first usable value before every section, or in a `Host` section
that admits the alias, counts.
-/

namespace Ssh

open Text Glob
open Option hiding get mem_map
open Fallible List

lemma wildcardMatch_iff {pattern value : Token} : wildcardMatch pattern value = true ↔
    Matches (asciiLower pattern) (asciiLower value) := by
  have row := (row_wildcardRow (asciiLower pattern) (asciiLower value)).2
    (asciiLower value).length (Nat.le_refl _)
  rw [take_length] at row
  rw [wildcardMatch, beq_iff_eq]
  exact row

/-- The lower-cased value is cut into one fitting piece for each pattern character. -/
theorem wildcardMatch_iff_pieces (pattern value : Token) : wildcardMatch pattern value = true ↔
    ∃ pieces, Forall₂ Fits (asciiLower pattern) pieces ∧
      pieces.flatten = asciiLower value := by
  rw [wildcardMatch_iff]
  exact matches_iff_pieces

/-- Some positive pattern matches the alias, and no negated pattern does. -/
def Admits (patterns : List Token) (hostAlias : Token) : Prop :=
  (∃ p ∈ patterns, (stripNegation p).1 = false ∧
    Matches (Text.asciiLower (stripNegation p).2) (Text.asciiLower hostAlias)) ∧
  ∀ p ∈ patterns, (stripNegation p).1 = true →
    ¬ Matches (Text.asciiLower (stripNegation p).2) (Text.asciiLower hostAlias)

lemma hostPatternsMatch_iff {positiveMatch : Bool} {patterns : List Token} {hostAlias : Token} :
    hostPatternsMatch positiveMatch patterns hostAlias = true ↔
      (positiveMatch = true ∨ ∃ p ∈ patterns, (stripNegation p).1 = false ∧
        wildcardMatch (stripNegation p).2 hostAlias = true) ∧
      ∀ p ∈ patterns, (stripNegation p).1 = true →
        ¬ wildcardMatch (stripNegation p).2 hostAlias = true := by
  induction patterns generalizing positiveMatch with
  | nil => simp [hostPatternsMatch]
  | cons p rest ih =>
    rw [hostPatternsMatch]
    dsimp only
    rw [forall_mem_cons]
    by_cases here : wildcardMatch (stripNegation p).2 hostAlias = true
    · rw [if_pos here]
      cases negated : (stripNegation p).1 with
      | true => simp [here]
      | false => rw [if_neg Bool.false_ne_true, ih]; simp [here, negated]
    · rw [if_neg here, ih]
      simp [here]

lemma admits_iff {patterns : List Token} {hostAlias : Token} :
    hostPatternsMatch false patterns hostAlias = true ↔ Admits patterns hostAlias := by
  rw [hostPatternsMatch_iff, Admits]
  simp only [wildcardMatch_iff, Bool.false_eq_true, false_or]

instance (patterns : List Token) (hostAlias : Token) : Decidable (Admits patterns hostAlias) :=
  decidable_of_iff _ admits_iff

inductive Key where
  | hostName
  | user
  | port
  | identityFile
  | proxyJump
  deriving DecidableEq

namespace Key

abbrev Value : Key → Type
  | port => Nat
  | hostName | user | identityFile | proxyJump => Token

def keyword : Key → Token
  | hostName => "hostname".toList
  | user => "user".toList
  | port => "port".toList
  | identityFile => "identityfile".toList
  | proxyJump => "proxyjump".toList

/-- The value of a directive, if it has a usable one. -/
def usable : (k : Key) → List Token → Option k.Value
  | port, values => values.head?.bind (Text.parseUnsigned 65535)
  | hostName, values | user, values | identityFile, values | proxyJump, values => firstValue values

lemma keyword_injective {k k' : Key} (same : k.keyword = k'.keyword) : k = k' := by
  cases k <;> cases k' <;> first | rfl | exact absurd same (by decide)

lemma keyword_ne_host (k : Key) : k.keyword ≠ "host".toList := by
  cases k <;> decide

lemma keyword_ne_match (k : Key) : k.keyword ≠ "match".toList := by
  cases k <;> decide

end Key

namespace HostBlock

def get (b : HostBlock) : (k : Key) → Option k.Value
  | .hostName => b.hostName
  | .user => b.user
  | .port => b.port
  | .identityFile => b.keyPath
  | .proxyJump => b.proxyJump

def set (b : HostBlock) : (k : Key) → Option k.Value → HostBlock
  | .hostName, v => { b with hostName := v }
  | .user, v => { b with user := v }
  | .port, v => { b with port := v }
  | .identityFile, v => { b with keyPath := v }
  | .proxyJump, v => { b with proxyJump := v }

variable {b b' : HostBlock} {k : Key}

variable (v : Option k.Value) {directive : Token}

lemma patterns_set : (b.set k v).patterns = b.patterns := by
  cases k <;> rfl

lemma get_set : (b.set k v).get k = v := by
  cases k <;> rfl

lemma get_set_ne {k' : Key} (differ : k ≠ k') (v : Option k.Value) :
    (b.set k v).get k' = b.get k' := by
  cases k <;> cases k' <;> first | rfl | exact absurd rfl differ

lemma get_inherit (resolved block : HostBlock) :
    (resolved.inherit block).get k = (resolved.get k).or (block.get k) := by
  cases k <;> rfl

lemma setFirst_eq (slot : Option Token) (values : List Token) :
    setFirst slot values = slot.or (firstValue values) := by
  cases slot <;> rfl

variable {values : List Token} {lineNumber : Nat}

lemma setPort_eq {slot port : Option Nat} (read : setPort slot values lineNumber = .ok port) :
    port = slot.or (values.head?.bind (parseUnsigned 65535)) := by
  cases slot with
  | some n =>
    cases read
    rfl
  | none =>
    cases head : values.head? with
    | none =>
      rw [setPort, head] at read
      cases read
      rfl
    | some value =>
      rw [setPort, head] at read
      dsimp only at read
      rw [parsePort] at read
      cases number : parseUnsigned 65535 value with
      | none =>
        rw [number] at read
        cases read
      | some n =>
        rw [number] at read
        cases read
        exact number.symm

/-- A directive sets the value of its key, unless the block has one. -/
lemma applied_eq (applied : applySupportedDirective b directive values lineNumber = .ok (some b')) :
    ∃ k : Key, directive = k.keyword ∧ b' = b.set k ((b.get k).or (k.usable values)) := by
  rw [applySupportedDirective] at applied
  split at applied
  · rename_i keyword
    cases applied
    exact ⟨.hostName, keyword, by rw [setFirst_eq]; rfl⟩
  split at applied
  · rename_i keyword
    cases applied
    exact ⟨.user, keyword, by rw [setFirst_eq]; rfl⟩
  split at applied
  · rename_i keyword
    cases applied
    exact ⟨.identityFile, keyword, by rw [setFirst_eq]; rfl⟩
  split at applied
  · rename_i keyword
    cases applied
    exact ⟨.proxyJump, keyword, by rw [setFirst_eq]; rfl⟩
  split at applied
  · rename_i keyword
    cases read : setPort b.port values lineNumber with
    | error e =>
      rw [read] at applied
      cases applied
    | ok port =>
      rw [read] at applied
      cases applied
      exact ⟨.port, keyword, by rw [setPort_eq read]; rfl⟩
  · cases applied

/-- Only directives without a key are left to the caller. -/
lemma not_applied (refused : applySupportedDirective b directive values lineNumber = .ok none)
    (k : Key) : directive ≠ k.keyword := by
  rintro rfl
  cases k with
  | port =>
    have applied : applySupportedDirective b Key.port.keyword values lineNumber =
      (setPort b.port values lineNumber).map (fun port => some { b with port }) := rfl
    rw [applied] at refused
    cases read : setPort b.port values lineNumber <;> rw [read] at refused <;> cases refused
  | hostName | user | identityFile | proxyJump => cases refused

end HostBlock

inductive Parsed (s : ParseState) : Option Directive → ParseState → Prop where
  | blank : Parsed s none s
  | host (d : Directive) (keyword : d.keyword = "host".toList) :
    Parsed s (some d) { s with blocks := s.closeBlock, currentBlock := some { patterns := d.values } }
  | supported (d : Directive) (k : Key) (keyword : d.keyword = k.keyword) :
    Parsed s (some d)
      (s.putBlock (s.openBlock.set k ((s.openBlock.get k).or (k.usable d.values))))
  | unsupported (d : Directive) (other : d.keyword ≠ "host".toList)
      (keyless : ∀ k : Key, d.keyword ≠ k.keyword) (u : List UnsupportedSshDirective) :
    Parsed s (some d) { s with unsupportedDirectives := u }

lemma parseLine_parsed {s s' : ParseState} {numbered : List Char × Nat}
    (parsed : parseLine s numbered = .ok s') :
    ∃ line, readDirective numbered.1 = .ok line ∧ Parsed s line s' := by
  obtain ⟨line, read, rest⟩ := bind_eq_ok.mp parsed
  refine ⟨line, read, ?_⟩
  cases line with
  | none =>
    cases rest
    exact .blank
  | some d =>
    dsimp only at rest
    by_cases host : d.keyword = "host".toList
    · rw [if_pos host] at rest
      cases rest
      exact .host d host
    · rw [if_neg host] at rest
      obtain ⟨result, applied, rest⟩ := bind_eq_ok.mp rest
      cases result with
      | none =>
        cases rest
        exact .unsupported d host (HostBlock.not_applied applied) _
      | some block =>
        cases rest
        obtain ⟨k, keyword, rfl⟩ := HostBlock.applied_eq applied
        exact .supported d k keyword

/-- The first value that the blocks have for an alias. -/
def lookup (k : Key) (hostAlias : Token) (blocks : List HostBlock) : Option k.Value :=
  blocks.findSome? (fun block => if block.admits hostAlias then block.get k else none)

variable (k : Key) (hostAlias : Token) (block : HostBlock) (blocks : List HostBlock)

lemma lookup_cons :
    lookup k hostAlias (block :: blocks) =
      (if block.admits hostAlias then block.get k else none).or (lookup k hostAlias blocks) := by
  rw [lookup, findSome?_cons]
  cases if block.admits hostAlias then block.get k else none <;> rfl

lemma lookup_append (front back : List HostBlock) :
    lookup k hostAlias (front ++ back) = (lookup k hostAlias front).or (lookup k hostAlias back) :=
  findSome?_append

lemma lookup_single :
    lookup k hostAlias [block] = if block.admits hostAlias then block.get k else none := by
  rw [lookup_cons]
  exact or_none

lemma lookup_blank (patterns : List Token) : lookup k hostAlias [{ patterns }] = none := by
  have blank : HostBlock.get { patterns } k = none := by cases k <;> rfl
  rw [lookup_single, blank, ite_self]

lemma get_resolve (hostAlias : Token) :
    (resolve blocks hostAlias).get k = lookup k hostAlias blocks := by
  have step : ∀ resolved : HostBlock, (blocks.foldl (fun resolved block =>
      if block.admits hostAlias then resolved.inherit block else resolved) resolved).get k =
        (resolved.get k).or (lookup k hostAlias blocks) := by
    induction blocks with
    | nil => exact fun resolved => or_none.symm
    | cons block blocks ih =>
      intro resolved
      rw [foldl_cons, ih, lookup_cons]
      by_cases admitted : block.admits hostAlias = true
      · rw [if_pos admitted, if_pos admitted, HostBlock.get_inherit, Option.or_assoc]
      · rw [if_neg admitted, if_neg admitted, none_or]
  exact (step {}).trans (by cases k <;> rfl)

/-- The patterns of the last `Host` line, if there is one, whether a `Match` line has
come since, and the directive. -/
structure Placed where
  block : Option (List Token)
  inMatch : Bool
  directive : Directive

def place : Option (List Token) → Bool → List Directive → List Placed
  | _, _, [] => []
  | block, inMatch, d :: rest =>
    if d.keyword = "host".toList then place (some d.values) false rest
    else if d.keyword = "match".toList then place block true rest
    else ⟨block, inMatch, d⟩ :: place block inMatch rest

def directives (lines : List (List Char)) : List Directive :=
  lines.filterMap (fun line => (readDirective line).toOption.join)

def placements (content : List Char) : List Placed :=
  place none false (directives (Text.lines content))

/-- The lines before every `Host` line apply to every alias. -/
def AppliesTo (hostAlias : Token) : Option (List Token) → Prop
  | none => True
  | some patterns => Admits patterns hostAlias

instance (hostAlias : Token) (block : Option (List Token)) :
    Decidable (AppliesTo hostAlias block) :=
  match block with
  | none => inferInstanceAs (Decidable True)
  | some patterns => inferInstanceAs (Decidable (Admits patterns hostAlias))

/-- The usable value of the key that a directive has for an alias. -/
def Placed.value (k : Key) (hostAlias : Token) (p : Placed) : Option k.Value :=
  if AppliesTo hostAlias p.block ∧ p.directive.keyword = k.keyword
  then k.usable p.directive.values else none

/-- The first value, where `Match` lines end a section as `Host` lines do. -/
def firstObtained (k : Key) (hostAlias : Token) (content : List Char) : Option k.Value :=
  (placements content).findSome? (fun p => if p.inMatch then none else p.value k hostAlias)

/-- The first value, where `Match` lines end no section, and whether it is inside
a `Match` section. -/
def firstAttributed (k : Key) (hostAlias : Token) (content : List Char) : Option (Bool × k.Value) :=
  (placements content).findSome? (fun p => (p.value k hostAlias).map (p.inMatch, ·))

namespace ParseState

variable {s s' : ParseState} {k : Key} {hostAlias : Token}

/-- The block before the `Host` lines admits every alias and is the only one at first. -/
structure Open (s : ParseState) : Prop where
  global : s.globalBlock.patterns = [['*']]
  empty : s.currentBlock = none → s.blocks = []

def patterns (s : ParseState) : Option (List Token) :=
  s.currentBlock.map HostBlock.patterns

def value (s : ParseState) (k : Key) (hostAlias : Token) : Option k.Value :=
  lookup k hostAlias (s.globalBlock :: s.closeBlock)

lemma Open.admits (o : Open s) (hostAlias : Token) : s.globalBlock.admits hostAlias = true := by
  rw [HostBlock.admits, o.global, admits_iff]
  constructor
  · refine ⟨['*'], mem_singleton_self _, rfl, ?_⟩
    exact matches_single.mpr (.inl rfl)
  · intro p member negated
    rw [mem_singleton.mp member] at negated
    cases negated

lemma openBlock_admits (o : Open s) (hostAlias : Token) :
    s.openBlock.admits hostAlias = true ↔ AppliesTo hostAlias s.patterns := by
  rw [openBlock, patterns]
  cases s.currentBlock with
  | none => exact iff_of_true (o.admits hostAlias) trivial
  | some block => exact admits_iff

lemma value_eq (o : Open s) : s.value k hostAlias =
    (lookup k hostAlias (s.currentBlock.elim [] (fun _ => s.globalBlock :: s.blocks))).or
      (if AppliesTo hostAlias s.patterns then s.openBlock.get k else none) := by
  have applies := openBlock_admits o hostAlias
  simp only [← applies]
  rw [← lookup_single, ← lookup_append, value, closeBlock, openBlock]
  cases current : s.currentBlock with
  | none =>
    rw [o.empty current]
    rfl
  | some block => rfl

/-- A value goes behind those that the state has already. -/
lemma value_putBlock (o : Open s) {block : HostBlock} {u : Option k.Value}
    (same : block.patterns = s.openBlock.patterns) (got : block.get k = (s.openBlock.get k).or u) :
    Open (s.putBlock block) ∧ (s.putBlock block).patterns = s.patterns ∧
      ∀ hostAlias, (s.putBlock block).value k hostAlias =
        (s.value k hostAlias).or (if AppliesTo hostAlias s.patterns then u else none) := by
  have o' : Open (s.putBlock block) := by
    rw [putBlock]
    cases current : s.currentBlock with
    | none =>
      rw [openBlock, current] at same
      exact ⟨same.trans o.global, fun _ => o.empty current⟩
    | some b => exact ⟨o.global, nofun⟩
  have patterns' : (s.putBlock block).patterns = s.patterns := by
    rw [putBlock, patterns, patterns]
    cases current : s.currentBlock with
    | none => rfl
    | some b =>
      rw [openBlock, current] at same
      exact congrArg some same
  have before : (s.putBlock block).currentBlock.elim [] (fun _ =>
      (s.putBlock block).globalBlock :: (s.putBlock block).blocks) =
        s.currentBlock.elim [] (fun _ => s.globalBlock :: s.blocks) := by
    rw [putBlock]
    cases current : s.currentBlock with
    | none => simp
    | some b => rfl
  have opened : (s.putBlock block).openBlock = block := by
    rw [putBlock, openBlock]
    cases current : s.currentBlock with
    | none => simp
    | some b => rfl
  refine ⟨o', patterns', fun hostAlias => ?_⟩
  rw [value_eq o', value_eq o, before, opened, patterns', got, Option.or_assoc]
  by_cases applies : AppliesTo hostAlias s.patterns
  · rw [if_pos applies, if_pos applies, if_pos applies]
  · rw [if_neg applies, if_neg applies, if_neg applies, or_none, or_none, or_none]

/-- The value of one directive for an alias, in the block that is open. -/
def contribution (s : ParseState) (k : Key) (hostAlias : Token) (d : Directive) :
    Option k.Value :=
  Placed.value k hostAlias ⟨s.patterns, false, d⟩

lemma contribution_none {d : Directive} (other : d.keyword ≠ k.keyword) :
    s.contribution k hostAlias d = none :=
  if_neg (fun both => other both.2)

/-- The patterns of the block that is open after a line. -/
def patternsAfter (s : ParseState) : Option Directive → Option (List Token)
  | some d => if d.keyword = "host".toList then some d.values else s.patterns
  | none => s.patterns

lemma Open.parsed (o : Open s) {line : Option Directive} (parsed : Parsed s line s') :
    Open s' ∧ s'.patterns = s.patternsAfter line ∧
      ∀ (k : Key) (hostAlias : Token), s'.value k hostAlias =
        (s.value k hostAlias).or (line.bind (s.contribution k hostAlias)) := by
  cases parsed with
  | blank => exact ⟨o, rfl, fun k hostAlias => or_none.symm⟩
  | host d keyword =>
    refine ⟨⟨o.global, nofun⟩, (if_pos keyword).symm, fun k hostAlias => ?_⟩
    have other : d.keyword ≠ k.keyword := keyword ▸ k.keyword_ne_host.symm
    rw [bind_some, contribution_none other, ← lookup_blank k hostAlias d.values, value, value,
      ← lookup_append]
    rfl
  | supported d k keyword =>
    have same := s.openBlock.patterns_set ((s.openBlock.get k).or (k.usable d.values))
    have other : d.keyword ≠ "host".toList := keyword ▸ k.keyword_ne_host
    have got : ∀ k' : Key, (s.openBlock.set k ((s.openBlock.get k).or (k.usable d.values))).get k' =
        (s.openBlock.get k').or (if d.keyword = k'.keyword then k'.usable d.values else none) := by
      intro k'
      by_cases here : k = k'
      · subst here
        rw [HostBlock.get_set, if_pos keyword]
      · have differ : d.keyword ≠ k'.keyword :=
          fun same => here (Key.keyword_injective (keyword.symm.trans same))
        rw [HostBlock.get_set_ne here, if_neg differ, or_none]
    obtain ⟨o', patterns', -⟩ := value_putBlock o same (got k)
    refine ⟨o', patterns'.trans (if_neg other).symm, fun k' hostAlias => ?_⟩
    obtain ⟨-, -, added⟩ := value_putBlock o same (got k')
    rw [added, bind_some, contribution, Placed.value, ite_and]
  | unsupported d other keyless u =>
    refine ⟨⟨o.global, o.empty⟩, (if_neg other).symm, fun k hostAlias => ?_⟩
    rw [bind_some, contribution_none (keyless k), or_none]
    rfl

/-- The state after all lines has the first value of the placed directives. -/
lemma Open.run (o : Open s) (inMatch : Bool) {numbered : List (List Char × Nat)}
    (ran : numbered.foldlM parseLine s = .ok s') (k : Key) (hostAlias : Token) :
    s'.value k hostAlias = (s.value k hostAlias).or
      ((place s.patterns inMatch (directives (numbered.map Prod.fst))).findSome?
        (Placed.value k hostAlias)) := by
  induction numbered generalizing s inMatch with
  | nil =>
    cases ran
    exact or_none.symm
  | cons line rest ih =>
    rw [foldlM_cons] at ran
    obtain ⟨s₁, first, ran⟩ := bind_eq_ok.mp ran
    obtain ⟨found, read, parsed⟩ := parseLine_parsed first
    obtain ⟨o₁, patterns₁, value₁⟩ := o.parsed parsed
    have shape : directives ((line :: rest).map Prod.fst) =
        found.toList ++ directives (rest.map Prod.fst) := by
      rw [map_cons, directives, filterMap_cons, read]
      cases found <;> rfl
    rw [shape]
    cases found with
    | none =>
      rw [ih o₁ inMatch ran, value₁, patterns₁, bind_none, or_none]
      rfl
    | some d =>
      rw [toList_some, singleton_append, place]
      simp only [bind_some] at value₁
      by_cases host : d.keyword = "host".toList
      · rw [patternsAfter, if_pos host] at patterns₁
        rw [if_pos host, ih o₁ false ran, value₁, patterns₁,
          contribution_none (host ▸ k.keyword_ne_host.symm), or_none]
      rw [patternsAfter, if_neg host] at patterns₁
      rw [if_neg host]
      by_cases section_ : d.keyword = "match".toList
      · rw [if_pos section_, ih o₁ true ran, value₁, patterns₁,
          contribution_none (section_ ▸ k.keyword_ne_match.symm), or_none]
      · have here : Placed.value k hostAlias ⟨s.patterns, inMatch, d⟩ =
            s.contribution k hostAlias d := rfl
        rw [if_neg section_, ih o₁ inMatch ran, value₁, patterns₁, findSome?_cons, here,
          Option.or_assoc]
        cases s.contribution k hostAlias d <;> rfl

end ParseState

/-- The draft has the first obtained values, or the defaults. -/
structure FirstObtained (defaultSshUser : Token) (content : List Char)
    (draft : SshConfigConnectionDraft) : Prop where
  host : draft.host = (firstObtained .hostName draft.name content).getD draft.name
  user : draft.user = (firstObtained .user draft.name content).getD defaultSshUser
  port : draft.port = firstObtained .port draft.name content
  keyPath : draft.keyPath = firstObtained .identityFile draft.name content
  proxyJump : draft.proxyJump = firstObtained .proxyJump draft.name content

/-- The first value of the key, when it stands in a `Match` section, is the one that
is obtained anyway. -/
def Unshadowed {field : Type} (k : Key) (hostAlias : Token) (content : List Char)
    (finish : Option k.Value → field) : Prop :=
  ∀ v, firstAttributed k hostAlias content = some (true, v) →
    finish (some v) = finish (firstObtained k hostAlias content)

structure NoneShadowed (defaultSshUser : Token) (content : List Char) (hostAlias : Token) : Prop where
  host : Unshadowed .hostName hostAlias content (·.getD hostAlias)
  user : Unshadowed .user hostAlias content (·.getD defaultSshUser)
  port : Unshadowed .port hostAlias content id
  keyPath : Unshadowed .identityFile hostAlias content id
  proxyJump : Unshadowed .proxyJump hostAlias content id

section Drafts
variable {k : Key} {hostAlias : Token} {content : List Char}

/-- The first value with its mark is the first value, and is the first unmarked value
when it has no mark. -/
lemma first_marked {β : Type} (f : Placed → Option β) (l : List Placed) :
    match l.findSome? (fun p => (f p).map (p.inMatch, ·)) with
    | none => l.findSome? f = none ∧
        l.findSome? (fun p => if p.inMatch then none else f p) = none
    | some (true, v) => l.findSome? f = some v
    | some (false, v) => l.findSome? f = some v ∧
        l.findSome? (fun p => if p.inMatch then none else f p) = some v := by
  induction l with
  | nil => exact ⟨rfl, rfl⟩
  | cons p l ih =>
    rw [findSome?_cons, findSome?_cons, findSome?_cons]
    cases value : f p with
    | none =>
      rw [ite_self]
      exact ih
    | some v =>
      cases mark : p.inMatch with
      | true => exact rfl
      | false => exact ⟨rfl, rfl⟩

/-- The value that the blocks give is the obtained one, unless it is shadowed. -/
lemma attributed_iff {field : Type} (k : Key) (hostAlias : Token) (content : List Char)
    (finish : Option k.Value → field) :
    finish ((placements content).findSome? (Placed.value k hostAlias)) =
      finish (firstObtained k hostAlias content) ↔ Unshadowed k hostAlias content finish := by
  have marked := first_marked (Placed.value k hostAlias) (placements content)
  rw [Unshadowed, firstAttributed]
  generalize (placements content).findSome?
    (fun p => (p.value k hostAlias).map (p.inMatch, ·)) = first at marked ⊢
  rw [← firstObtained] at marked
  cases first with
  | none =>
    rw [marked.1, marked.2]
    exact iff_of_true rfl nofun
  | some both =>
    obtain ⟨mark, v⟩ := both
    cases mark with
    | true =>
      rw [marked]
      constructor
      · rintro same _ ⟨⟩
        exact same
      · exact fun unshadowed => unshadowed v rfl
    | false =>
      rw [marked.1, marked.2]
      exact iff_of_true rfl nofun

lemma exists_resolved {defaultSshUser : Token} {folderId : Option (List Char)}
    {preview : SshConfigImportPreview}
    (parsed : parseSshConfigText defaultSshUser content folderId = .ok preview)
    {draft : SshConfigConnectionDraft} (member : draft ∈ preview.drafts) :
    ∃ resolved : HostBlock, (∀ k, resolved.get k =
        (placements content).findSome? (Placed.value k draft.name)) ∧
      draft.host = resolved.hostName.getD draft.name ∧
      draft.user = resolved.user.getD defaultSshUser ∧ draft.port = resolved.port ∧
      draft.keyPath = resolved.keyPath ∧ draft.proxyJump = resolved.proxyJump := by
  obtain ⟨folder, -, parsed⟩ := bind_eq_ok.mp parsed
  obtain ⟨s, ran, done⟩ := bind_eq_ok.mp parsed
  cases done
  obtain ⟨hostAlias, -, rfl⟩ := mem_map.mp member
  refine ⟨resolve (s.globalBlock :: s.closeBlock) hostAlias, fun k => ?_, rfl, rfl, rfl, rfl, rfl⟩
  have fresh : ParseState.Open {} := ⟨rfl, fun _ => rfl⟩
  have value := fresh.run false ran k hostAlias
  have empty : ParseState.value {} k hostAlias = none := lookup_blank k hostAlias [['*']]
  rw [empty, none_or, zipIdx_map_fst] at value
  exact (get_resolve k _ hostAlias).trans value

end Drafts

/-- In the drafts of an accepted text every value is the first obtained one, exactly
when no other value of a `Match` section comes first. -/
theorem drafts_first_obtained (defaultSshUser : Token) (content : List Char)
    (folderId : Option (List Char)) (preview : SshConfigImportPreview)
    (parsed : parseSshConfigText defaultSshUser content folderId = .ok preview) :
    ∀ draft ∈ preview.drafts, FirstObtained defaultSshUser content draft ↔
      NoneShadowed defaultSshUser content draft.name := by
  intro draft member
  obtain ⟨resolved, got, host, user, port, keyPath, proxyJump⟩ := exists_resolved parsed member
  have host_iff := attributed_iff .hostName draft.name content (·.getD draft.name)
  have user_iff := attributed_iff .user draft.name content (·.getD defaultSshUser)
  have port_iff := attributed_iff .port draft.name content id
  have keyPath_iff := attributed_iff .identityFile draft.name content id
  have proxyJump_iff := attributed_iff .proxyJump draft.name content id
  rw [← got] at host_iff user_iff port_iff keyPath_iff proxyJump_iff
  constructor
  · intro obtained
    exact ⟨host_iff.mp (host.symm.trans obtained.host), user_iff.mp (user.symm.trans obtained.user),
      port_iff.mp (port.symm.trans obtained.port),
      keyPath_iff.mp (keyPath.symm.trans obtained.keyPath),
      proxyJump_iff.mp (proxyJump.symm.trans obtained.proxyJump)⟩
  · intro unshadowed
    exact ⟨host.trans (host_iff.mpr unshadowed.host), user.trans (user_iff.mpr unshadowed.user),
      port.trans (port_iff.mpr unshadowed.port),
      keyPath.trans (keyPath_iff.mpr unshadowed.keyPath),
      proxyJump.trans (proxyJump_iff.mpr unshadowed.proxyJump)⟩

def plainConfig : List Char :=
  "Host a\nHostName = 'a.example' # quoted\nHost *\nPort 22".toList

theorem plainConfig_first_obtained :
    ∃ preview, parseSshConfigText "local".toList plainConfig none = .ok preview ∧
      ∀ draft ∈ preview.drafts, FirstObtained "local".toList plainConfig draft ↔
        NoneShadowed "local".toList plainConfig draft.name :=
  ⟨_, rfl, drafts_first_obtained "local".toList plainConfig none _ rfl⟩

def matchConfig : List Char :=
  "Host a\nMatch host b\nUser x".toList

/-- The user of the `Match` section goes to the host before it. -/
theorem match_user_attributed :
    ∃ preview, parseSshConfigText "local".toList matchConfig none = .ok preview ∧
      ∃ draft ∈ preview.drafts, draft.user = ['x'] ∧
        firstObtained .user draft.name matchConfig = none ∧
        ¬ FirstObtained "local".toList matchConfig draft := by
  have none_obtained : firstObtained .user ['a'] matchConfig = none := by decide +kernel
  refine ⟨_, rfl, _, mem_singleton_self _, rfl, none_obtained, fun obtained => ?_⟩
  have user : ['x'] = (firstObtained .user ['a'] matchConfig).getD "local".toList := obtained.user
  rw [none_obtained] at user
  cases user

end Ssh
