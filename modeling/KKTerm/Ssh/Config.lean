import KKTerm.Library.Fallible
import KKTerm.Library.Glob
import KKTerm.Library.Text

/-!
# The importer of SSH configurations

The lines are folded into one block for each `Host` line and one for the lines
before; an alias takes each value from the first block that matches it and has
one.
-/

namespace Ssh

open Fallible Text

abbrev Token := List Char

structure HostBlock where
  patterns : List Token := []
  hostName : Option Token := none
  user : Option Token := none
  port : Option Nat := none
  keyPath : Option Token := none
  proxyJump : Option Token := none

structure SshConfigConnectionDraft where
  name : Token
  host : Token
  user : Token
  connectionType : String
  folderId : Option (List Char)
  port : Option Nat
  keyPath : Option Token
  proxyJump : Option Token
  deriving DecidableEq

structure UnsupportedSshDirective where
  line : Nat
  hostPattern : Option (List Char)
  directive : Token
  value : List Char
  deriving DecidableEq

structure SshConfigImportPreview where
  drafts : List SshConfigConnectionDraft
  unsupportedDirectives : List UnsupportedSshDirective
  deriving DecidableEq

/-- The text before a comment, which begins with a `#` behind white space. -/
def stripInlineComment : Option Char → Bool → List Char → List Char
  | _, _, [] => []
  | some quote, previousWasWhitespace, c :: rest =>
    if c = quote then c :: stripInlineComment none previousWasWhitespace rest
    else c :: stripInlineComment (some quote) (isWhitespace c) rest
  | none, previousWasWhitespace, c :: rest =>
    if c = '"' ∨ c = '\'' then c :: stripInlineComment (some c) previousWasWhitespace rest
    else if c = '#' ∧ previousWasWhitespace then []
    else c :: stripInlineComment none (isWhitespace c) rest

/-- The collected tokens, with the current one if it has any characters. -/
def pushToken (tokens : List Token) (current : Token) : List Token :=
  if current = [] then tokens else tokens ++ [current]

def splitTokens : Option Char → List Token → Token → List Char → Except String (List Token)
  | some _, _, _, [] => .error "SSH config line contains an unterminated quote"
  | none, tokens, current, [] => .ok (pushToken tokens current)
  | some quote, tokens, current, c :: rest =>
    if c = quote then splitTokens none tokens current rest
    else splitTokens (some quote) tokens (current ++ [c]) rest
  | none, tokens, current, c :: rest =>
    if c = '"' ∨ c = '\'' then splitTokens (some c) tokens current rest
    -- An equals sign separates the first token only.
    else if (c = '=' ∧ tokens = []) ∨ isWhitespace c then
      splitTokens none (pushToken tokens current) [] rest
    else splitTokens none tokens (current ++ [c]) rest

def splitConfigLine (line : List Char) : Except String (List Token) :=
  splitTokens none [] [] line

/-- The name of a directive and its values. -/
structure Directive where
  name : Token
  values : List Token

def Directive.keyword (d : Directive) : Token :=
  asciiLower d.name

def readDirective (rawLine : List Char) : Except String (Option Directive) := do
  let line := trim (stripInlineComment none true rawLine)
  if line = [] then
    return none
  match ← splitConfigLine line with
  | [] => return none
  | name :: values => return some ⟨name, values⟩

def firstValue (values : List Token) : Option Token :=
  (values.head?.map trim).filter (fun value => value ≠ [])

def parsePort (value : Token) (lineNumber : Nat) : Except String Nat :=
  match parseUnsigned 65535 value with
  | some port => .ok port
  | none => .error ("SSH config line " ++ toString lineNumber ++ " has an invalid port")

def setFirst (slot : Option Token) (values : List Token) : Option Token :=
  if slot.isNone then firstValue values else slot

/-- An unreadable port is an error only while the block has none. -/
def setPort (slot : Option Nat) (values : List Token) (lineNumber : Nat) :
    Except String (Option Nat) :=
  match slot with
  | some port => .ok (some port)
  | none =>
    match values.head? with
    | some value => (parsePort value lineNumber).map some
    | none => .ok none

/-- The block with the directive applied, or none for other directives. -/
def applySupportedDirective (block : HostBlock) (directive : Token) (values : List Token)
    (lineNumber : Nat) : Except String (Option HostBlock) :=
  if directive = "hostname".toList then
    .ok (some { block with hostName := setFirst block.hostName values })
  else if directive = "user".toList then
    .ok (some { block with user := setFirst block.user values })
  else if directive = "identityfile".toList then
    .ok (some { block with keyPath := setFirst block.keyPath values })
  else if directive = "proxyjump".toList then
    .ok (some { block with proxyJump := setFirst block.proxyJump values })
  else if directive = "port".toList then
    (setPort block.port values lineNumber).map (fun port => some { block with port })
  else .ok none

structure ParseState where
  globalBlock : HostBlock := { patterns := [['*']] }
  blocks : List HostBlock := []
  currentBlock : Option HostBlock := none
  unsupportedDirectives : List UnsupportedSshDirective := []

def ParseState.closeBlock (s : ParseState) : List HostBlock :=
  s.blocks ++ s.currentBlock.toList

def ParseState.openBlock (s : ParseState) : HostBlock :=
  s.currentBlock.getD s.globalBlock

def ParseState.putBlock (s : ParseState) (block : HostBlock) : ParseState :=
  match s.currentBlock with
  | some _ => { s with currentBlock := some block }
  | none => { s with globalBlock := block }

def parseLine (s : ParseState) (numbered : List Char × Nat) : Except String ParseState := do
  match ← readDirective numbered.1 with
  | none => return s
  | some d =>
    if d.keyword = "host".toList then
      return { s with blocks := s.closeBlock, currentBlock := some { patterns := d.values } }
    match ← applySupportedDirective s.openBlock d.keyword d.values numbered.2 with
    | some block => return s.putBlock block
    | none =>
      let unsupported : UnsupportedSshDirective :=
        { line := numbered.2
          hostPattern := s.currentBlock.map (fun block => [' '].intercalate block.patterns)
          directive := d.name
          value := [' '].intercalate d.values }
      return { s with unsupportedDirectives := s.unsupportedDirectives ++ [unsupported] }

def wildcardMatch (pattern value : Token) : Bool :=
  let value := asciiLower value
  (Glob.wildcardRow (asciiLower pattern) value)[value.length]? == some true

/-- Whether the pattern is negated, and what it is without the mark. -/
def stripNegation : Token → Bool × Token
  | '!' :: pattern => (true, pattern)
  | pattern => (false, pattern)

def hostPatternsMatch : Bool → List Token → Token → Bool
  | positiveMatch, [], _ => positiveMatch
  | positiveMatch, rawPattern :: rest, hostAlias =>
    let (negated, pattern) := stripNegation rawPattern
    if wildcardMatch pattern hostAlias then
      if negated then false else hostPatternsMatch true rest hostAlias
    else hostPatternsMatch positiveMatch rest hostAlias

def HostBlock.admits (block : HostBlock) (hostAlias : Token) : Bool :=
  hostPatternsMatch false block.patterns hostAlias

def isImportableHostPattern (pattern : Token) : Bool :=
  !pattern.contains '*' && !pattern.contains '?' && pattern.head? != some '!'

/-- The aliases and what they are seen as. -/
def importableAliases (blocks : List HostBlock) : List Token :=
  (blocks.flatMap (fun block => block.patterns.filter (fun pattern =>
    isImportableHostPattern pattern && block.admits pattern))).foldl
      (fun aliases pattern =>
        if asciiLower pattern ∈ aliases.map asciiLower then aliases
        else aliases ++ [pattern]) []

def HostBlock.inherit (resolved block : HostBlock) : HostBlock where
  patterns := resolved.patterns
  hostName := resolved.hostName.or block.hostName
  user := resolved.user.or block.user
  port := resolved.port.or block.port
  keyPath := resolved.keyPath.or block.keyPath
  proxyJump := resolved.proxyJump.or block.proxyJump

def resolve (blocks : List HostBlock) (hostAlias : Token) : HostBlock :=
  blocks.foldl (fun resolved block =>
    if block.admits hostAlias then resolved.inherit block else resolved) {}

def resolvedDraftForAlias (defaultSshUser hostAlias : Token) (globalBlock : HostBlock)
    (blocks : List HostBlock) (folderId : Option (List Char)) : SshConfigConnectionDraft :=
  let resolved := resolve (globalBlock :: blocks) hostAlias
  { name := hostAlias
    host := resolved.hostName.getD hostAlias
    user := resolved.user.getD defaultSshUser
    connectionType := "ssh"
    folderId
    port := resolved.port
    keyPath := resolved.keyPath
    proxyJump := resolved.proxyJump }

def requiredField (field : String) (value : List Char) : Except String (List Char) :=
  if trim value = [] then .error (field ++ " is required") else .ok (trim value)

def parseSshConfigText (defaultSshUser : Token) (content : List Char)
    (folderId : Option (List Char)) : Except String SshConfigImportPreview := do
  let folderId ← folderId.mapM (requiredField "folder id")
  let s ← ((lines content).zipIdx 1).foldlM parseLine {}
  return {
    drafts := (importableAliases s.closeBlock).map (fun hostAlias =>
      resolvedDraftForAlias defaultSshUser hostAlias s.globalBlock s.closeBlock folderId)
    unsupportedDirectives := s.unsupportedDirectives }

end Ssh
