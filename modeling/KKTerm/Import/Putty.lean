import KKTerm.Import.Draft
import KKTerm.Library.Octets
import KKTerm.Library.Redaction
import KKTerm.Library.Text
import Mathlib.Data.List.Forall2

/-!
# PuTTY sessions

The sessions of PuTTY are keys of the registry, with the escaped name of the session as
the last part of the key. An export has a section for each key and a line for each value.
The export of a list of sessions is written here too, to be read back.
-/

namespace Import.Putty

open Text Nat

structure PuttyValues where
  host : Option (List Char) := none
  port : Option Nat := none
  protocol : Option (List Char) := none
  user : Option (List Char) := none

structure Reader where
  drafts : List ImportedConnectionDraft := []
  warnings : List (List Char) := []
  session : Option (List Char) := none
  values : PuttyValues := {}

def stripQuotes (value : List Char) : Option (List Char) :=
  let trimmed := trim value
  if trimmed.head? = some '"' ∧ trimmed.getLast? = some '"' ∧ 2 ≤ trimmed.length then
    some (Redaction.replace ['\\', '"'] ['"'] trimmed.tail.dropLast)
  else none

/-- A byte as the character of the same number. -/
def latin (b : UInt8) : Char :=
  Char.ofNat b.toNat

def decodePercent (a b c : UInt8) : Option UInt8 :=
  if a = 0x25 then hexByte (latin b) (latin c) else none

def decodeBytes : List UInt8 → List Char
  | [] => []
  | [a] => [latin a]
  | [a, b] => [latin a, latin b]
  | a :: b :: c :: rest =>
    match decodePercent a b c with
    | some decoded => latin decoded :: decodeBytes rest
    | none => latin a :: decodeBytes (b :: c :: rest)

def decodeRegistryName (value : List Char) : List Char :=
  decodeBytes (value.flatMap String.utf8EncodeChar)

/-- The session of a key, which lies under the sessions of PuTTY. -/
def sessionUnder (parent rawName : List Char) : Option (List Char) :=
  if !contains parent "PuTTY".toList && !contains parent "Sessions".toList &&
      !contains parent "SimonTatham".toList then none
  else if !contains parent "Sessions".toList then none
  else some (decodeRegistryName rawName)

def puttySessionName (sectionLine : List Char) : Option (List Char) :=
  let inside := sectionLine.tail.dropLast
  (rsplitOnce '\\' inside).bind (fun parts => sessionUnder parts.1 parts.2)

/-- The type of connection of a protocol, which may be absent. -/
def connectionTypeOf : Option (List Char) → Except (List Char) ConnectionType
  | none => .ok .ssh
  | some protocol =>
    if protocol = "ssh".toList then .ok .ssh
    else if protocol = "telnet".toList then .ok .telnet
    else if protocol = "serial".toList then .ok .serial
    else .error protocol

def finalizePuttySession (r : Reader) : Reader :=
  match r.session with
  | none => { drafts := r.drafts, warnings := r.warnings }
  | some name =>
    let warn (text : List Char) : Reader :=
      { drafts := r.drafts
        warnings := r.warnings ++ ["PuTTY session \"".toList ++ name ++ "\" ".toList ++ text] }
    match r.values.host.filter (fun host => !host.isEmpty) with
    | none => warn "missing HostName".toList
    | some host =>
      match connectionTypeOf r.values.protocol with
      | .error other => warn ("uses unsupported protocol \"".toList ++ other ++ "\"".toList)
      | .ok connectionType =>
        { drafts := r.drafts ++ [{
            name
            host
            user := r.values.user.getD []
            url := none
            port := r.values.port
            keyPath := none
            proxyJump := none
            connectionType
            folderPath := [] }]
          warnings := r.warnings }

/-- The number behind `dword:`, when it is a port. -/
def parsePort (value : List Char) : Option Nat :=
  if "dword:".toList <+: value then
    (parseHex 4294967295 (trim (value.drop 6))).filter (fun n => n ≤ 65535)
  else none

def PuttyValues.assign (values : PuttyValues) (key value : List Char) : PuttyValues :=
  if key = "HostName".toList then { values with host := (stripQuotes value).or values.host }
  else if key = "PortNumber".toList then { values with port := (parsePort value).or values.port }
  else if key = "Protocol".toList then
    { values with protocol := ((stripQuotes value).map asciiLower).or values.protocol }
  else if key = "UserName".toList then { values with user := (stripQuotes value).or values.user }
  else values

/-- A line with a value, inside the section of a session. -/
def readValue (r : Reader) (line : List Char) : Reader :=
  match splitOnce '=' line with
  | none => r
  | some (keyRaw, valueRaw) =>
    match stripQuotes (trim keyRaw) with
    | none => r
    | some key => { r with values := r.values.assign key (trim valueRaw) }

def readLine (r : Reader) (rawLine : List Char) : Reader :=
  let line := trim rawLine
  if line = [] then r
  else if line.head? = some '[' ∧ line.getLast? = some ']' then
    { finalizePuttySession r with session := puttySessionName line }
  else if r.session.isNone then r
  else readValue r line

def parsePuttyReg (text : List Char) : ImportFilePreview :=
  let r := finalizePuttySession ((lines text).foldl readLine {})
  { format := "putty".toList, drafts := r.drafts, warnings := r.warnings }

/-- The control characters of Unicode. -/
def isControl (c : Char) : Bool :=
  let n := c.toNat
  n < 0x20 || (0x7f ≤ n && n < 0xa0)

inductive Protocol where
  | ssh
  | telnet

def Protocol.text : Protocol → List Char
  | .ssh => "ssh".toList
  | .telnet => "telnet".toList

def Protocol.connectionType : Protocol → ConnectionType
  | .ssh => .ssh
  | .telnet => .telnet

structure PuttySession where
  name : List Char
  host : List Char
  user : List Char
  port : Nat
  protocol : Protocol
  named : name ≠ []
  ascii : ∀ c ∈ name, c.toNat < 0x80
  hosted : host ≠ []
  hostText : ∀ c ∈ host, isControl c = false
  userText : ∀ c ∈ user, isControl c = false
  portRange : 1 ≤ port ∧ port ≤ 65535

def upperDigit (d : Nat) : Char :=
  Char.ofNat (if d < 10 then 0x30 + d else 0x37 + d)

/-- The characters that PuTTY escapes in a name; a dot only at its start. -/
def isEscaped (first : Bool) (c : Char) : Bool :=
  c = ' ' || c = '\\' || c = '*' || c = '?' || c = '%' || c.toNat < 0x20 || 0x7e < c.toNat ||
    (c = '.' && first)

def escapeNameChar (first : Bool) (c : Char) : List Char :=
  if isEscaped first c then ['%', upperDigit (c.toNat / 16), upperDigit (c.toNat % 16)] else [c]

def escapeName : List Char → List Char
  | [] => []
  | c :: rest => escapeNameChar true c ++ rest.flatMap (escapeNameChar false)

def escapeValue (value : List Char) : List Char :=
  value.flatMap (fun c => if c = '\\' ∨ c = '"' then ['\\', c] else [c])

def quoted (text : List Char) : List Char :=
  '"' :: (text ++ ['"'])

def dword (n : Nat) : List Char :=
  "dword:".toList ++ [digitChar (n / 268435456 % 16), digitChar (n / 16777216 % 16),
    digitChar (n / 1048576 % 16), digitChar (n / 65536 % 16),
    digitChar (n / 4096 % 16), digitChar (n / 256 % 16), digitChar (n / 16 % 16),
    digitChar (n % 16)]

def sessionsKey : List Char :=
  "HKEY_CURRENT_USER\\Software\\SimonTatham\\PuTTY\\Sessions".toList

def sectionLine (key : List Char) : List Char :=
  '[' :: (key ++ [']'])

def valueLine (key value : List Char) : List Char :=
  quoted key ++ '=' :: value

def PuttySession.lines (s : PuttySession) : List (List Char) :=
  [sectionLine (sessionsKey ++ '\\' :: escapeName s.name),
    valueLine "HostName".toList (quoted (escapeValue s.host)),
    valueLine "PortNumber".toList (dword s.port),
    valueLine "Protocol".toList (quoted s.protocol.text),
    valueLine "UserName".toList (quoted (escapeValue s.user)), []]

def registryExport (sessions : List PuttySession) : List Char :=
  ("Windows Registry Editor Version 5.00".toList :: [] :: sectionLine sessionsKey :: [] ::
    sessions.flatMap PuttySession.lines).flatMap (fun line => line ++ ['\r', '\n'])

end Import.Putty

/-!
# Reading an export of PuTTY sessions back

Every session of the export becomes one draft. Its name comes back whole; of the two
escapes in its texts only that of the quotation mark is undone.
-/

namespace Import.Putty

open List Text Nat

variable (value : List Char) (sessions : List PuttySession) {c : Char} {t name : List Char}

lemma latin_ofNat (ascii : c.toNat < 0x80) : latin (UInt8.ofNat c.toNat) = c := by
  rw [latin, UInt8.toNat_ofNat_of_lt' (lt_trans ascii (by decide)), Char.ofNat_toNat]

variable (text : List Char) (s : PuttySession) (r : Reader) {d n : Nat} {a : UInt8} {first : Bool}

lemma upperDigit_ascii (h : d < 16) : (upperDigit d).toNat < 0x80 := by
  interval_cases d <;> decide

lemma hexByte_upperDigits (h : n < 0x80) :
    hexByte (upperDigit (n / 16)) (upperDigit (n % 16)) = some (UInt8.ofNat n) := by
  interval_cases n <;> rfl

/-- The bytes of an ASCII text. -/
def bytes (t : List Char) : List UInt8 :=
  t.map (fun c => UInt8.ofNat c.toNat)

lemma utf8_ascii (ascii : ∀ c ∈ t, c.toNat < 0x80) :
    t.flatMap String.utf8EncodeChar = bytes t := by
  induction t with
  | nil => rfl
  | cons c t ih =>
    rw [flatMap_cons, Octets.encodeChar_of_ascii (ascii c mem_cons_self),
      ih (fun d member => ascii d (mem_cons_of_mem c member))]
    rfl

lemma decodeBytes_plain (plain : a ≠ 0x25) (rest : List UInt8) :
    decodeBytes (a :: rest) = latin a :: decodeBytes rest := by
  match rest with
  | [] => rfl
  | [_] => rfl
  | b :: c :: rest =>
    have none : decodePercent a b c = none := if_neg plain
    rw [decodeBytes, none]

lemma decodeBytes_percent {b c decoded : UInt8} (h : decodePercent a b c = some decoded)
    (rest : List UInt8) :
    decodeBytes (a :: b :: c :: rest) = latin decoded :: decodeBytes rest := by
  rw [decodeBytes, h]

lemma decode_escapeNameChar (ascii : c.toNat < 0x80) (rest : List UInt8) :
    decodeBytes (bytes (escapeNameChar first c) ++ rest) = c :: decodeBytes rest := by
  by_cases escaped : isEscaped first c = true
  · have high : c.toNat / 16 < 16 := by omega
    have low : c.toNat % 16 < 16 := mod_lt _ (by decide)
    have decoded : decodePercent 0x25 (UInt8.ofNat (upperDigit (c.toNat / 16)).toNat)
        (UInt8.ofNat (upperDigit (c.toNat % 16)).toNat) = some (UInt8.ofNat c.toNat) := by
      rw [decodePercent, if_pos rfl, latin_ofNat (upperDigit_ascii high),
        latin_ofNat (upperDigit_ascii low), hexByte_upperDigits ascii]
    rw [escapeNameChar, if_pos escaped]
    exact (decodeBytes_percent decoded rest).trans (by rw [latin_ofNat ascii])
  · have plain : UInt8.ofNat c.toNat ≠ 0x25 := by
      intro percent
      have back := latin_ofNat ascii
      rw [percent] at back
      apply escaped
      rw [← back]
      rfl
    rw [escapeNameChar, if_neg escaped]
    exact (decodeBytes_plain plain rest).trans (by rw [latin_ofNat ascii])

lemma decode_escapeName (ascii : ∀ c ∈ name, c.toNat < 0x80) :
    decodeBytes (bytes (escapeName name)) = name := by
  have later : ∀ rest : List Char, (∀ c ∈ rest, c.toNat < 0x80) →
      decodeBytes (bytes (rest.flatMap (escapeNameChar false))) = rest := by
    intro rest ascii
    induction rest with
    | nil => rfl
    | cons c rest ih =>
      rw [flatMap_cons, bytes, map_append]
      refine (decode_escapeNameChar (ascii c mem_cons_self) _).trans ?_
      rw [← bytes, ih (fun d member => ascii d (mem_cons_of_mem c member))]
  cases name with
  | nil => rfl
  | cons c rest =>
    rw [escapeName, bytes, map_append]
    refine (decode_escapeNameChar (ascii c mem_cons_self) _).trans ?_
    rw [← bytes, later rest (fun d member => ascii d (mem_cons_of_mem c member))]

/-- A character of an escaped name is visible and no backslash. -/
def IsNameChar (c : Char) : Prop :=
  0x20 < c.toNat ∧ c.toNat < 0x7f ∧ c ≠ '\\'

lemma upperDigit_nameChar (h : d < 16) : IsNameChar (upperDigit d) := by
  unfold IsNameChar
  interval_cases d <;> decide

lemma escapeNameChar_chars {d : Char} (ascii : c.toNat < 0x80)
    (member : d ∈ escapeNameChar first c) : IsNameChar d := by
  unfold escapeNameChar at member
  split at member
  · have high : c.toNat / 16 < 16 := by omega
    have low : c.toNat % 16 < 16 := mod_lt _ (by decide)
    simp only [mem_cons, not_mem_nil, or_false] at member
    rcases member with rfl | rfl | rfl
    · exact ⟨by decide, by decide, by decide⟩
    · exact upperDigit_nameChar high
    · exact upperDigit_nameChar low
  · rename_i plain
    rw [mem_singleton] at member
    subst member
    simp only [isEscaped, Bool.or_eq_true, decide_eq_true_eq, not_or] at plain
    obtain ⟨⟨⟨⟨⟨⟨⟨space, backslash⟩, -⟩, -⟩, -⟩, control⟩, beyond⟩, -⟩ := plain
    refine ⟨?_, by omega, backslash⟩
    have differ : d.toNat ≠ 0x20 := fun same => space (Char.toNat_inj.mp same)
    omega

lemma escapeName_chars (ascii : ∀ c ∈ name, c.toNat < 0x80) {d : Char}
    (member : d ∈ escapeName name) : IsNameChar d := by
  cases name with
  | nil => cases member
  | cons c rest =>
    rcases mem_append.mp member with member | member
    · exact escapeNameChar_chars (ascii c mem_cons_self) member
    · obtain ⟨e, inside, member⟩ := mem_flatMap.mp member
      exact escapeNameChar_chars (ascii e (mem_cons_of_mem c inside)) member

lemma sessionName_sectionLine (ascii : ∀ c ∈ name, c.toNat < 0x80) :
    puttySessionName (sectionLine (sessionsKey ++ '\\' :: escapeName name)) = some name := by
  have fresh : '\\' ∉ escapeName name := fun member => (escapeName_chars ascii member).2.2 rfl
  have inside : (sectionLine (sessionsKey ++ '\\' :: escapeName name)).tail.dropLast =
      sessionsKey ++ '\\' :: escapeName name := dropLast_concat
  have chars : ∀ c ∈ escapeName name, c.toNat < 0x80 := by
    intro c member
    have bound := (escapeName_chars ascii member).2.1
    omega
  have known : sessionUnder sessionsKey (escapeName name) =
      some (decodeRegistryName (escapeName name)) := rfl
  rw [puttySessionName, inside, rsplitOnce_append fresh]
  rw [decodeRegistryName, utf8_ascii chars, decode_escapeName ascii] at known
  exact known

/-- What is left of the escapes of a value: every backslash is doubled. -/
def doubled (value : List Char) : List Char :=
  value.flatMap (fun c => if c = '\\' then ['\\', '\\'] else [c])

lemma length_doubled : (doubled value).length = value.length + value.count '\\' := by
  induction value with
  | nil => rfl
  | cons c value ih =>
    rw [doubled, flatMap_cons, length_append, ← doubled, ih]
    by_cases backslash : c = '\\'
    · rw [if_pos backslash, backslash, count_cons_self, length_cons]
      simp only [length_cons, length_nil]
      omega
    · rw [if_neg backslash, count_cons_of_ne backslash, length_cons]
      simp only [length_cons, length_nil]
      omega

lemma doubled_eq_self {value : List Char} : doubled value = value ↔ '\\' ∉ value := by
  constructor
  · intro same
    have size := length_doubled value
    rw [same] at size
    exact count_eq_zero.mp (by omega)
  · intro free
    induction value with
    | nil => rfl
    | cons c value ih =>
      have other : c ≠ '\\' := fun same => free (same ▸ mem_cons_self)
      rw [doubled, flatMap_cons, if_neg other, ← doubled,
        ih (fun member => free (mem_cons_of_mem c member))]
      rfl

lemma doubled_eq_nil {value : List Char} : doubled value = [] ↔ value = [] := by
  constructor
  · intro empty
    have size := length_doubled value
    rw [empty, length_nil] at size
    exact eq_nil_of_length_eq_zero (by omega)
  · rintro rfl
    rfl

lemma escapeValue_head : (escapeValue value).head? ≠ some '"' := by
  cases value with
  | nil => exact nofun
  | cons c rest =>
    rw [escapeValue, flatMap_cons]
    by_cases special : c = '\\' ∨ c = '"'
    · rw [if_pos special]
      intro same
      cases same
    · rw [if_neg special]
      intro same
      exact special (Or.inr (Option.some.inj same))

lemma replace_escapeValue :
    Redaction.replace ['\\', '"'] ['"'] (escapeValue value) = doubled value := by
  induction value with
  | nil => rfl
  | cons c rest ih =>
    rw [escapeValue, flatMap_cons, ← escapeValue, doubled, flatMap_cons, ← doubled, ← ih]
    by_cases backslash : c = '\\'
    · have first : ¬ ['\\', '"'] <+: '\\' :: '\\' :: escapeValue rest := by
        rintro ⟨back, cut⟩
        cases cut
      have second : ¬ ['\\', '"'] <+: '\\' :: escapeValue rest := by
        rintro ⟨back, cut⟩
        obtain ⟨-, cut⟩ := List.cons.inj cut
        apply escapeValue_head rest
        rw [← cut]
        rfl
      rw [if_pos (Or.inl backslash), if_pos backslash, backslash]
      exact (Redaction.replace_cons first).trans
        (congrArg ('\\' :: ·) (Redaction.replace_cons second))
    · rw [if_neg backslash]
      by_cases quote : c = '"'
      · rw [if_pos (Or.inr quote), quote]
        have nonempty : ['\\', '"'] ≠ [] := cons_ne_nil _ _
        exact Redaction.replace_append nonempty (escapeValue rest)
      · have other : ¬ ['\\', '"'] <+: c :: escapeValue rest := by
          rintro ⟨back, cut⟩
          exact backslash (List.cons.inj cut).1.symm
        rw [if_neg (fun special => special.elim backslash quote)]
        exact Redaction.replace_cons other

lemma trim_quoted : trim (quoted text) = quoted text :=
  trim_enclosed rfl rfl

lemma stripQuotes_quoted :
    stripQuotes (quoted text) = some (Redaction.replace ['\\', '"'] ['"'] text) := by
  have last : (quoted text).getLast? = some '"' := by rw [quoted, ← cons_append, getLast?_concat]
  have long : 2 ≤ (quoted text).length := by
    rw [quoted, length_cons, length_append, length_singleton]
    omega
  have inside : (quoted text).tail.dropLast = text := dropLast_concat
  rw [stripQuotes, trim_quoted, if_pos ⟨rfl, last, long⟩, inside]

lemma stripQuotes_escaped : stripQuotes (quoted (escapeValue value)) = some (doubled value) := by
  rw [stripQuotes_quoted, replace_escapeValue]

lemma stripQuotes_plain {text : List Char} (plain : '"' ∉ text) :
    stripQuotes (quoted text) = some text := by
  have absent : ¬ ['\\', '"'] <:+: text := fun h =>
    plain (h.subset (mem_cons_of_mem _ mem_cons_self))
  rw [stripQuotes_quoted, Redaction.replace_of_absent absent]

lemma digitChar_dark (h : d < 16) : isWhitespace (digitChar d) = false := by
  interval_cases d <;> rfl

lemma parsePort_dword (h : n ≤ 65535) : parsePort (dword n) = some n := by
  have digit : ∀ m, hexDigit (digitChar (m % 16)) = some (m % 16) := fun m =>
    hexDigit_digitChar (mod_lt m (by decide))
  have dark : ∀ m, isWhitespace (digitChar (m % 16)) = false := fun m =>
    digitChar_dark (mod_lt m (by decide))
  let low := [digitChar (n / 4096 % 16), digitChar (n / 256 % 16),
    digitChar (n / 16 % 16), digitChar (n % 16)]
  have shape : dword n = "dword:".toList ++ '0' :: '0' :: '0' :: '0' :: low := by
    have zero : n / 268435456 = 0 ∧ n / 16777216 = 0 ∧ n / 1048576 = 0 ∧ n / 65536 = 0 := by omega
    rw [dword, zero.1, zero.2.1, zero.2.2.1, zero.2.2.2]
    rfl
  have trimmed : trim ('0' :: '0' :: '0' :: '0' :: low) = '0' :: '0' :: '0' :: '0' :: low := by
    apply trim_of_dark
    simp only [low, mem_cons, not_mem_nil, or_false]
    rintro c (rfl | rfl | rfl | rfl | rfl | rfl | rfl | rfl) <;> first | rfl | exact dark _
  have value : hexDigits 0 ('0' :: '0' :: '0' :: '0' :: low) = some n := by
    have zero : hexDigit '0' = some 0 := rfl
    simp only [low, hexDigits, zero, digit, Option.bind_some, Option.some.injEq]
    omega
  rw [parsePort, shape, if_pos (prefix_append _ _)]
  have behind : ("dword:".toList ++ '0' :: '0' :: '0' :: '0' :: low).drop 6 =
      '0' :: '0' :: '0' :: '0' :: low := rfl
  rw [behind, trimmed, parseHex]
  · rw [if_neg (by simp), value, Option.filter_some, if_pos (by simp; omega), Option.filter_some,
      if_pos (by simpa using h)]
  · rintro rest ⟨⟩

def PuttySession.imported (s : PuttySession) : ImportedConnectionDraft where
  name := s.name
  host := doubled s.host
  user := doubled s.user
  url := none
  port := some s.port
  keyPath := none
  proxyJump := none
  connectionType := s.protocol.connectionType
  folderPath := []

def PuttySession.values (s : PuttySession) : PuttyValues where
  host := some (doubled s.host)
  port := some s.port
  protocol := some s.protocol.text
  user := some (doubled s.user)

lemma finalize_session (drafts : List ImportedConnectionDraft) (warnings : List (List Char)) :
    finalizePuttySession { drafts, warnings, session := some s.name, values := s.values } =
      { drafts := drafts ++ [s.imported], warnings } := by
  have hosted : (some (doubled s.host)).filter (fun host => !host.isEmpty) =
      some (doubled s.host) := by
    have nonempty : doubled s.host ≠ [] := fun empty => s.hosted (doubled_eq_nil.mp empty)
    rw [Option.filter_some, if_pos]
    rw [isEmpty_eq_false_iff.mpr nonempty]
    rfl
  have type : connectionTypeOf (some s.protocol.text) = .ok s.protocol.connectionType := by
    cases s.protocol <;> rfl
  simp only [finalizePuttySession, PuttySession.values, hosted, type]
  rfl

lemma readLine_section (key : List Char) :
    readLine r (sectionLine key) =
      { finalizePuttySession r with session := puttySessionName (sectionLine key) } := by
  have trimmed : trim (sectionLine key) = sectionLine key := trim_enclosed rfl rfl
  have last : (sectionLine key).getLast? = some ']' := by
    rw [sectionLine, ← cons_append, getLast?_concat]
  rw [readLine, trimmed, if_neg (by simp [sectionLine]), if_pos ⟨rfl, last⟩]

lemma readLine_empty : readLine r [] = r :=
  rfl

/-- A line with a value whose ends are visible assigns that value. -/
lemma readLine_value {r : Reader} (inside : r.session.isNone = false) {key value : List Char}
    (plain : '"' ∉ key) (one : '=' ∉ key) {front : List Char} {last : Char}
    (shape : value = front ++ [last]) (visible : isWhitespace last = false)
    (trimmed : trim value = value) :
    readLine r (valueLine key value) = { r with values := r.values.assign key value } := by
  have line : trim (valueLine key value) = valueLine key value := by
    have ends : valueLine key value = '"' :: ((key ++ '"' :: '=' :: front) ++ [last]) := by
      simp [valueLine, quoted, shape]
    rw [ends]
    exact trim_enclosed rfl visible
  have fresh : '=' ∉ quoted key := by simp [quoted, one]
  rw [readLine, line, if_neg (by simp [valueLine, quoted]), if_neg (by simp [valueLine, quoted]),
    if_neg (by simp [inside]), readValue, valueLine, splitOnce_append fresh]
  simp only [trim_quoted, stripQuotes_plain plain, trimmed]

lemma readLine_quoted {r : Reader} (inside : r.session.isNone = false) (key : List Char)
    (plain : '"' ∉ key) (one : '=' ∉ key) (text : List Char) :
    readLine r (valueLine key (quoted text)) =
      { r with values := r.values.assign key (quoted text) } :=
  have shape : quoted text = ('"' :: text) ++ ['"'] := rfl
  readLine_value inside plain one shape rfl (trim_quoted text)

lemma readLine_dword {r : Reader} (inside : r.session.isNone = false) (key : List Char)
    (plain : '"' ∉ key) (one : '=' ∉ key) (n : Nat) :
    readLine r (valueLine key (dword n)) = { r with values := r.values.assign key (dword n) } := by
  have dark : isWhitespace (digitChar (n % 16)) = false := digitChar_dark (mod_lt n (by decide))
  have shape : dword n = (dword n).dropLast ++ [digitChar (n % 16)] := rfl
  refine readLine_value inside plain one shape dark ?_
  rw [shape]
  exact trim_enclosed (t := (dword n).tail.dropLast) rfl dark

/-- The lines of a session put away the session before it and open this one. -/
lemma read_session (s : PuttySession) :
    s.lines.foldl readLine r =
      { drafts := (finalizePuttySession r).drafts, warnings := (finalizePuttySession r).warnings,
        session := some s.name, values := s.values } := by
  have protocol : '"' ∉ s.protocol.text := by cases s.protocol <;> decide
  have lower : asciiLower s.protocol.text = s.protocol.text := by cases s.protocol <;> rfl
  have cleared : (finalizePuttySession r).values = {} := by
    unfold finalizePuttySession
    grind
  simp only [PuttySession.lines, foldl_cons, foldl_nil, readLine_section,
    sessionName_sectionLine s.ascii, readLine_empty]
  rw [readLine_quoted rfl "HostName".toList (by decide) (by decide),
    readLine_dword rfl "PortNumber".toList (by decide) (by decide),
    readLine_quoted rfl "Protocol".toList (by decide) (by decide),
    readLine_quoted rfl "UserName".toList (by decide) (by decide)]
  have host : ∀ v : PuttyValues, v.assign "HostName".toList (quoted (escapeValue s.host)) =
      { v with host := some (doubled s.host) } := by
    intro v
    rw [PuttyValues.assign, if_pos rfl, stripQuotes_escaped]
    rfl
  have port : ∀ v : PuttyValues, v.assign "PortNumber".toList (dword s.port) =
      { v with port := some s.port } := by
    intro v
    rw [PuttyValues.assign, if_neg (by decide), if_pos rfl, parsePort_dword s.portRange.2]
    rfl
  have type : ∀ v : PuttyValues, v.assign "Protocol".toList (quoted s.protocol.text) =
      { v with protocol := some s.protocol.text } := by
    intro v
    rw [PuttyValues.assign, if_neg (by decide), if_neg (by decide), if_pos rfl,
      stripQuotes_plain protocol, Option.map_some, lower]
    rfl
  have user : ∀ v : PuttyValues, v.assign "UserName".toList (quoted (escapeValue s.user)) =
      { v with user := some (doubled s.user) } := by
    intro v
    rw [PuttyValues.assign, if_neg (by decide), if_neg (by decide), if_neg (by decide), if_pos rfl,
      stripQuotes_escaped]
    rfl
  simp only [host, port, type, user, cleared]
  rfl

/-- Every session adds its draft behind those that are there. -/
lemma read_sessions :
    finalizePuttySession ((sessions.flatMap PuttySession.lines).foldl readLine r) =
      { drafts := (finalizePuttySession r).drafts ++ sessions.map PuttySession.imported,
        warnings := (finalizePuttySession r).warnings } := by
  induction sessions generalizing r with
  | nil =>
    unfold finalizePuttySession
    simp only [flatMap_nil, foldl_nil, map_nil, append_nil]
    grind
  | cons s rest ih =>
    rw [flatMap_cons, foldl_append, read_session, ih, finalize_session]
    simp

lemma newline_of_text (h : ∀ c ∈ t, isControl c = false) : '\n' ∉ t := by
  intro member
  exact absurd (h _ member) (by decide)

lemma newline_escapeValue (h : '\n' ∉ t) : '\n' ∉ escapeValue t := by
  intro member
  obtain ⟨c, inside, member⟩ := mem_flatMap.mp member
  split at member
  · rename_i special
    simp only [mem_cons, not_mem_nil, or_false] at member
    rcases member with bad | rfl
    · exact absurd bad (by decide)
    · exact h inside
  · rw [mem_singleton] at member
    exact h (member ▸ inside)

lemma newline_dword (n : Nat) : '\n' ∉ dword n := by
  have digit : ∀ m, '\n' ≠ digitChar (m % 16) := by
    intro m same
    have dark := digitChar_dark (mod_lt m (y := 16) (by decide))
    rw [← same] at dark
    cases dark
  simp [dword, digit]

lemma newline_line : ∀ line ∈ s.lines, '\n' ∉ line := by
  have name : '\n' ∉ escapeName s.name := by
    intro member
    exact absurd (escapeName_chars s.ascii member).1 (by decide)
  have root : '\n' ∉ sessionsKey := by decide
  have host := newline_escapeValue (newline_of_text s.hostText)
  have user := newline_escapeValue (newline_of_text s.userText)
  have type : '\n' ∉ s.protocol.text := by cases s.protocol <;> decide
  have port := newline_dword s.port
  simp only [PuttySession.lines, forall_mem_cons]
  refine ⟨?_, ?_, ?_, ?_, ?_, not_mem_nil, fun _ h => nomatch h⟩
  · simp [sectionLine, root, name]
  · simp [valueLine, quoted, host]
  · simp [valueLine, quoted, port]
  · simp [valueLine, quoted, type]
  · simp [valueLine, quoted, user]

lemma lines_written {lines : List (List Char)} (h : ∀ line ∈ lines, '\n' ∉ line) :
    Text.lines (lines.flatMap (fun line => line ++ ['\r', '\n'])) = lines := by
  induction lines with
  | nil => rfl
  | cons line rest ih =>
    obtain ⟨first, later⟩ := forall_mem_cons.mp h
    rw [flatMap_cons, append_assoc]
    exact (lines_append first).trans (congrArg (line :: ·) (ih later))

lemma lines_export :
    Text.lines (registryExport sessions) =
      "Windows Registry Editor Version 5.00".toList :: [] :: sectionLine sessionsKey :: [] ::
        sessions.flatMap PuttySession.lines := by
  apply lines_written
  simp only [forall_mem_cons]
  refine ⟨by decide, not_mem_nil, by decide, not_mem_nil, ?_⟩
  intro line member
  obtain ⟨s, -, member⟩ := mem_flatMap.mp member
  exact newline_line s line member

lemma parse_export :
    parsePuttyReg (registryExport sessions) =
      { format := "putty".toList, drafts := sessions.map PuttySession.imported, warnings := [] } := by
  have root : puttySessionName (sectionLine sessionsKey) = none := by decide +kernel
  have header : readLine {} "Windows Registry Editor Version 5.00".toList = {} := by rfl
  rw [parsePuttyReg, lines_export]
  simp only [foldl_cons, readLine_empty, header, readLine_section, root]
  rw [read_sessions]
  rfl

def Agrees (s : PuttySession) (draft : ImportedConnectionDraft) : Prop :=
  draft.name = s.name ∧ draft.host = s.host ∧ draft.user = s.user ∧ draft.port = some s.port ∧
    draft.connectionType = s.protocol.connectionType

lemma agrees_imported {s : PuttySession} :
    Agrees s s.imported ↔ '\\' ∉ s.host ∧ '\\' ∉ s.user := by
  rw [← doubled_eq_self, ← doubled_eq_self]
  constructor
  · rintro ⟨-, host, user, -⟩
    exact ⟨host, user⟩
  · rintro ⟨host, user⟩
    exact ⟨rfl, host, user, rfl, rfl⟩

/-- An export comes back as it was exactly when no host and no user has a backslash. -/
theorem export_comes_back (sessions : List PuttySession) :
    List.Forall₂ Agrees sessions (parsePuttyReg (registryExport sessions)).drafts ∧
        (parsePuttyReg (registryExport sessions)).warnings = [] ↔
      ∀ s ∈ sessions, '\\' ∉ s.host ∧ '\\' ∉ s.user := by
  rw [parse_export]
  simp only [and_true, forall₂_map_right_iff, forall₂_same, agrees_imported]

def domainSession : PuttySession where
  name := "Jump box".toList
  host := "jump.example.com".toList
  user := "CORP\\admin".toList
  port := 22
  protocol := .ssh
  named := by decide
  ascii := fun c member => of_decide_eq_true (List.all_eq_true.mp
    (rfl : "Jump box".toList.all (fun c => decide (c.toNat < 0x80)) = true) c member)
  hosted := by decide
  hostText := fun c member => (Bool.not_eq_true' _).mp (List.all_eq_true.mp
    (rfl : "jump.example.com".toList.all (fun c => !isControl c) = true) c member)
  userText := fun c member => (Bool.not_eq_true' _).mp (List.all_eq_true.mp
    (rfl : "CORP\\admin".toList.all (fun c => !isControl c) = true) c member)
  portRange := by decide

theorem domain_user_doubled :
    ¬ (List.Forall₂ Agrees [domainSession]
        (parsePuttyReg (registryExport [domainSession])).drafts ∧
      (parsePuttyReg (registryExport [domainSession])).warnings = []) := by
  have user : (parsePuttyReg (registryExport [domainSession])).drafts.map (·.user) =
      ["CORP\\\\admin".toList] := by decide +kernel
  rintro ⟨agrees, -⟩
  have same : (parsePuttyReg (registryExport [domainSession])).drafts.map (·.user) =
      ["CORP\\admin".toList] := by
    generalize (parsePuttyReg (registryExport [domainSession])).drafts = drafts at agrees
    cases agrees with
    | cons first rest =>
      cases rest
      exact congrArg (· :: []) first.2.2.1
  rw [user] at same
  exact absurd same (by decide)

end Import.Putty
