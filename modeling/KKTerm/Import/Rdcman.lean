import KKTerm.Import.Draft
import KKTerm.Library.Entities
import KKTerm.Library.Text

/-!
# RDCMan files

A scanner turns the file into tags and texts, and a machine with flags reads the groups
and the servers out of them.
-/

namespace Import.Rdcman

open Entities Text

inductive XmlEvent where
  | openTag (name : List Char) (selfClosing : Bool)
  | closeTag (name : List Char)
  | text (text : List Char)

def ampersand : Entity Char :=
  { char := '&', name := "amp;".toList }

/-- The entities that are replaced after the ampersand. -/
def otherEntities : List (Entity Char) :=
  [{ char := '<', name := "lt;".toList }, { char := '>', name := "gt;".toList },
    { char := '"', name := "quot;".toList }, { char := '\'', name := "apos;".toList }]

def decodeXmlEntities (text : List Char) : List Char :=
  decode '&' (ampersand :: otherEntities) text

def takeTagName (input : List Char) : List Char :=
  (input.takeWhile (fun c => !isWhitespace c)).rdropWhile (fun c => c = '/')

/-- What stands between the angle brackets. -/
def tagEvents (raw : List Char) : List XmlEvent :=
  if raw.head? = some '?' ∨ raw.head? = some '!' then []
  else if raw.head? = some '/' then [.closeTag (takeTagName raw.tail)]
  else
    let selfClosing := raw.getLast? = some '/'
    [.openTag (takeTagName (if selfClosing then raw.dropLast else raw)) selfClosing]

def textEvents (chunk : List Char) : List XmlEvent :=
  let decoded := decodeXmlEntities chunk
  if trim decoded = [] then [] else [.text decoded]

def iterXmlEvents (text : List Char) : List XmlEvent :=
  match text with
  | [] => []
  | c :: rest =>
    if c = '<' then
      match _found : splitOnce '>' rest with
      | none => []
      | some parts => tagEvents parts.1 ++ iterXmlEvents parts.2
    else
      textEvents (c :: rest.takeWhile (fun d => d ≠ '<')) ++
        iterXmlEvents (rest.dropWhile (fun d => d ≠ '<'))
termination_by text.length
decreasing_by
  · obtain ⟨shape, -⟩ := Text.splitOnce_eq_some _found
    rw [shape, List.length_cons, List.length_append, List.length_cons]
    omega
  · have shorter := List.length_dropWhile_le (fun d => d ≠ '<') rest
    rw [List.length_cons]
    omega

structure RdcmanServer where
  currentTag : Option (List Char) := none
  displayName : Option (List Char) := none
  name : Option (List Char) := none
  userName : Option (List Char) := none
  domain : Option (List Char) := none
  port : Option Nat := none

structure Reader where
  drafts : List ImportedConnectionDraft := []
  warnings : List (List Char) := []
  folderStack : List (List Char) := []
  groupInProperties : Bool := false
  groupPropertyTag : Option (List Char) := none
  inServer : Bool := false
  currentServer : Option RdcmanServer := none

def RdcmanServer.assign (s : RdcmanServer) (tag value : List Char) : RdcmanServer :=
  if value = [] then s
  else if tag = "displayname".toList then { s with displayName := some value }
  else if tag = "name".toList then { s with name := some value }
  else if tag = "username".toList then { s with userName := some value }
  else if tag = "domain".toList then { s with domain := some value }
  else if tag = "port".toList then
    { s with port := (parseUnsigned 65535 value).or s.port }
  else s

/-- The text goes to the tag that is open, when there is one. -/
def RdcmanServer.assignCurrent (s : RdcmanServer) (value : List Char) : RdcmanServer :=
  s.currentTag.elim s (fun tag => s.assign tag value)

def userOf : Option (List Char) → Option (List Char) → List Char
  | some user, some domain =>
    if user ≠ [] ∧ domain ≠ [] then domain ++ '\\' :: user else user
  | some user, none => user
  | none, _ => []

def RdcmanServer.intoDraft (s : RdcmanServer) (folderStack : List (List Char)) :
    Except (List Char) ImportedConnectionDraft :=
  match s.name with
  | none => .error "RDCMan server missing <name>".toList
  | some host => .ok {
      name := (s.displayName.filter (fun value => !value.isEmpty)).getD host
      host
      user := userOf s.userName s.domain
      url := none
      port := s.port
      keyPath := none
      proxyJump := none
      connectionType := .rdp
      folderPath := folderStack.filter (fun segment => !segment.isEmpty) }

def isGroupTag (tag : List Char) : Bool :=
  tag = "group".toList || tag = "ruggedizedgroup".toList || tag = "smartgroup".toList

def readOpen (r : Reader) (tag : List Char) : Reader :=
  if isGroupTag tag then { r with folderStack := r.folderStack ++ [[]] }
  else if tag = "server".toList then { r with inServer := true, currentServer := some {} }
  else if tag = "properties".toList then
    if r.inServer then r
    else if r.folderStack ≠ [] then { r with groupInProperties := true }
    else r
  else if r.inServer then
    { r with currentServer := r.currentServer.map (fun s => { s with currentTag := some tag }) }
  else if r.groupInProperties then { r with groupPropertyTag := some tag }
  else r

/-- The innermost group takes the name when it has none yet. -/
def nameInnermost (stack : List (List Char)) (name : List Char) : List (List Char) :=
  if stack.getLast? = some [] then stack.dropLast ++ [name] else stack

def readText (r : Reader) (text : List Char) : Reader :=
  if r.groupInProperties then
    if r.groupPropertyTag = some "name".toList then
      { r with folderStack := nameInnermost r.folderStack (trim text) }
    else r
  else if r.inServer then
    { r with currentServer := r.currentServer.map (fun s => s.assignCurrent (trim text)) }
  else r

def closeServer (r : Reader) : Reader :=
  match r.currentServer with
  | none => { r with inServer := false }
  | some server =>
    match server.intoDraft r.folderStack with
    | .ok draft =>
      { r with drafts := r.drafts ++ [draft], currentServer := none, inServer := false }
    | .error message =>
      { r with warnings := r.warnings ++ [message], currentServer := none, inServer := false }

def readClose (r : Reader) (tag : List Char) : Reader :=
  if tag = "properties".toList then
    if r.groupInProperties then { r with groupInProperties := false, groupPropertyTag := none }
    else r
  else if isGroupTag tag then { r with folderStack := r.folderStack.dropLast }
  else if tag = "server".toList then closeServer r
  else if r.inServer then
    { r with currentServer := r.currentServer.map (fun s => { s with currentTag := none }) }
  else if r.groupInProperties then { r with groupPropertyTag := none }
  else r

def readEvent (r : Reader) : XmlEvent → Reader
  | .openTag _ true => r
  | .openTag name false => readOpen r (asciiLower name)
  | .text text => readText r text
  | .closeTag name => readClose r (asciiLower name)

def parseRdcman (text : List Char) : ImportFilePreview :=
  let r := (iterXmlEvents text).foldl readEvent {}
  { format := "rdcman".toList, drafts := r.drafts, warnings := r.warnings }

end Import.Rdcman

/-!
# RDCMan documents

A forest of groups and servers is written as a document: the properties of a group or a
server come first, then its other sections, then what the group holds. The texts are
escaped, and blanks may stand before every tag and around every text. Which other elements
there are, and which of the empty ones close themselves, is left open.
-/

namespace Import.Rdcman

open Entities Text

/-- A text without blanks at its ends, and not empty. -/
structure Label where
  text : List Char
  trimmed : trim text = text
  nonblank : text ≠ []

structure Server where
  host : Label
  displayName : Option (List Char)
  user : Option (List Char)
  domain : Option (List Char)
  port : Option Nat
  displayTrimmed : ∀ t ∈ displayName, trim t = t
  userTrimmed : ∀ t ∈ user, trim t = t
  domainTrimmed : ∀ t ∈ domain, trim t = t
  portRange : ∀ n ∈ port, n ≤ 65535

/-- A forest as its first tree and the trees behind it. -/
inductive Forest where
  | nil
  | group (name : Label) (children rest : Forest)
  | server (s : Server) (rest : Forest)

/-- The servers in document order, each with the names of its groups from the outside in. -/
def Forest.entries (path : List Label) : Forest → List (List Label × Server)
  | .nil => []
  | .group name children rest => children.entries (path ++ [name]) ++ rest.entries path
  | .server s rest => (path, s) :: rest.entries path

/-- A tag, and the text between it and the tag before. -/
structure Cell where
  before : List Char
  raw : List Char

def Cell.render (c : Cell) : List Char :=
  c.before ++ '<' :: (c.raw ++ ['>'])

structure Field where
  tag : List Char
  value : List Char

/-- A section of a group or a server other than its properties. -/
structure Part where
  tag : List Char
  fields : List Field

def IsTagName (tag : List Char) : Prop :=
  tag ≠ [] ∧ tag.head? ≠ some '?' ∧ tag.head? ≠ some '!' ∧
    ∀ c ∈ tag, isWhitespace c = false ∧ c ≠ '/' ∧ c ≠ '>'

/-- A tag that has no meaning of its own for the structure of the document. -/
def IsOrdinary (tag : List Char) : Prop :=
  IsTagName tag ∧ isGroupTag (asciiLower tag) = false ∧
    asciiLower tag ≠ "server".toList ∧ asciiLower tag ≠ "properties".toList

def IsAttributes (a : List Char) : Prop :=
  (∀ c ∈ a.head?, isWhitespace c = true) ∧ '>' ∉ a

def escape (value : List Char) : List Char :=
  Entities.encode '&' (ampersand :: otherEntities) value

/-- A tag that opens an element, with blanks before it. -/
def Opens (tag : List Char) (c : Cell) : Prop :=
  Blank c.before ∧
    ∃ a, c.raw = tag ++ a ∧ IsAttributes a ∧ a.getLast? ≠ some '/'

def OpensAndCloses (tag : List Char) (c : Cell) : Prop :=
  Blank c.before ∧ ∃ a, c.raw = tag ++ (a ++ ['/']) ∧ IsAttributes a

def Closes (tag : List Char) (c : Cell) : Prop :=
  Blank c.before ∧ c.raw = '/' :: tag

/-- A tag that closes an element which holds a text. -/
def ClosesText (tag value : List Char) (c : Cell) : Prop :=
  (∃ front back, c.before = front ++ (escape value ++ back) ∧ Blank front ∧
    Blank back) ∧ c.raw = '/' :: tag

inductive WritesField (f : Field) : List Cell → Prop
  | element {opening closing : Cell} (opens : Opens f.tag opening)
      (closes : ClosesText f.tag f.value closing) : WritesField f [opening, closing]
  | selfClosing {c : Cell} (empty : f.value = []) (closes : OpensAndCloses f.tag c) :
      WritesField f [c]

inductive WritesFields : List Field → List Cell → Prop
  | nil : WritesFields [] []
  | cons {f : Field} {fs : List Field} {cells more : List Cell} (first : WritesField f cells)
      (rest : WritesFields fs more) : WritesFields (f :: fs) (cells ++ more)

inductive WritesPart (tag : List Char) (fields : List Field) : List Cell → Prop
  | element {opening closing : Cell} {cells : List Cell} (opens : Opens tag opening)
      (inside : WritesFields fields cells) (closes : Closes tag closing) :
      WritesPart tag fields (opening :: (cells ++ [closing]))
  | selfClosing {c : Cell} (empty : fields = []) (closes : OpensAndCloses tag c) :
      WritesPart tag fields [c]

inductive WritesParts : List Part → List Cell → Prop
  | nil : WritesParts [] []
  | cons {p : Part} {ps : List Part} {cells more : List Cell}
      (first : WritesPart p.tag p.fields cells) (rest : WritesParts ps more) :
      WritesParts (p :: ps) (cells ++ more)

/-- A field has an ordinary tag and a text without blanks at its ends. -/
def Field.Valid (f : Field) : Prop :=
  IsOrdinary f.tag ∧ trim f.value = f.value

def Part.Valid (p : Part) : Prop :=
  IsOrdinary p.tag ∧ ∀ f ∈ p.fields, f.Valid

/-- The texts of the fields with a tag. -/
def values (key : List Char) (fields : List Field) : List (List Char) :=
  (fields.filter (fun f => asciiLower f.tag = key)).map Field.value

/-- The fields of a server say what the server is, each thing once. -/
structure Describes (s : Server) (fields : List Field) : Prop where
  host : values "name".toList fields = [s.host.text]
  displayName : values "displayname".toList fields = s.displayName.toList
  user : values "username".toList fields = s.user.toList
  domain : values "domain".toList fields = s.domain.toList
  port : values "port".toList fields = s.port.toList.map (Nat.toDigits 10)

def WritesServer (s : Server) (cells : List Cell) : Prop :=
  ∃ opening properties fields parts inside closing,
    cells = opening :: (properties ++ inside ++ [closing]) ∧
    Opens "server".toList opening ∧ WritesPart "properties".toList fields properties ∧
    WritesParts parts inside ∧ Closes "server".toList closing ∧
    (∀ f ∈ fields, f.Valid) ∧ (∀ p ∈ parts, p.Valid) ∧
    Describes s (fields ++ parts.flatMap Part.fields)

inductive WritesForest : Forest → List Cell → Prop
  | nil : WritesForest .nil []
  | server {s : Server} {rest : Forest} {cells more : List Cell} (first : WritesServer s cells)
      (after : WritesForest rest more) : WritesForest (.server s rest) (cells ++ more)
  | group {name : Label} {children rest : Forest} {opening closing : Cell} {fields : List Field}
      {parts : List Part} {properties others inside more : List Cell}
      (opens : Opens "group".toList opening)
      (first : WritesPart "properties".toList fields properties)
      (second : WritesParts parts others) (holds : WritesForest children inside)
      (closes : Closes "group".toList closing) (after : WritesForest rest more)
      (fieldsValid : ∀ f ∈ fields, f.Valid) (partsValid : ∀ p ∈ parts, p.Valid)
      (named : values "name".toList fields = [name.text]) :
      WritesForest (.group name children rest)
        (opening :: (properties ++ others ++ inside ++ [closing]) ++ more)

def XmlEvent.IsOuter : XmlEvent → Prop
  | .openTag name _ =>
    isGroupTag (asciiLower name) = false ∧ asciiLower name ≠ "server".toList
  | .closeTag name =>
    isGroupTag (asciiLower name) = false ∧ asciiLower name ≠ "server".toList
  | .text _ => True

/-- What stands around the forest: declarations, and tags that are no group and no server. -/
def Cell.IsOuter (c : Cell) : Prop :=
  '<' ∉ c.before ∧ '>' ∉ c.raw ∧ ∀ e ∈ tagEvents c.raw, e.IsOuter

/-- A document has the forest between its first and its last tags. -/
def IsDocument (forest : Forest) (text : List Char) : Prop :=
  ∃ header cells footer trailing,
    text = (header ++ cells ++ footer).flatMap Cell.render ++ trailing ∧
    (∀ c ∈ header, c.IsOuter) ∧ WritesForest forest cells ∧ (∀ c ∈ footer, c.IsOuter) ∧
    '<' ∉ trailing

end Import.Rdcman

/-!
# Scanning an RDCMan document

The scanner finds the tags and the texts of a document one after the other. A text comes
out as it was, but for the entities that were in it before it was written.
-/

namespace Import.Rdcman

open Entities List Text

lemma iterXmlEvents_nil : iterXmlEvents [] = [] := by
  rw [iterXmlEvents]

lemma iterXmlEvents_tag {raw : List Char} (closed : '>' ∉ raw) (rest : List Char) :
    iterXmlEvents ('<' :: (raw ++ '>' :: rest)) = tagEvents raw ++ iterXmlEvents rest := by
  rw [iterXmlEvents, if_pos rfl]
  split
  · rename_i found
    rw [splitOnce_append closed] at found
    cases found
  · rename_i parts found
    rw [splitOnce_append closed] at found
    cases found
    rfl

lemma iterXmlEvents_text {chunk rest : List Char} (free : '<' ∉ chunk)
    (next : ∀ c ∈ rest.head?, c = '<') :
    iterXmlEvents (chunk ++ rest) = textEvents chunk ++ iterXmlEvents rest := by
  cases chunk with
  | nil => rfl
  | cons c chunk =>
    have other : c ≠ '<' := fun same => free (same ▸ mem_cons_self)
    have inside : ∀ d ∈ chunk, decide (d ≠ '<') = true := by
      intro d member
      exact decide_eq_true (fun same => free (same ▸ mem_cons_of_mem c member))
    have stop : ∀ d ∈ rest.head?, decide (d ≠ '<') = false := by
      intro d first
      exact decide_eq_false (fun differ => differ (next d first))
    have taken : (chunk ++ rest).takeWhile (fun d => d ≠ '<') = chunk := by
      rw [takeWhile_append_of_pos inside]
      cases rest with
      | nil => simp
      | cons d rest => simp [next d rfl]
    have dropped : (chunk ++ rest).dropWhile (fun d => d ≠ '<') = rest := by
      rw [dropWhile_append_of_pos inside]
      cases rest with
      | nil => rfl
      | cons d rest => simp [next d rfl]
    rw [cons_append, iterXmlEvents, if_neg other, taken, dropped]

def Cell.events (c : Cell) : List XmlEvent :=
  textEvents c.before ++ tagEvents c.raw

/-- The brackets of a cell are those around its tag. -/
def Cell.Clean (c : Cell) : Prop :=
  '<' ∉ c.before ∧ '>' ∉ c.raw

lemma iterXmlEvents_cells {cells : List Cell} (clean : ∀ c ∈ cells, c.Clean)
    {trailing : List Char} (free : '<' ∉ trailing) :
    iterXmlEvents (cells.flatMap Cell.render ++ trailing) =
      cells.flatMap Cell.events ++ textEvents trailing := by
  induction cells with
  | nil =>
    have next : ∀ d ∈ ([] : List Char).head?, d = '<' := fun _ h => nomatch h
    have whole := iterXmlEvents_text free next
    rw [append_nil, iterXmlEvents_nil, append_nil] at whole
    exact whole
  | cons c cells ih =>
    obtain ⟨⟨open_, close⟩, later⟩ := forall_mem_cons.mp clean
    have next : ∀ d ∈ ('<' :: (c.raw ++ '>' :: (cells.flatMap Cell.render ++ trailing))).head?,
        d = '<' := by
      rintro d ⟨⟩
      rfl
    have shape : (c :: cells).flatMap Cell.render ++ trailing =
        c.before ++ '<' :: (c.raw ++ '>' :: (cells.flatMap Cell.render ++ trailing)) := by
      simp [Cell.render]
    rw [shape, iterXmlEvents_text open_ next, iterXmlEvents_tag close, ih later, flatMap_cons,
      Cell.events]
    simp only [append_assoc]

lemma takeTagName_append {tag a : List Char} (name : IsTagName tag)
    (attributes : ∀ c ∈ a.head?, isWhitespace c = true) : takeTagName (tag ++ a) = tag := by
  have inside : ∀ c ∈ tag, (!isWhitespace c) = true := by
    intro c member
    rw [(name.2.2.2 c member).1]
    rfl
  have taken : (tag ++ a).takeWhile (fun c => !isWhitespace c) = tag := by
    rw [takeWhile_append_of_pos inside]
    cases a with
    | nil => simp
    | cons c a => simp [attributes c rfl]
  rw [takeTagName, taken, rdropWhile_eq_self_iff]
  intro nonempty
  simpa using (name.2.2.2 _ (getLast_mem nonempty)).2.1

lemma head?_tag {tag : List Char} (name : IsTagName tag) (a : List Char) {c : Char}
    (h : (tag ++ a).head? = some c) : tag.head? = some c ∧ c ≠ '/' := by
  obtain ⟨d, rest, rfl⟩ := exists_cons_of_ne_nil name.1
  cases h
  exact ⟨rfl, (name.2.2.2 _ mem_cons_self).2.1⟩

lemma not_special {tag : List Char} (name : IsTagName tag) (a : List Char) :
    ¬ ((tag ++ a).head? = some '?' ∨ (tag ++ a).head? = some '!') ∧
      ¬ (tag ++ a).head? = some '/' := by
  refine ⟨?_, fun slash => (head?_tag name a slash).2 rfl⟩
  rintro (mark | mark)
  · exact name.2.1 (head?_tag name a mark).1
  · exact name.2.2.1 (head?_tag name a mark).1

lemma tagEvents_open {tag a : List Char} (name : IsTagName tag) (attributes : IsAttributes a)
    (last : a.getLast? ≠ some '/') : tagEvents (tag ++ a) = [.openTag tag false] := by
  have open_ : ¬ (tag ++ a).getLast? = some '/' := by
    intro slash
    cases a with
    | nil =>
      rw [append_nil] at slash
      exact (name.2.2.2 _ (mem_of_getLast? slash)).2.1 rfl
    | cons c a =>
      rw [getLast?_append_of_ne_nil _ (cons_ne_nil c a)] at slash
      exact last slash
  have special := not_special name a
  rw [tagEvents, if_neg special.1, if_neg special.2]
  simp only [open_, takeTagName_append name attributes.1, decide_false, if_false]

lemma tagEvents_selfClosing {tag a : List Char} (name : IsTagName tag)
    (attributes : IsAttributes a) : tagEvents (tag ++ (a ++ ['/'])) = [.openTag tag true] := by
  have special := not_special name (a ++ ['/'])
  have last : (tag ++ (a ++ ['/'])).getLast? = some '/' := by rw [← append_assoc, getLast?_concat]
  have body : (tag ++ (a ++ ['/'])).dropLast = tag ++ a := by rw [← append_assoc, dropLast_concat]
  rw [tagEvents, if_neg special.1, if_neg special.2]
  simp only [last, body, if_pos, takeTagName_append name attributes.1, decide_true]

lemma tagEvents_close {tag : List Char} (name : IsTagName tag) :
    tagEvents ('/' :: tag) = [.closeTag tag] := by
  have whole := takeTagName_append name (a := []) (fun _ h => nomatch h)
  rw [append_nil] at whole
  have slash : ('/' :: tag).head? = some '/' := rfl
  rw [tagEvents, if_neg (by simp), if_pos slash, tail_cons, whole]

def shown (value : List Char) : List Char :=
  Text.trim (decode '&' otherEntities value)

lemma entities_apart : Apart '&' (ampersand :: otherEntities) where
  unmarked := by decide
  plain := by decide
  prefixFree := by decide
  chars := by decide

lemma otherEntities_named : ∀ e ∈ otherEntities, e.name ≠ [] := by
  decide

lemma chars_dark : ∀ e ∈ ampersand :: otherEntities, isWhitespace e.char = false := by
  decide

lemma words_dark : ∀ e ∈ otherEntities, ∀ c ∈ e.word '&', isWhitespace c = false := by
  have all : otherEntities.all (fun e => (e.word '&').all (fun c => !isWhitespace c)) = true := rfl
  intro e known c member
  simpa using all_eq_true.mp (all_eq_true.mp all e known) c member

lemma blank_apart {u : List Char} (blank : Blank u) :
    ∀ c ∈ u, ∀ e ∈ otherEntities, c ∉ e.word '&' := by
  intro c member e known inside
  have white := blank c member
  rw [words_dark e known c inside] at white
  cases white

lemma escape_blank {u : List Char} (blank : Blank u) : escape u = u := by
  apply encode_plain
  rintro c member e known rfl
  have white := blank _ member
  rw [chars_dark e known] at white
  cases white

lemma decode_written {front back value : List Char} (before : Blank front) (behind : Blank back) :
    decodeXmlEntities (front ++ (escape value ++ back)) =
      front ++ (decode '&' otherEntities value ++ back) := by
  have whole : front ++ (escape value ++ back) = escape (front ++ (value ++ back)) := by
    have parts : escape (front ++ (value ++ back)) = escape front ++ (escape value ++ escape back) := by
      simp only [escape, encode_append]
    rw [parts, escape_blank before, escape_blank behind]
  rw [whole, decodeXmlEntities, escape, decode_encode_mark entities_apart rfl]
  exact decode_between (blank_apart before) (blank_apart behind) value

lemma trim_between {front back : List Char} (before : Blank front) (behind : Blank back)
    (t : List Char) : trim (front ++ (t ++ back)) = trim t := by
  rw [trim_blank_append before, trim_append_blank behind]

lemma shown_nil : shown [] = [] :=
  rfl

lemma shown_ne_nil {value : List Char} (trimmed : trim value = value) (h : value ≠ []) :
    shown value ≠ [] := by
  rw [← trimmed] at h
  apply trim_ne_nil.mpr
  exact exists_mem_decode (fun e known => chars_dark e (mem_cons_of_mem _ known))
    (trim_ne_nil.mp h)

/-- A written text is one event, unless it is empty. -/
lemma textEvents_written {front back value : List Char} (before : Blank front)
    (behind : Blank back) (trimmed : trim value = value) :
    (value = [] ∧ textEvents (front ++ (escape value ++ back)) = []) ∨
      (value ≠ [] ∧ ∃ d, textEvents (front ++ (escape value ++ back)) = [.text d] ∧
        trim d = shown value) := by
  have read : trim (decodeXmlEntities (front ++ (escape value ++ back))) = shown value := by
    rw [decode_written before behind, trim_between before behind]
    rfl
  by_cases empty : value = []
  · left
    refine ⟨empty, ?_⟩
    rw [empty, shown_nil] at read
    rw [textEvents, empty]
    simp only [read, if_true]
  · right
    refine ⟨empty, _, ?_, read⟩
    rw [textEvents]
    simp only [read, if_neg (shown_ne_nil trimmed empty)]

lemma textEvents_blank {t : List Char} (blank : Blank t) : textEvents t = [] := by
  have nothing : Blank ([] : List Char) := fun _ h => nomatch h
  have decoded : decodeXmlEntities t = t := by
    have same : decodeXmlEntities (t ++ (escape [] ++ [])) = _ := decode_written blank nothing
    have whole : t ++ (escape [] ++ []) = t := append_nil t
    rw [whole] at same
    exact same.trans (append_nil t)
  rw [textEvents, decoded]
  simp only [trim_of_blank blank, if_true]

/-- Whether none of the entities stands in a text. -/
def Plain (t : List Char) : Prop :=
  ∀ e ∈ otherEntities, ¬ e.word '&' <:+: t

lemma length_trim_le (t : List Char) : (trim t).length ≤ t.length := by
  refine le_trans (IsPrefix.length_le (Text.trimEnd_prefix _)) ?_
  exact length_dropWhile_le _ t

lemma length_shown_le (t : List Char) : (shown t).length ≤ t.length :=
  le_trans (length_trim_le _) (length_decode otherEntities_named t).1

/-- A text comes out as it was exactly when it has no entity in it. -/
lemma shown_eq_self {t : List Char} (trimmed : trim t = t) : shown t = t ↔ Plain t := by
  constructor
  · intro same
    apply (length_decode otherEntities_named t).2
    have shorter : (decode '&' otherEntities t).length ≤ t.length :=
      (length_decode otherEntities_named t).1
    have cut := length_trim_le (decode '&' otherEntities t)
    have size := congrArg length same
    rw [shown] at size
    omega
  · intro plain
    rw [shown, decode_of_absent plain, trimmed]

end Import.Rdcman
