import KKTerm.Import.Rdcman

/-!
# What the machine does with an RDCMan document

The machine is at rest between the elements of a forest. A group leaves it at rest with
the same groups open, and a server adds its draft.
-/

namespace Import.Rdcman

open Entities List Text RdcmanServer

def Reader.read (r : Reader) (cells : List Cell) : Reader :=
  (cells.flatMap Cell.events).foldl readEvent r

variable (r : Reader)

lemma Reader.read_nil : r.read [] = r :=
  rfl

lemma Reader.read_append (front back : List Cell) :
    r.read (front ++ back) = (r.read front).read back := by
  rw [read, flatMap_append, foldl_append]
  rfl

lemma Reader.read_cons (c : Cell) (rest : List Cell) :
    r.read (c :: rest) = (r.read [c]).read rest :=
  r.read_append [c] rest

section Tags
variable {r : Reader} {tag : List Char} {c : Cell}

section
variable (name : IsTagName tag)
include name

lemma read_opens (opens : Opens tag c) : r.read [c] = readOpen r (asciiLower tag) := by
  obtain ⟨blank, a, raw, attributes, last⟩ := opens
  rw [Reader.read, flatMap_singleton, Cell.events, textEvents_blank blank, raw,
    tagEvents_open name attributes last]
  rfl

lemma read_selfClosing (closes : OpensAndCloses tag c) : r.read [c] = r := by
  obtain ⟨blank, a, raw, attributes⟩ := closes
  rw [Reader.read, flatMap_singleton, Cell.events, textEvents_blank blank, raw,
    tagEvents_selfClosing name attributes]
  rfl

lemma read_closes (closes : Closes tag c) : r.read [c] = readClose r (asciiLower tag) := by
  obtain ⟨blank, raw⟩ := closes
  rw [Reader.read, flatMap_singleton, Cell.events, textEvents_blank blank, raw,
    tagEvents_close name]
  rfl

/-- The text before a closing tag is read first, when there is one. -/
lemma read_closesText {value : List Char}
    (trimmed : trim value = value) (closes : ClosesText tag value c) :
    (value = [] ∧ r.read [c] = readClose r (asciiLower tag)) ∨
      (value ≠ [] ∧ ∃ d, trim d = shown value ∧
        r.read [c] = readClose (readText r d) (asciiLower tag)) := by
  obtain ⟨⟨front, back, before, blank, blank'⟩, raw⟩ := closes
  rw [Reader.read, flatMap_singleton, Cell.events, before, raw, tagEvents_close name]
  rcases textEvents_written blank blank' trimmed with ⟨empty, none⟩ | ⟨some, d, one, same⟩
  · left
    rw [none]
    exact ⟨empty, rfl⟩
  · right
    rw [one]
    exact ⟨some, d, same, rfl⟩

end

end Tags

section States
variable {drafts : List ImportedConnectionDraft} {warnings : List (List Char)}
  {stack : List (List Char)}

def resting (drafts : List ImportedConnectionDraft) (warnings : List (List Char))
    (stack : List (List Char)) : Reader :=
  { drafts, warnings, folderStack := stack }

def naming (drafts : List ImportedConnectionDraft) (warnings : List (List Char))
    (stack : List (List Char)) (tag : Option (List Char)) : Reader :=
  { drafts, warnings, folderStack := stack, groupInProperties := true, groupPropertyTag := tag }

def serving (drafts : List ImportedConnectionDraft) (warnings : List (List Char))
    (stack : List (List Char)) (s : RdcmanServer) : Reader :=
  { drafts, warnings, folderStack := stack, inServer := true, currentServer := some s }

section Ordinary
variable {tag : List Char}

section
variable (h : IsOrdinary tag)
include h

lemma IsOrdinary.notGroup : ¬ isGroupTag (asciiLower tag) = true := by
  rw [h.2.1]
  exact Bool.false_ne_true

lemma readOpen_resting :
    readOpen (resting drafts warnings stack) (asciiLower tag) =
      resting drafts warnings stack := by
  rw [readOpen, if_neg h.notGroup, if_neg h.2.2.1, if_neg h.2.2.2]
  rfl

lemma readClose_resting :
    readClose (resting drafts warnings stack) (asciiLower tag) =
      resting drafts warnings stack := by
  rw [readClose, if_neg h.2.2.2, if_neg h.notGroup, if_neg h.2.2.1]
  rfl

lemma readOpen_naming (old : Option (List Char)) :
    readOpen (naming drafts warnings stack old) (asciiLower tag) =
      naming drafts warnings stack (some (asciiLower tag)) := by
  rw [readOpen, if_neg h.notGroup, if_neg h.2.2.1, if_neg h.2.2.2]
  rfl

lemma readClose_naming (old : Option (List Char)) :
    readClose (naming drafts warnings stack old) (asciiLower tag) =
      naming drafts warnings stack none := by
  rw [readClose, if_neg h.2.2.2, if_neg h.notGroup, if_neg h.2.2.1]
  rfl

lemma readOpen_serving (s : RdcmanServer) :
    readOpen (serving drafts warnings stack s) (asciiLower tag) =
      serving drafts warnings stack { s with currentTag := some (asciiLower tag) } := by
  rw [readOpen, if_neg h.notGroup, if_neg h.2.2.1, if_neg h.2.2.2]
  rfl

lemma readClose_serving (s : RdcmanServer) :
    readClose (serving drafts warnings stack s) (asciiLower tag) =
      serving drafts warnings stack { s with currentTag := none } := by
  rw [readClose, if_neg h.2.2.2, if_neg h.notGroup, if_neg h.2.2.1]
  rfl

end

end Ordinary

variable {cells : List Cell} {fields : List Field}

variable (s : RdcmanServer) (key : List Char) {f : Field} {p : Part} {parts : List Part}

lemma read_field_resting (valid : f.Valid) (written : WritesField f cells) :
    (resting drafts warnings stack).read cells = resting drafts warnings stack := by
  obtain ⟨ordinary, trimmed⟩ := valid
  cases written with
  | selfClosing empty closes => exact read_selfClosing ordinary.1 closes
  | element opens closes =>
    rw [Reader.read_cons, read_opens ordinary.1 opens, readOpen_resting ordinary]
    rcases read_closesText ordinary.1 trimmed closes with ⟨-, read⟩ | ⟨-, d, -, read⟩
    · rw [read, readClose_resting ordinary]
    · rw [read]
      exact readClose_resting ordinary

/-- Only the name of a group is taken from its properties. -/
def nameFrom (stack : List (List Char)) (f : Field) : List (List Char) :=
  if Text.asciiLower f.tag = "name".toList ∧ f.value ≠ [] then
    nameInnermost stack (shown f.value)
  else stack

lemma readText_naming (tag text : List Char) :
    readText (naming drafts warnings stack (some tag)) text = naming drafts warnings
        (if tag = "name".toList then nameInnermost stack (trim text) else stack)
        (some tag) := by
  by_cases name : tag = "name".toList
  · rw [if_pos name, name]
    rfl
  · have other : ¬ some tag = some "name".toList := fun same => name (Option.some.inj same)
    have inside : (naming drafts warnings stack (some tag)).groupInProperties = true := rfl
    rw [if_neg name, readText, if_pos inside]
    exact if_neg other

lemma read_field_naming (valid : f.Valid) (written : WritesField f cells) :
    (naming drafts warnings stack none).read cells =
      naming drafts warnings (nameFrom stack f) none := by
  obtain ⟨ordinary, trimmed⟩ := valid
  have untouched (empty : f.value = []) : nameFrom stack f = stack := if_neg (fun h => h.2 empty)
  cases written with
  | selfClosing empty closes => rw [read_selfClosing ordinary.1 closes, untouched empty]
  | element opens closes =>
    rw [Reader.read_cons, read_opens ordinary.1 opens, readOpen_naming ordinary]
    rcases read_closesText ordinary.1 trimmed closes with ⟨empty, read⟩ | ⟨nonempty, d, same, read⟩
    · rw [read, readClose_naming ordinary, untouched empty]
    · rw [read, readText_naming, readClose_naming ordinary, same, nameFrom]
      simp only [nonempty, ne_eq, not_false_eq_true, and_true]

lemma assign_currentTag (tag : Option (List Char)) (key value : List Char) :
    assign { s with currentTag := tag } key value =
      { s.assign key value with currentTag := tag } := by
  unfold assign
  split_ifs <;> rfl

lemma assign_nil : s.assign key [] = s :=
  if_pos rfl

/-- A field of a server is assigned; which tag is open afterwards does not matter. -/
lemma read_field_serving (valid : f.Valid) (written : WritesField f cells) (s : RdcmanServer)
    (tag : Option (List Char)) :
    ∃ tag', (serving drafts warnings stack { s with currentTag := tag }).read cells =
      serving drafts warnings stack
        { s.assign (asciiLower f.tag) (shown f.value) with currentTag := tag' } := by
  obtain ⟨ordinary, trimmed⟩ := valid
  cases written with
  | selfClosing empty closes =>
    refine ⟨tag, ?_⟩
    rw [read_selfClosing ordinary.1 closes, empty, shown_nil, assign_nil]
  | element opens closes =>
    refine ⟨none, ?_⟩
    rw [Reader.read_cons, read_opens ordinary.1 opens, readOpen_serving ordinary]
    rcases read_closesText ordinary.1 trimmed closes with ⟨empty, read⟩ | ⟨-, d, same, read⟩
    · rw [read, readClose_serving ordinary, empty, shown_nil, assign_nil]
    · have text : readText (serving drafts warnings stack
          { s with currentTag := some (asciiLower f.tag) }) d =
          serving drafts warnings stack { s.assign (asciiLower f.tag) (shown f.value) with
              currentTag := some (asciiLower f.tag) } := by
        rw [← same, ← assign_currentTag]
        rfl
      rw [read, text, readClose_serving ordinary]

lemma read_fields_resting (written : WritesFields fields cells) (valid : ∀ f ∈ fields, f.Valid) :
    (resting drafts warnings stack).read cells = resting drafts warnings stack := by
  induction written with
  | nil => rfl
  | cons first rest ih =>
    obtain ⟨here, later⟩ := forall_mem_cons.mp valid
    rw [Reader.read_append, read_field_resting here first, ih later]

lemma read_fields_naming (written : WritesFields fields cells) (valid : ∀ f ∈ fields, f.Valid) :
    (naming drafts warnings stack none).read cells =
      naming drafts warnings (fields.foldl nameFrom stack) none := by
  induction written generalizing stack with
  | nil => rfl
  | cons first rest ih =>
    obtain ⟨here, later⟩ := forall_mem_cons.mp valid
    rw [Reader.read_append, read_field_naming here first, ih later, foldl_cons]

def assignAll (s : RdcmanServer) (fields : List Field) : RdcmanServer :=
  fields.foldl (fun s f => s.assign (Text.asciiLower f.tag) (shown f.value)) s

variable (drafts warnings stack) in
lemma read_fields_serving (written : WritesFields fields cells) (valid : ∀ f ∈ fields, f.Valid)
    (s : RdcmanServer) (tag : Option (List Char)) :
    ∃ tag', (serving drafts warnings stack { s with currentTag := tag }).read cells =
      serving drafts warnings stack { assignAll s fields with currentTag := tag' } := by
  induction written generalizing s tag with
  | nil => exact ⟨tag, rfl⟩
  | cons first rest ih =>
    obtain ⟨here, later⟩ := forall_mem_cons.mp valid
    obtain ⟨tag₁, read⟩ := read_field_serving here first s tag
    obtain ⟨tag₂, read'⟩ := ih later (s.assign _ _) tag₁
    refine ⟨tag₂, ?_⟩
    rw [Reader.read_append, read, read']
    rfl

lemma read_part_resting (valid : p.Valid) (written : WritesPart p.tag p.fields cells) :
    (resting drafts warnings stack).read cells = resting drafts warnings stack := by
  obtain ⟨ordinary, fields⟩ := valid
  cases written with
  | selfClosing empty closes => exact read_selfClosing ordinary.1 closes
  | element opens inside closes =>
    rw [Reader.read_cons, read_opens ordinary.1 opens, readOpen_resting ordinary,
      Reader.read_append, read_fields_resting inside fields, read_closes ordinary.1 closes,
      readClose_resting ordinary]

variable (drafts warnings stack) in
lemma read_part_serving (valid : p.Valid) (written : WritesPart p.tag p.fields cells)
    (s : RdcmanServer) (tag : Option (List Char)) :
    ∃ tag', (serving drafts warnings stack { s with currentTag := tag }).read cells =
      serving drafts warnings stack { assignAll s p.fields with currentTag := tag' } := by
  obtain ⟨ordinary, fields⟩ := valid
  cases written with
  | selfClosing empty closes =>
    refine ⟨tag, ?_⟩
    rw [read_selfClosing ordinary.1 closes, empty]
    rfl
  | element opens inside closes =>
    obtain ⟨tag', read⟩ := read_fields_serving drafts warnings stack inside fields s (some (asciiLower p.tag))
    refine ⟨none, ?_⟩
    rw [Reader.read_cons, read_opens ordinary.1 opens, readOpen_serving ordinary,
      Reader.read_append, read, read_closes ordinary.1 closes, readClose_serving ordinary]

lemma read_parts_resting (written : WritesParts parts cells) (valid : ∀ p ∈ parts, p.Valid) :
    (resting drafts warnings stack).read cells = resting drafts warnings stack := by
  induction written with
  | nil => rfl
  | cons first rest ih =>
    obtain ⟨here, later⟩ := forall_mem_cons.mp valid
    rw [Reader.read_append, read_part_resting here first, ih later]

variable (drafts warnings stack) in
lemma read_parts_serving (written : WritesParts parts cells) (valid : ∀ p ∈ parts, p.Valid)
    (s : RdcmanServer) (tag : Option (List Char)) :
    ∃ tag', (serving drafts warnings stack { s with currentTag := tag }).read cells =
      serving drafts warnings stack
        { assignAll s (parts.flatMap Part.fields) with currentTag := tag' } := by
  induction written generalizing s tag with
  | nil => exact ⟨tag, rfl⟩
  | cons first rest ih =>
    obtain ⟨here, later⟩ := forall_mem_cons.mp valid
    obtain ⟨tag₁, read⟩ := read_part_serving drafts warnings stack here first s tag
    obtain ⟨tag₂, read'⟩ := ih later (assignAll s _) tag₁
    refine ⟨tag₂, ?_⟩
    rw [Reader.read_append, read, read', flatMap_cons, assignAll, assignAll, assignAll,
      foldl_append]

lemma values_cons (f : Field) (fields : List Field) :
    values key (f :: fields) =
      if asciiLower f.tag = key then f.value :: values key fields else values key fields := by
  by_cases same : asciiLower f.tag = key
  · rw [if_pos same, values, filter_cons_of_pos (by simpa using same)]
    rfl
  · rw [if_neg same, values, filter_cons_of_neg (by simpa using same)]
    rfl

lemma nameFrom_unnamed (h : values "name".toList fields = []) :
    fields.foldl nameFrom stack = stack := by
  induction fields generalizing stack with
  | nil => rfl
  | cons f fields ih =>
    rw [values_cons] at h
    split at h
    · cases h
    · rename_i other
      have kept : nameFrom stack f = stack := if_neg (fun both => other both.1)
      rw [foldl_cons, kept, ih h]

lemma nameFrom_named {name : List Char} (h : values "name".toList fields = [name])
    (nonempty : name ≠ []) : fields.foldl nameFrom (stack ++ [[]]) = stack ++ [shown name] := by
  induction fields with
  | nil => cases h
  | cons f fields ih =>
    rw [values_cons] at h
    split at h
    · rename_i same
      obtain ⟨rfl, none⟩ := List.cons.inj h
      have named : nameFrom (stack ++ [[]]) f = stack ++ [shown f.value] := by
        rw [nameFrom, if_pos ⟨same, nonempty⟩, nameInnermost, getLast?_concat, if_pos rfl,
          dropLast_concat]
      rw [foldl_cons, named, nameFrom_unnamed none]
    · rename_i other
      have kept : nameFrom (stack ++ [[]]) f = stack ++ [[]] := if_neg (fun both => other both.1)
      rw [foldl_cons, kept, ih h]

section Assigned
variable {β : Type} {get : RdcmanServer → Option β} {key : List Char}
  {parse : List Char → Option β}

/-- What a part of a server takes from the assignments. -/
structure Takes (get : RdcmanServer → Option β) (key : List Char)
    (parse : List Char → Option β) : Prop where
  own : ∀ s value, value ≠ [] → get (s.assign key value) = (parse value).or (get s)
  others : ∀ s tag value, tag ≠ key → get (s.assign tag value) = get s

lemma Takes.absent (takes : Takes get key parse) {fields : List Field}
    (h : values key fields = []) (s : RdcmanServer) : get (assignAll s fields) = get s := by
  induction fields generalizing s with
  | nil => rfl
  | cons f fields ih =>
    rw [values_cons] at h
    split at h
    · cases h
    · rename_i other
      rw [assignAll, foldl_cons, ← assignAll, ih h, takes.others s _ _ other]

lemma Takes.one (takes : Takes get key parse) {fields : List Field} {value : List Char}
    (h : values key fields = [value]) (nonempty : shown value ≠ []) (s : RdcmanServer) :
    get (assignAll s fields) = (parse (shown value)).or (get s) := by
  induction fields generalizing s with
  | nil => cases h
  | cons f fields ih =>
    rw [values_cons] at h
    split at h
    · rename_i same
      obtain ⟨rfl, none⟩ := List.cons.inj h
      rw [assignAll, foldl_cons, ← assignAll, takes.absent none, same, takes.own s _ nonempty]
    · rename_i other
      rw [assignAll, foldl_cons, ← assignAll, ih h, takes.others s _ _ other]

/-- An empty text is not assigned. -/
lemma Takes.empty (takes : Takes get key parse) {fields : List Field}
    (h : values key fields = [[]]) (s : RdcmanServer) : get (assignAll s fields) = get s := by
  induction fields generalizing s with
  | nil => cases h
  | cons f fields ih =>
    rw [values_cons] at h
    split at h
    · obtain ⟨empty, none⟩ := List.cons.inj h
      rw [assignAll, foldl_cons, ← assignAll, takes.absent none, empty, shown_nil, assign_nil]
    · rename_i other
      rw [assignAll, foldl_cons, ← assignAll, ih h, takes.others s _ _ other]

/-- An optional text is what is shown of it, when it is not empty. -/
lemma Takes.optional {get : RdcmanServer → Option (List Char)} (takes : Takes get key some)
    {fields : List Field} {text : Option (List Char)} (trimmed : ∀ t ∈ text, trim t = t)
    (h : values key fields = text.toList) {s : RdcmanServer} (start : get s = none) :
    get (assignAll s fields) = (text.filter (fun t => !t.isEmpty)).map shown := by
  cases text with
  | none => rw [takes.absent h, start]; rfl
  | some t =>
    by_cases empty : t = []
    · subst empty
      rw [takes.empty h, start]
      rfl
    · rw [takes.one h (shown_ne_nil (trimmed t rfl) empty), Option.filter_some,
        if_pos (by simpa using empty)]
      rfl

end Assigned

lemma takes_displayName : Takes displayName "displayname".toList some where
  own s value nonempty := by rw [assign, if_neg nonempty, if_pos rfl]; rfl
  others s tag value other := by
    unfold assign
    split_ifs <;> rfl

lemma takes_name : Takes RdcmanServer.name "name".toList some where
  own s value nonempty := by
    rw [assign, if_neg nonempty, if_neg (by decide), if_pos rfl]
    rfl
  others s tag value other := by
    unfold assign
    split_ifs <;> rfl

lemma takes_userName : Takes userName "username".toList some where
  own s value nonempty := by
    rw [assign, if_neg nonempty, if_neg (by decide), if_neg (by decide), if_pos rfl]
    rfl
  others s tag value other := by
    unfold assign
    split_ifs <;> rfl

lemma takes_domain : Takes RdcmanServer.domain "domain".toList some where
  own s value nonempty := by
    rw [assign, if_neg nonempty, if_neg (by decide), if_neg (by decide),
      if_neg (by decide), if_pos rfl]
    rfl
  others s tag value other := by
    unfold assign
    split_ifs <;> rfl

lemma takes_port : Takes RdcmanServer.port "port".toList (parseUnsigned 65535) where
  own s value nonempty := by
    rw [assign, if_neg nonempty, if_neg (by decide), if_neg (by decide),
      if_neg (by decide), if_neg (by decide), if_pos rfl]
  others s tag value other := by
    unfold assign
    split_ifs <;> rfl

lemma shown_toDigits (n : Nat) : shown (Nat.toDigits 10 n) = Nat.toDigits 10 n := by
  have trimmed : trim (Nat.toDigits 10 n) = Nat.toDigits 10 n := trim_of_dark
    (fun c member => isWhitespace_of_isDigit (isDigit_of_mem_toDigits member))
  apply (shown_eq_self trimmed).mpr
  intro e known inside
  have amp : '&' ∈ Nat.toDigits 10 n := inside.subset mem_cons_self
  exact not_mem_toDigits (by decide) amp

def orEmpty (text : Option (List Char)) : Option (List Char) :=
  text.filter (fun t => !t.isEmpty)

/-- The display name, or the host when there is none. -/
def Server.display (s : Server) : List Char :=
  (orEmpty s.displayName).getD s.host.text

/-- What is read of a server, which stands under these groups. -/
def Server.imported (path : List Label) (s : Server) : ImportedConnectionDraft where
  name := shown s.display
  host := shown s.host.text
  user := userOf ((orEmpty s.user).map shown) ((orEmpty s.domain).map shown)
  url := none
  port := s.port
  keyPath := none
  proxyJump := none
  connectionType := .rdp
  folderPath := path.map (fun label => shown label.text)

lemma Label.shown_ne_nil (label : Label) : shown label.text ≠ [] :=
  Rdcman.shown_ne_nil label.trimmed label.nonblank

variable {fields : List Field} {cells : List Cell}

lemma intoDraft_describes {s : Server} (describes : Describes s fields) (path : List Label)
    (tag : Option (List Char)) :
    intoDraft { assignAll {} fields with currentTag := tag }
      (path.map (fun label => shown label.text)) = .ok (s.imported path) := by
  have name : (assignAll {} fields).name = some (shown s.host.text) :=
    takes_name.one describes.host s.host.shown_ne_nil {}
  have display : (assignAll {} fields).displayName = (orEmpty s.displayName).map shown :=
    takes_displayName.optional s.displayTrimmed describes.displayName rfl
  have user : (assignAll {} fields).userName = (orEmpty s.user).map shown :=
    takes_userName.optional s.userTrimmed describes.user rfl
  have domain : (assignAll {} fields).domain = (orEmpty s.domain).map shown :=
    takes_domain.optional s.domainTrimmed describes.domain rfl
  have port : (assignAll {} fields).port = s.port := by
    have told := describes.port
    cases given : s.port with
    | none =>
      rw [given] at told
      exact takes_port.absent told {}
    | some n =>
      rw [given] at told
      have digits : shown (Nat.toDigits 10 n) ≠ [] := by
        rw [shown_toDigits]
        exact Nat.toDigits_ne_nil
      rw [takes_port.one told digits, shown_toDigits, parseUnsigned_toDigits (s.portRange n given)]
      rfl
  have shows : ((orEmpty s.displayName).map shown).filter (fun value => !value.isEmpty) =
      (orEmpty s.displayName).map shown := by
    unfold orEmpty
    cases given : s.displayName with
    | none => rfl
    | some t =>
      by_cases empty : t = []
      · rw [empty]
        rfl
      · have kept := Rdcman.shown_ne_nil (s.displayTrimmed t given) empty
        simp [Option.filter_some, empty, kept]
  have path' : (path.map (fun label => shown label.text)).filter (fun segment => !segment.isEmpty) =
      path.map (fun label => shown label.text) := by
    rw [filter_eq_self]
    intro segment member
    obtain ⟨label, -, rfl⟩ := mem_map.mp member
    simpa using label.shown_ne_nil
  rw [intoDraft]
  simp only [name, display, user, domain, port, shows, path']
  rw [Server.imported, Server.display]
  cases orEmpty s.displayName <;> rfl

lemma isTagName_of_all {tag : List Char}
    (start : tag.head?.any (fun c => c != '?' && c != '!') = true)
    (all : tag.all (fun c => !isWhitespace c && c != '/' && c != '>') = true) :
    IsTagName tag := by
  cases tag with
  | nil => cases start
  | cons c tag =>
    have first : c ≠ '?' ∧ c ≠ '!' := by simpa using start
    refine ⟨cons_ne_nil c tag, ?_, ?_, ?_⟩
    · exact fun same => first.1 (Option.some.inj same)
    · exact fun same => first.2 (Option.some.inj same)
    · intro d member
      have kept := all_eq_true.mp all d member
      simpa [and_assoc] using kept

lemma isTagName_server : IsTagName "server".toList :=
  isTagName_of_all rfl rfl

lemma isTagName_group : IsTagName "group".toList :=
  isTagName_of_all rfl rfl

lemma isTagName_properties : IsTagName "properties".toList :=
  isTagName_of_all rfl rfl

lemma properties_ne_nil {name : List Char} (named : values "name".toList fields = [name]) :
    fields ≠ [] := by
  rintro rfl
  cases named

variable (drafts warnings stack) in
/-- The properties of a server are read as its other parts are. -/
lemma read_properties_serving (valid : ∀ f ∈ fields, f.Valid)
    (written : WritesPart "properties".toList fields cells) :
    ∃ tag, (serving drafts warnings stack {}).read cells =
      serving drafts warnings stack { assignAll {} fields with currentTag := tag } := by
  cases written with
  | selfClosing empty closes =>
    refine ⟨none, ?_⟩
    rw [read_selfClosing isTagName_properties closes, empty]
    rfl
  | element opens inside closes =>
    obtain ⟨tag, read⟩ := read_fields_serving drafts warnings stack inside valid {} none
    refine ⟨tag, ?_⟩
    rw [Reader.read_cons, read_opens isTagName_properties opens, Reader.read_append]
    have entered : readOpen (serving drafts warnings stack {}) (asciiLower "properties".toList) =
        serving drafts warnings stack {} := rfl
    have left : ∀ s, readClose (serving drafts warnings stack s)
        (asciiLower "properties".toList) = serving drafts warnings stack s := fun s => rfl
    rw [entered]
    refine (congrArg (fun r => Reader.read r _) read).trans ?_
    rw [read_closes isTagName_properties closes, left]

lemma read_properties_naming (valid : ∀ f ∈ fields, f.Valid) {name : List Char}
    (nonempty : name ≠ []) (named : values "name".toList fields = [name])
    (written : WritesPart "properties".toList fields cells) :
    (resting drafts warnings (stack ++ [[]])).read cells =
      resting drafts warnings (stack ++ [shown name]) := by
  cases written with
  | selfClosing empty closes => exact absurd empty (properties_ne_nil named)
  | element opens inside closes =>
    have entered : readOpen (resting drafts warnings (stack ++ [[]]))
        (asciiLower "properties".toList) = naming drafts warnings (stack ++ [[]]) none := by
      have occupied : (resting drafts warnings (stack ++ [[]])).folderStack ≠ [] := by
        simp [resting]
      exact if_pos occupied
    rw [Reader.read_cons, read_opens isTagName_properties opens, entered, Reader.read_append,
      read_fields_naming inside valid, nameFrom_named named nonempty,
      read_closes isTagName_properties closes]
    rfl

lemma read_server {s : Server} (written : WritesServer s cells) (path : List Label) :
    (resting drafts warnings (path.map (fun label => shown label.text))).read cells =
      resting (drafts ++ [s.imported path]) warnings
        (path.map (fun label => shown label.text)) := by
  obtain ⟨opening, properties, fields, parts, inside, closing, rfl, opens, first, second, closes,
    fieldsValid, partsValid, describes⟩ := written
  let stack := path.map (fun label => shown label.text)
  obtain ⟨tag₁, read₁⟩ := read_properties_serving drafts warnings stack fieldsValid first
  obtain ⟨tag₂, read₂⟩ := read_parts_serving drafts warnings stack second partsValid (assignAll {} fields) tag₁
  have all : assignAll (assignAll {} fields) (parts.flatMap Part.fields) =
      assignAll {} (fields ++ parts.flatMap Part.fields) := by
    rw [assignAll, assignAll, assignAll, foldl_append]
  have entered : readOpen (resting drafts warnings stack) (asciiLower "server".toList) =
      serving drafts warnings stack {} := rfl
  rw [Reader.read_cons, read_opens isTagName_server opens, entered, Reader.read_append,
    Reader.read_append, read₁, read₂, read_closes isTagName_server closes, all]
  have left : ∀ r, readClose r (asciiLower "server".toList) = closeServer r := fun r => rfl
  rw [left, closeServer]
  simp only [serving, stack, intoDraft_describes describes path tag₂]
  rfl

lemma read_forest {forest : Forest} (written : WritesForest forest cells) (path : List Label)
    (drafts : List ImportedConnectionDraft) :
    (resting drafts warnings (path.map (fun label => shown label.text))).read cells =
      resting (drafts ++ (forest.entries path).map (fun entry => entry.2.imported entry.1)) warnings
        (path.map (fun label => shown label.text)) := by
  induction written generalizing path drafts with
  | nil => rw [Reader.read_nil, Forest.entries, map_nil, append_nil]
  | server first after ih =>
    rw [Reader.read_append, read_server first, ih, Forest.entries, map_cons, append_assoc]
    rfl
  | @group name children rest opening closing fields parts properties others inside more opens first
      second holds closes after fieldsValid partsValid named inner outer =>
    have entered : ∀ stack, readOpen (resting drafts warnings stack)
        (asciiLower "group".toList) = resting drafts warnings (stack ++ [[]]) := fun _ => rfl
    have left : ∀ drafts stack, readClose (resting drafts warnings (stack ++ [shown name.text]))
        (asciiLower "group".toList) = resting drafts warnings stack := by
      intro drafts stack
      have dropped : (stack ++ [shown name.text]).dropLast = stack := dropLast_concat
      exact congrArg (resting drafts warnings) dropped
    have deeper := inner (path ++ [name]) drafts
    rw [map_append] at deeper
    rw [cons_append, Reader.read_cons, read_opens isTagName_group opens, entered,
      Reader.read_append, Reader.read_append, Reader.read_append, Reader.read_append,
      read_properties_naming fieldsValid name.nonblank named first,
      read_parts_resting second partsValid]
    refine (congrArg (fun r => Reader.read (Reader.read r _) _) deeper).trans ?_
    rw [read_closes isTagName_group closes]
    refine (congrArg (fun r => Reader.read r _) (left _ _)).trans ?_
    rw [outer, Forest.entries, map_append, append_assoc]

/-- Outside of all groups, other tags and all texts change nothing. -/
lemma readEvent_outer {e : XmlEvent} (outer : e.IsOuter) :
    readEvent (resting drafts warnings []) e = resting drafts warnings [] := by
  have group : ∀ tag, isGroupTag tag = false → ¬ isGroupTag tag = true := fun tag h same =>
    Bool.false_ne_true (h.symm.trans same)
  cases e with
  | text t => rfl
  | openTag name selfClosing =>
    cases selfClosing with
    | true => rfl
    | false =>
      rw [readEvent, readOpen, if_neg (group _ outer.1), if_neg outer.2]
      split <;> rfl
  | closeTag name =>
    rw [readEvent, readClose, if_neg (group _ outer.1), if_neg outer.2]
    split <;> rfl

lemma read_outer (outer : ∀ c ∈ cells, c.IsOuter) :
    (resting drafts warnings []).read cells = resting drafts warnings [] := by
  have events : ∀ e ∈ cells.flatMap Cell.events, e.IsOuter := by
    intro e member
    obtain ⟨c, inside, member⟩ := mem_flatMap.mp member
    rcases mem_append.mp member with text | tag
    · unfold textEvents at text
      simp only at text
      split at text
      · cases text
      · rw [mem_singleton] at text
        rw [text]
        trivial
    · exact (outer c inside).2.2 e tag
  unfold Reader.read
  generalize cells.flatMap Cell.events = es at events
  induction es with
  | nil => rfl
  | cons e es ih =>
    obtain ⟨first, later⟩ := forall_mem_cons.mp events
    rw [foldl_cons, readEvent_outer first, ih later]

end States

end Import.Rdcman
