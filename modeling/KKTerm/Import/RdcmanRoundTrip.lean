import KKTerm.Import.RdcmanReading
import Mathlib.Data.List.Forall2

/-!
# Reading an RDCMan document back

The drafts of a document agree with the servers that were written, unless a text of theirs
holds an entity itself, which is then read as well.
-/

namespace Import.Rdcman

open Entities List Text Reader

section Clean
variable {tag : List Char} {c : Cell}

lemma no_bracket_blank {t : List Char} (blank : Blank t) : '<' ∉ t := by
  intro member
  exact absurd (blank _ member) (by decide)

section
variable (name : IsTagName tag)
include name

lemma no_bracket_tag : '>' ∉ tag :=
  fun member => (name.2.2.2 _ member).2.2 rfl

lemma Opens.clean (opens : Opens tag c) : c.Clean := by
  obtain ⟨blank, a, raw, attributes, -⟩ := opens
  refine ⟨no_bracket_blank blank, ?_⟩
  rw [raw, mem_append]
  exact fun member => member.elim (no_bracket_tag name) attributes.2

lemma OpensAndCloses.clean (closes : OpensAndCloses tag c) : c.Clean := by
  obtain ⟨blank, a, raw, attributes⟩ := closes
  refine ⟨no_bracket_blank blank, ?_⟩
  rw [raw, mem_append, mem_append, mem_singleton]
  rintro (member | member | slash)
  · exact no_bracket_tag name member
  · exact attributes.2 member
  · exact absurd slash (by decide)

lemma no_bracket_close : '>' ∉ '/' :: tag := by
  rw [mem_cons]
  rintro (slash | member)
  · exact absurd slash (by decide)
  · exact no_bracket_tag name member

lemma Closes.clean (closes : Closes tag c) : c.Clean := by
  refine ⟨no_bracket_blank closes.1, ?_⟩
  rw [closes.2]
  exact no_bracket_close name

end

lemma no_bracket_escape (value : List Char) : '<' ∉ escape value := by
  intro member
  obtain ⟨a, -, inside⟩ := mem_flatMap.mp member
  rcases encodeChar_cases '&' (ampersand :: otherEntities) a with
    ⟨e, known, -, written⟩ | ⟨other, written⟩
  · rw [written] at inside
    have none : ∀ e ∈ ampersand :: otherEntities, '<' ∉ e.word '&' := by decide
    exact none e known inside
  · rw [written, mem_singleton] at inside
    have known : { char := '<', name := "lt;".toList } ∈ ampersand :: otherEntities :=
      mem_cons_of_mem _ mem_cons_self
    exact other _ known inside

lemma ClosesText.clean {value : List Char} (name : IsTagName tag)
    (closes : ClosesText tag value c) : c.Clean := by
  obtain ⟨⟨front, back, before, blank, blank'⟩, raw⟩ := closes
  refine ⟨?_, raw ▸ no_bracket_close name⟩
  rw [before, mem_append, mem_append]
  rintro (member | member | member)
  · exact no_bracket_blank blank member
  · exact no_bracket_escape value member
  · exact no_bracket_blank blank' member

end Clean

variable {cells : List Cell}

lemma WritesField.clean {f : Field} (written : WritesField f cells) (valid : f.Valid) :
    ∀ c ∈ cells, c.Clean := by
  cases written with
  | element opens closes =>
    exact forall_mem_cons.mpr ⟨opens.clean valid.1.1,
      forall_mem_cons.mpr ⟨closes.clean valid.1.1, fun _ h => nomatch h⟩⟩
  | selfClosing empty closes =>
    exact forall_mem_cons.mpr ⟨closes.clean valid.1.1, fun _ h => nomatch h⟩

variable (tag : List Char) {fields : List Field} {forest : Forest}

lemma WritesFields.clean (written : WritesFields fields cells) (valid : ∀ f ∈ fields, f.Valid) :
    ∀ c ∈ cells, c.Clean := by
  induction written with
  | nil => exact fun _ h => nomatch h
  | cons first rest ih =>
    obtain ⟨here, later⟩ := forall_mem_cons.mp valid
    exact forall_mem_append.mpr ⟨first.clean here, ih later⟩

lemma WritesPart.clean {tag : List Char} (written : WritesPart tag fields cells)
    (name : IsTagName tag) (valid : ∀ f ∈ fields, f.Valid) : ∀ c ∈ cells, c.Clean := by
  cases written with
  | element opens inside closes =>
    exact forall_mem_cons.mpr ⟨opens.clean name, forall_mem_append.mpr
      ⟨inside.clean valid, forall_mem_cons.mpr ⟨closes.clean name, fun _ h => nomatch h⟩⟩⟩
  | selfClosing empty closes => exact forall_mem_cons.mpr ⟨closes.clean name, fun _ h => nomatch h⟩

lemma WritesParts.clean {parts : List Part} (written : WritesParts parts cells)
    (valid : ∀ p ∈ parts, p.Valid) : ∀ c ∈ cells, c.Clean := by
  induction written with
  | nil => exact fun _ h => nomatch h
  | cons first rest ih =>
    obtain ⟨here, later⟩ := forall_mem_cons.mp valid
    exact forall_mem_append.mpr ⟨first.clean here.1.1 here.2, ih later⟩

lemma WritesForest.clean (written : WritesForest forest cells) : ∀ c ∈ cells, c.Clean := by
  induction written with
  | nil => exact fun _ h => nomatch h
  | server first after ih =>
    obtain ⟨opening, properties, fields, parts, inside, closing, rfl, opens, props, second, closes,
      fieldsValid, partsValid, -⟩ := first
    simp only [forall_mem_append, forall_mem_cons]
    exact ⟨⟨opens.clean isTagName_server, ⟨props.clean isTagName_properties fieldsValid,
      second.clean partsValid⟩, closes.clean isTagName_server, fun _ h => nomatch h⟩, ih⟩
  | group opens first second holds closes after fieldsValid partsValid named inner outer =>
    simp only [forall_mem_append, forall_mem_cons]
    exact ⟨⟨opens.clean isTagName_group, ⟨⟨first.clean isTagName_properties fieldsValid,
      second.clean partsValid⟩, inner⟩, closes.clean isTagName_group, fun _ h => nomatch h⟩, outer⟩

/-- A document gives a draft for each server, in order, and no warning. -/
lemma parse_document {text : List Char} (document : IsDocument forest text) :
    parseRdcman text = {
      format := "rdcman".toList
      drafts := (forest.entries []).map (fun entry => entry.2.imported entry.1)
      warnings := [] } := by
  obtain ⟨header, cells, footer, trailing, rfl, before, written, behind, free⟩ := document
  have clean : ∀ c ∈ header ++ cells ++ footer, c.Clean := by
    simp only [forall_mem_append]
    exact ⟨⟨fun c member => ⟨(before c member).1, (before c member).2.1⟩, written.clean⟩,
      fun c member => ⟨(behind c member).1, (behind c member).2.1⟩⟩
  have tail : ∀ r : Reader, r.groupInProperties = false → r.inServer = false →
      (textEvents trailing).foldl readEvent r = r := by
    intro r group server
    unfold textEvents
    simp only
    split
    · rfl
    · simp only [foldl_cons, foldl_nil, readEvent, readText, group, server]
      rfl
  let drafts := (forest.entries []).map (fun entry => entry.2.imported entry.1)
  have inside : (resting [] [] []).read cells = resting drafts [] [] := read_forest written [] []
  have all : read {} (header ++ cells ++ footer) = resting drafts [] [] := by
    have start : (resting [] [] []).read header = resting [] [] [] := read_outer before
    rw [read_append, read_append]
    refine (congrArg (fun r => read (read r _) _) start).trans ?_
    refine (congrArg (fun r => read r _) inside).trans ?_
    exact read_outer behind
  have events : (iterXmlEvents ((header ++ cells ++ footer).flatMap Cell.render ++ trailing)).foldl
      readEvent {} = resting drafts [] [] := by
    rw [iterXmlEvents_cells clean free, foldl_append]
    refine (congrArg (fun r => (textEvents trailing).foldl readEvent r) all).trans ?_
    exact tail _ rfl rfl
  rw [parseRdcman, events]
  rfl

/-- A draft has what the server had, under the same groups. -/
def Agrees (entry : List Label × Server) (draft : ImportedConnectionDraft) : Prop :=
  draft.host = entry.2.host.text ∧ draft.name = entry.2.display ∧
    draft.user = userOf (orEmpty entry.2.user) (orEmpty entry.2.domain) ∧
    draft.port = entry.2.port ∧ draft.folderPath = entry.1.map Label.text

/-- The texts that a draft shows of a server: the domain only together with a user. -/
def texts (entry : List Label × Server) : List (List Char) :=
  entry.1.map Label.text ++ [entry.2.host.text, entry.2.display] ++
    (orEmpty entry.2.user).elim [] (fun user => user :: (orEmpty entry.2.domain).toList)

lemma orEmpty_trimmed {text : Option (List Char)} (trimmed : ∀ t ∈ text, trim t = t)
    {t : List Char} (h : orEmpty text = some t) : trim t = t ∧ t ≠ [] := by
  obtain ⟨given, nonempty⟩ := Option.filter_eq_some_iff.mp h
  exact ⟨trimmed t given, by simpa using nonempty⟩

/-- No character is gained, so that both parts of a user come back or neither does. -/
lemma userOf_shown (user domain : Option (List Char))
    (userTrimmed : ∀ t ∈ user, trim t = t ∧ t ≠ [])
    (domainTrimmed : ∀ t ∈ domain, trim t = t ∧ t ≠ []) :
    userOf (user.map shown) (domain.map shown) = userOf user domain ↔
      ∀ t ∈ user.elim [] (fun user => user :: domain.toList), Plain t := by
  cases user with
  | none => exact ⟨fun _ t h => (nomatch h), fun _ => rfl⟩
  | some u =>
    obtain ⟨trimU, nonemptyU⟩ := userTrimmed u rfl
    have plainU := shown_eq_self trimU
    cases domain with
    | none => simpa [userOf] using plainU
    | some d =>
      obtain ⟨trimD, nonemptyD⟩ := domainTrimmed d rfl
      have plainD := shown_eq_self trimD
      have both : shown u ≠ [] ∧ shown d ≠ [] :=
        ⟨shown_ne_nil trimU nonemptyU, shown_ne_nil trimD nonemptyD⟩
      simp only [Option.map_some, userOf, if_pos both,
        if_pos (show u ≠ [] ∧ d ≠ [] from ⟨nonemptyU, nonemptyD⟩), Option.elim_some,
        Option.toList_some, forall_mem_cons]
      rw [← plainU, ← plainD]
      constructor
      · intro same
        have size := congrArg length same
        rw [length_append, length_append, length_cons, length_cons] at size
        have shorterU := length_shown_le u
        have shorterD := length_shown_le d
        obtain ⟨first, second⟩ := append_inj same (by omega)
        exact ⟨(List.cons.inj second).2, first, fun _ h => nomatch h⟩
      · rintro ⟨first, second, -⟩
        rw [first, second]

lemma agrees_imported (entry : List Label × Server) :
    Agrees entry (entry.2.imported entry.1) ↔ ∀ t ∈ texts entry, Plain t := by
  obtain ⟨path, s⟩ := entry
  have host := shown_eq_self s.host.trimmed
  have display : shown s.display = s.display ↔ Plain s.display := by
    apply shown_eq_self
    rw [Server.display]
    cases given : orEmpty s.displayName with
    | none => exact s.host.trimmed
    | some t => exact (orEmpty_trimmed s.displayTrimmed given).1
  have folders : path.map (fun label => shown label.text) = path.map Label.text ↔
      ∀ t ∈ path.map Label.text, Plain t := by
    rw [map_inj_left, forall_mem_map]
    exact forall₂_congr (fun label _ => shown_eq_self label.trimmed)
  have user := userOf_shown (orEmpty s.user) (orEmpty s.domain)
    (fun t given => orEmpty_trimmed s.userTrimmed given)
    (fun t given => orEmpty_trimmed s.domainTrimmed given)
  rw [texts, forall_mem_append, forall_mem_append, forall_mem_cons,
    forall_mem_singleton, ← host, ← display, ← folders, ← user]
  constructor
  · rintro ⟨host, display, user, -, folders⟩
    exact ⟨⟨folders, host, display⟩, user⟩
  · rintro ⟨⟨folders, host, display⟩, user⟩
    exact ⟨host, display, user, rfl, folders⟩

/-- A document comes back as it was exactly when none of the texts that its drafts show has
an entity other than that of the ampersand in it. -/
theorem document_comes_back {forest : Forest} {text : List Char}
    (document : IsDocument forest text) :
    List.Forall₂ Agrees (forest.entries []) (parseRdcman text).drafts ↔
      ∀ entry ∈ forest.entries [], ∀ t ∈ texts entry, ∀ e ∈ otherEntities, ¬ e.word '&' <:+: t := by
  rw [parse_document document, forall₂_map_right_iff, forall₂_same]
  exact forall₂_congr (fun entry _ => agrees_imported entry)

def sampleServer (name : List Char) (trimmed : Text.trim name = name) : Server where
  host := { text := "web01".toList, trimmed := by decide, nonblank := by decide }
  displayName := some name
  user := none
  domain := none
  port := none
  displayTrimmed := by
    rintro t ⟨⟩
    exact trimmed
  userTrimmed := nofun
  domainTrimmed := nofun
  portRange := nofun

def sampleForest (name : List Char) (trimmed : Text.trim name = name) : Forest :=
  .group { text := "Lab".toList, trimmed := by decide, nonblank := by decide }
    (.server (sampleServer name trimmed) .nil) .nil

def openCell (tag : List Char) : Cell :=
  { before := "\n".toList, raw := tag }

def closeCell (tag text : List Char) : Cell :=
  { before := text, raw := '/' :: tag }

def fieldCells (f : Field) : List Cell :=
  [openCell f.tag, closeCell f.tag (escape f.value)]

def sampleFields (name : List Char) : List Field :=
  [{ tag := "displayName".toList, value := name }, { tag := "name".toList, value := "web01".toList }]

def partCells (tag : List Char) (fields : List Field) : List Cell :=
  openCell tag :: (fields.flatMap fieldCells ++ [closeCell tag []])

def sampleCells (name : List Char) : List Cell :=
  openCell "group".toList ::
    (partCells "properties".toList [{ tag := "name".toList, value := "Lab".toList }] ++ [] ++
      (openCell "server".toList :: (partCells "properties".toList (sampleFields name) ++ [] ++
        [closeCell "server".toList []]) ++ []) ++ [closeCell "group".toList []]) ++ []

def sampleText (name : List Char) : List Char :=
  "<?xml version=\"1.0\"?>".toList ++ (sampleCells name).flatMap Cell.render

lemma opens_openCell : Opens tag (openCell tag) :=
  ⟨by simp [openCell, Blank, isWhitespace], [], (append_nil tag).symm,
    ⟨fun _ h => (nomatch h), not_mem_nil⟩, nofun⟩

lemma closes_closeCell : Closes tag (closeCell tag []) :=
  ⟨fun _ h => (nomatch h), rfl⟩

lemma writesFields_fieldCells (fields : List Field) :
    WritesFields fields (fields.flatMap fieldCells) := by
  induction fields with
  | nil => exact .nil
  | cons f fields ih =>
    have text : ClosesText f.tag f.value (closeCell f.tag (escape f.value)) :=
      ⟨⟨[], [], (append_nil _).symm, fun _ h => (nomatch h), fun _ h => (nomatch h)⟩, rfl⟩
    exact .cons (.element (opens_openCell f.tag) text) ih

lemma writesPart_partCells (fields : List Field) : WritesPart tag fields (partCells tag fields) :=
  .element (opens_openCell tag) (writesFields_fieldCells fields) (closes_closeCell tag)

lemma isOrdinary_of_all {tag : List Char}
    (start : tag.head?.any (fun c => c != '?' && c != '!') = true)
    (all : tag.all (fun c => !isWhitespace c && c != '/' && c != '>') = true)
    (other : isGroupTag (asciiLower tag) = false)
    (apart : asciiLower tag ≠ "server".toList ∧ asciiLower tag ≠ "properties".toList) :
    IsOrdinary tag :=
  ⟨isTagName_of_all start all, other, apart⟩

lemma sample_document (name : List Char) (trimmed : trim name = name) :
    IsDocument (sampleForest name trimmed) (sampleText name) := by
  have nameTag : IsOrdinary "name".toList := isOrdinary_of_all rfl rfl rfl ⟨by decide, by decide⟩
  have displayTag : IsOrdinary "displayName".toList :=
    isOrdinary_of_all rfl rfl rfl ⟨by decide, by decide⟩
  have group : ∀ f ∈ [({ tag := "name".toList, value := "Lab".toList } : Field)], f.Valid :=
    forall_mem_singleton.mpr ⟨nameTag, by decide⟩
  have server : ∀ f ∈ sampleFields name, f.Valid :=
    forall_mem_cons.mpr ⟨⟨displayTag, trimmed⟩, forall_mem_singleton.mpr ⟨nameTag, by decide⟩⟩
  have none : ∀ p ∈ ([] : List Part), p.Valid := fun _ h => nomatch h
  have written : WritesServer (sampleServer name trimmed)
      (openCell "server".toList :: (partCells "properties".toList (sampleFields name) ++ [] ++
        [closeCell "server".toList []])) :=
    ⟨_, _, sampleFields name, [], [], _, rfl, opens_openCell _, writesPart_partCells _ _, .nil,
      closes_closeCell _, server, none, rfl, rfl, rfl, rfl, rfl⟩
  refine ⟨[{ before := [], raw := "?xml version=\"1.0\"?".toList }], sampleCells name, [], [], ?_, ?_,
    ?_, fun _ h => (nomatch h), not_mem_nil⟩
  · rw [append_nil, append_nil]
    rfl
  · refine forall_mem_singleton.mpr ⟨not_mem_nil, by decide, ?_⟩
    intro e h
    cases h
  · exact .group (opens_openCell _) (writesPart_partCells _ _) .nil (.server written .nil)
      (closes_closeCell _) .nil group none rfl

theorem plain_name_comes_back :
    List.Forall₂ Agrees ((sampleForest "R&D 01".toList (by decide)).entries [])
      (parseRdcman (sampleText "R&D 01".toList)).drafts :=
  (document_comes_back (sample_document "R&D 01".toList (by decide))).mpr (by decide)

/-- A display name that holds the text of an entity. -/
theorem entity_decoded_twice :
    IsDocument (sampleForest "a &lt; b".toList (by decide)) (sampleText "a &lt; b".toList) ∧
      ¬ List.Forall₂ Agrees ((sampleForest "a &lt; b".toList (by decide)).entries [])
        (parseRdcman (sampleText "a &lt; b".toList)).drafts := by
  have trimmed : trim "a &lt; b".toList = "a &lt; b".toList := by decide
  have document := sample_document "a &lt; b".toList trimmed
  refine ⟨document, ?_⟩
  rw [parse_document document]
  intro agrees
  cases agrees with
  | cons first rest =>
    have name : shown "a &lt; b".toList = "a &lt; b".toList := first.2.1
    exact absurd name (by decide)

end Import.Rdcman
