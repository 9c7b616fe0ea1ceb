import KKTerm.Import.Draft
import KKTerm.Library.Delimited
import KKTerm.Library.PaddedOrder
import KKTerm.Library.Text
import Mathlib.Data.Char

/-!
# Tables of connections

A text with separated cells is read in three steps: its first line tells the delimiter, a
reader splits the text into rows of cells, and the names in the first row tell which cell
of a row is what.
-/

namespace Import

open PaddedOrder Text

def candidates : List Char :=
  [',', '\t', ';', '|']

def firstLine (text : List Char) : List Char :=
  (lines text).head?.getD []

/-- Of delimiters that occur equally often, `max_by_key` takes the last one. -/
def detectDelimiter (text : List Char) : Char :=
  (maxBy (fun a b => compare ((firstLine text).count a) ((firstLine text).count b))
    candidates).getD ','

structure Scan where
  rows : List (List (List Char)) := []
  current : List (List Char) := []
  field : List Char := []
  inQuotes : Bool := false

namespace Scan

def push (s : Scan) (c : Char) : Scan :=
  { s with field := s.field ++ [c] }

def endField (s : Scan) : Scan :=
  { s with current := s.current ++ [s.field], field := [] }

def endRow (s : Scan) : Scan :=
  { s with rows := s.rows ++ [s.current ++ [s.field]], current := [], field := [] }

def finish (s : Scan) : List (List (List Char)) :=
  if s.field ≠ [] ∨ s.current ≠ [] then s.rows ++ [s.current ++ [s.field]] else s.rows

/-- One character is read with a look at the next one, which may be passed by as well. -/
def read (delimiter : Char) (s : Scan) (c : Char) (peek : Option Char) : Scan × Bool :=
  if s.inQuotes then
    if c = '"' then
      if peek = some '"' then (s.push '"', true) else ({ s with inQuotes := false }, false)
    else (s.push c, false)
  else if c = '"' then ({ s with inQuotes := true }, false)
  else if c = delimiter then (s.endField, false)
  else if c = '\r' then (s.endRow, peek = some '\n')
  else if c = '\n' then (s.endRow, false)
  else (s.push c, false)

end Scan

def scan (delimiter : Char) : Scan → List Char → Scan
  | s, [] => s
  | s, [c] => (s.read delimiter c none).1
  | s, c :: next :: rest =>
    if (s.read delimiter c (some next)).2 then scan delimiter (s.read delimiter c (some next)).1 rest
    else scan delimiter (s.read delimiter c (some next)).1 (next :: rest)

def parseDelimited (text : List Char) (delimiter : Char) : List (List (List Char)) :=
  (scan delimiter {} text).finish

structure HeaderIndexes where
  name : Option Nat := none
  connectionType : Option Nat := none
  host : Option Nat := none
  port : Option Nat := none
  user : Option Nat := none
  folder : Option Nat := none
  deriving DecidableEq

def HeaderIndexes.isEmpty (indexes : HeaderIndexes) : Bool :=
  indexes = {}

def HeaderIndexes.note (indexes : HeaderIndexes) (column : Nat) (value : List Char) :
    HeaderIndexes :=
  if value ∈ ["name", "label", "title", "displayname"].map String.toList then
    { indexes with name := some column }
  else if value ∈ ["type", "kind", "protocol"].map String.toList then
    { indexes with connectionType := some column }
  else if value ∈ ["host", "hostname", "address", "ip"].map String.toList then
    { indexes with host := some column }
  else if value = "port".toList then { indexes with port := some column }
  else if value ∈ ["user", "username", "login"].map String.toList then
    { indexes with user := some column }
  else if value ∈ ["folder", "group", "category", "path"].map String.toList then
    { indexes with folder := some column }
  else indexes

def headerIndexes (header : List (List Char)) : HeaderIndexes :=
  header.zipIdx.foldl (fun indexes (value, column) => indexes.note column value) {}

def headerRow (row : List (List Char)) : List (List Char) :=
  row.map (fun cell => asciiLower (trim cell))

def normalizeConnectionType (value : List Char) : Option ConnectionType :=
  if value = [] then some .ssh
  else
    let value := asciiLower value
    if value ∈ ["ssh", "sftp"].map String.toList then some .ssh
    else if value = "telnet".toList then some .telnet
    else if value ∈ ["serial", "com"].map String.toList then some .serial
    else if value ∈ ["url", "web", "http", "https"].map String.toList then some .url
    else if value ∈ ["rdp", "remotedesktop", "remote-desktop", "mstsc"].map String.toList then
      some .rdp
    else if value = "vnc".toList then some .vnc
    else if value ∈ ["local", "shell"].map String.toList then some .localShell
    else none

def splitFolderPath (value : List Char) : List (List Char) :=
  ((value.splitOnP (fun c => c == '/' || c == '\\')).map trim).filter (· ≠ [])

/-- The cell of a column; without a header the columns have fixed places. -/
def cellOf (row : List (List Char)) (hasHeader : Bool) (index : Option Nat) (place : Nat) :
    Option (List Char) :=
  (index.or (if hasHeader then none else some place)).bind (fun i => row[i]?)

def draftFromRow (row : List (List Char)) (indexes : HeaderIndexes) (hasHeader : Bool) :
    Except (List Char) ImportedConnectionDraft :=
  let host := ((cellOf row hasHeader indexes.host 2).map trim).getD []
  let rawType := ((cellOf row hasHeader indexes.connectionType 1).map trim).getD []
  match normalizeConnectionType rawType with
  | none => .error ("unknown connection type \"".toList ++ rawType ++ ['"'])
  | some connectionType =>
    if host = [] ∧ connectionType ≠ .localShell then .error "missing host".toList
    else .ok {
      name := (((cellOf row hasHeader indexes.name 0).map trim).filter (· ≠ [])).getD host
      host
      user := ((cellOf row hasHeader indexes.user 4).map trim).getD []
      url := none
      port := (cellOf row hasHeader indexes.port 3).bind
        (fun value => parseUnsigned (2 ^ 16 - 1) (trim value))
      keyPath := none
      proxyJump := none
      connectionType
      folderPath := ((cellOf row hasHeader indexes.folder 5).map splitFolderPath).getD [] }

/-- One row adds a draft or a warning, and an empty row neither. -/
def importRow (indexes : HeaderIndexes) (hasHeader : Bool) (preview : ImportFilePreview)
    (index : Nat) (row : List (List Char)) : ImportFilePreview :=
  if row.all (fun cell => trim cell = []) then preview
  else
    let rowNumber := if hasHeader then index + 2 else index + 1
    match draftFromRow row indexes hasHeader with
    | .ok draft => { preview with drafts := preview.drafts ++ [draft] }
    | .error message =>
      { preview with
        warnings := preview.warnings ++
          ["Row ".toList ++ Nat.toDigits 10 rowNumber ++ ": ".toList ++ message] }

def importRows (delimiter : Char) (rows : List (List (List Char))) : ImportFilePreview :=
  match rows with
  | [] => { format := "csv".toList, drafts := [], warnings := [] }
  | first :: rest =>
    let indexes := headerIndexes (headerRow first)
    let hasHeader := !indexes.isEmpty
    let dataRows := if hasHeader then rest else first :: rest
    dataRows.zipIdx.foldl (fun preview (row, index) => importRow indexes hasHeader preview index row)
      { format := if delimiter = '\t' then "tsv".toList else "csv".toList
        drafts := []
        warnings := [] }

def parseCsvOrTsv (text : List Char) : ImportFilePreview :=
  importRows (detectDelimiter text) (parseDelimited text (detectDelimiter text))

end Import

/-!
# Reading a written table

A table is written with either line end, and its last row with or without one. The reader
gives back the table for any cells. The delimiter is told from the first line of the text,
which is not the first row when a name in the header is broken into lines.
-/

namespace Import

open Delimited PaddedOrder List

inductive LineEnd where
  | lf
  | crlf
  deriving DecidableEq

def LineEnd.text : LineEnd → List Char
  | .lf => ['\n']
  | .crlf => ['\r', '\n']

/-- The last row ends with a line end or with the text. -/
def encode (delimiter : Char) (lineEnd : LineEnd) (ended : Bool) (table : List (List (List Char))) :
    List Char :=
  lineEnd.text.intercalate (table.map (writeRow delimiter)) ++ if ended then lineEnd.text else []

section Reading
variable {delimiter c : Char} {s : Scan} {cell rest : List Char}

/-- The delimiters are read as such outside of quotes. -/
structure Separates (delimiter : Char) : Prop where
  quote : delimiter ≠ '"'
  cr : delimiter ≠ '\r'
  lf : delimiter ≠ '\n'

lemma separates_of_mem (candidate : delimiter ∈ candidates) : Separates delimiter := by
  simp only [candidates, mem_cons, not_mem_nil, or_false] at candidate
  rcases candidate with rfl | rfl | rfl | rfl <;> exact ⟨by decide, by decide, by decide⟩

lemma scan_cons (alone : (s.read delimiter c rest.head?).2 = false) :
    scan delimiter s (c :: rest) = scan delimiter (s.read delimiter c rest.head?).1 rest := by
  cases rest with
  | nil => rfl
  | cons next rest =>
    rw [head?_cons] at alone
    rw [scan, alone]
    rfl

lemma scan_pair {next : Char} (taken : (s.read delimiter c (some next)).2 = true) :
    scan delimiter s (c :: next :: rest) =
      scan delimiter (s.read delimiter c (some next)).1 rest := by
  rw [scan, taken]
  rfl

lemma scan_plain (outside : s.inQuotes = false) (plain : ∀ c ∈ cell, ¬ Special delimiter c) :
    scan delimiter s (cell ++ rest) = scan delimiter { s with field := s.field ++ cell } rest := by
  induction cell generalizing s with
  | nil =>
    rw [append_nil]
    rfl
  | cons c cell ih =>
    obtain ⟨here, later⟩ := forall_mem_cons.mp plain
    have parts : c ≠ delimiter ∧ c ≠ '"' ∧ c ≠ '\r' ∧ c ≠ '\n' := by
      simpa only [Special, not_or] using here
    have pushed (peek : Option Char) : s.read delimiter c peek = (s.push c, false) := by
      simp [Scan.read, outside, parts]
    rw [cons_append, scan_cons (by rw [pushed]), pushed]
    have next := ih (s := s.push c) outside later
    simpa [Scan.push] using next

lemma scan_literal (inside : s.inQuotes = true) (closes : rest.head? ≠ some '"') :
    scan delimiter s (cell.flatMap quoteChar ++ '"' :: rest) =
      scan delimiter { s with field := s.field ++ cell, inQuotes := false } rest := by
  induction cell generalizing s with
  | nil =>
    have closed : s.read delimiter '"' rest.head? = ({ s with inQuotes := false }, false) := by
      simp [Scan.read, inside, closes]
    rw [flatMap_nil, nil_append, scan_cons (by rw [closed]), closed, append_nil]
  | cons c cell ih =>
    have next := ih (s := s.push c) inside
    rw [flatMap_cons, append_assoc]
    by_cases quote : c = '"'
    · subst quote
      have doubled : s.read delimiter '"' (some '"') = (s.push '"', true) := by
        simp [Scan.read, inside]
      have spelt : quoteChar '"' = ['"', '"'] := rfl
      rw [spelt, cons_append, cons_append, nil_append, scan_pair (by rw [doubled]), doubled, next]
      simp [Scan.push]
    · have pushed (peek : Option Char) : s.read delimiter c peek = (s.push c, false) := by
        simp [Scan.read, inside, quote]
      rw [quoteChar, if_neg quote, singleton_append, scan_cons (by rw [pushed]), pushed, next]
      simp [Scan.push]

lemma scan_escape (outside : s.inQuotes = false) (closes : rest.head? ≠ some '"') :
    scan delimiter s (escape delimiter cell ++ rest) =
      scan delimiter { s with field := s.field ++ cell } rest := by
  by_cases special : cell.any (Special delimiter ·)
  · have opened (peek : Option Char) :
        s.read delimiter '"' peek = ({ s with inQuotes := true }, false) := by
      simp [Scan.read, outside]
    rw [escape, if_pos special, cons_append, cons_append, append_assoc,
      scan_cons (by rw [opened]), opened, singleton_append, scan_literal rfl closes]
    simp [outside]
  · have plain : ∀ c ∈ cell, ¬ Special delimiter c := by simpa using special
    rw [escape_of_plain plain, scan_plain outside plain]

section
variable (separates : Separates delimiter)
include separates

lemma scan_delimiter (outside : s.inQuotes = false) :
    scan delimiter s (delimiter :: rest) = scan delimiter s.endField rest := by
  have ends (peek : Option Char) : s.read delimiter delimiter peek = (s.endField, false) := by
    simp [Scan.read, outside, separates.quote]
  rw [scan_cons (by rw [ends]), ends]

lemma scan_lineEnd (outside : s.inQuotes = false) (lineEnd : LineEnd) :
    scan delimiter s (lineEnd.text ++ rest) = scan delimiter s.endRow rest := by
  cases lineEnd with
  | lf =>
    have ends (peek : Option Char) : s.read delimiter '\n' peek = (s.endRow, false) := by
      simp [Scan.read, outside, separates.lf.symm]
    rw [LineEnd.text, singleton_append, scan_cons (by rw [ends]), ends]
  | crlf =>
    have ends : s.read delimiter '\r' (some '\n') = (s.endRow, true) := by
      simp [Scan.read, outside, separates.cr.symm]
    rw [LineEnd.text, cons_append, cons_append, scan_pair (by rw [ends]), ends, nil_append]

lemma scan_writeRow (outside : s.inQuotes = false)
    (fresh : s.field = []) (closes : rest.head? ≠ some '"') (cell : List Char)
    (row : List (List Char)) :
    ∃ s', scan delimiter s (writeRow delimiter (cell :: row) ++ rest) = scan delimiter s' rest ∧
      s'.inQuotes = false ∧ s'.rows = s.rows ∧
      s'.current ++ [s'.field] = s.current ++ cell :: row := by
  induction row generalizing s cell with
  | nil =>
    refine ⟨{ s with field := s.field ++ cell }, ?_, outside, rfl, ?_⟩
    · rw [writeRow, map_singleton, intercalate_singleton, scan_escape outside closes]
    · rw [fresh]
      rfl
  | cons next row ih =>
    obtain ⟨s', reads, outside', rows, cells⟩ :=
      @ih { s with current := s.current ++ [cell], field := [] } outside rfl next
    refine ⟨s', ?_, outside', rows, ?_⟩
    · have delimited : (delimiter :: (writeRow delimiter (next :: row) ++ rest)).head? ≠ some '"' :=
        fun same => separates.quote (Option.some.inj same)
      have split : writeRow delimiter (cell :: next :: row) ++ rest =
          escape delimiter cell ++ delimiter :: (writeRow delimiter (next :: row) ++ rest) := by
        rw [writeRow, map_cons, map_cons, intercalate_cons_cons, append_assoc,
          append_assoc, singleton_append]
        rfl
      rw [← reads, split, scan_escape outside delimited, scan_delimiter separates (by exact outside),
        Scan.endField, fresh, nil_append]
    · rw [cells, append_assoc]
      rfl

end

end Reading

lemma lineEnd_closes (lineEnd : LineEnd) (rest : List Char) :
    (lineEnd.text ++ rest).head? ≠ some '"' := by
  cases lineEnd with
  | lf => exact nofun
  | crlf => exact nofun

section Tables
variable {delimiter : Char} (separates : Separates delimiter) (lineEnd : LineEnd)
include separates

variable {row : List (List Char)} {table : List (List (List Char))}

lemma scan_line (some_ : row ≠ []) (before : List (List (List Char))) (rest : List Char) :
    scan delimiter { rows := before } (writeRow delimiter row ++ (lineEnd.text ++ rest)) =
      scan delimiter { rows := before ++ [row] } rest := by
  obtain ⟨cell, row, rfl⟩ := exists_cons_of_ne_nil some_
  obtain ⟨s, reads, outside, rows, cells⟩ := scan_writeRow (s := { rows := before }) separates rfl
    rfl (lineEnd_closes lineEnd rest) cell row
  have ended : s.endRow = { rows := before ++ [cell :: row] } := by
    rw [Scan.endRow, cells, rows, outside]
    rfl
  rw [reads, scan_lineEnd separates outside, ended]

lemma finish_row (wide : 2 ≤ row.length) (before : List (List (List Char))) :
    (scan delimiter { rows := before } (writeRow delimiter row)).finish = before ++ [row] := by
  obtain ⟨cell, row, rfl⟩ := exists_cons_of_length_pos (by omega : 0 < row.length)
  have closes : ([] : List Char).head? ≠ some '"' := nofun
  obtain ⟨s, reads, -, rows, cells⟩ := scan_writeRow (s := { rows := before }) separates rfl rfl
    closes cell row
  rw [append_nil] at reads
  have some_ : s.current ≠ [] := by
    intro none_
    have lengths := congrArg length cells
    rw [none_] at lengths
    simp only [nil_append, length_cons, length_nil] at lengths wide
    omega
  rw [reads, scan, Scan.finish, if_pos (.inr some_), cells, rows]
  rfl

lemma scan_encode (wide : ∀ row ∈ table, 2 ≤ row.length) (ended : Bool)
    (before : List (List (List Char))) (some_ : table ≠ []) :
    (scan delimiter { rows := before } (encode delimiter lineEnd ended table)).finish =
      before ++ table := by
  induction table generalizing before with
  | nil => exact absurd rfl some_
  | cons row table ih =>
    obtain ⟨here, later⟩ := forall_mem_cons.mp wide
    have filled : row ≠ [] := by
      rintro rfl
      exact absurd here (by decide)
    cases table with
    | nil =>
      rw [encode, map_singleton, intercalate_singleton]
      cases ended with
      | false =>
        rw [if_neg Bool.false_ne_true, append_nil]
        exact finish_row separates here before
      | true =>
        have line := scan_line separates lineEnd filled before []
        rw [append_nil] at line
        rw [if_pos rfl, line]
        rfl
    | cons next table =>
      have rest := ih later (before ++ [row]) (cons_ne_nil next table)
      rw [encode, map_cons] at rest
      rw [encode, map_cons, map_cons, intercalate_cons_cons, append_assoc,
        append_assoc, scan_line separates lineEnd filled, rest, append_assoc,
        singleton_append]

lemma parseDelimited_encode (wide : ∀ row ∈ table, 2 ≤ row.length) (ended : Bool)
    (some_ : table ≠ []) :
    parseDelimited (encode delimiter lineEnd ended table) delimiter = table :=
  scan_encode separates lineEnd wide ended [] some_

end Tables

section FirstLine
variable {delimiter c : Char}

/-- A carriage return before the line end does not belong to the line. -/
def stripReturn (line : List Char) : List Char :=
  if line.getLast? = some '\r' then line.dropLast else line

lemma firstLine_append {line : List Char} (whole : '\n' ∉ line) (rest : List Char) :
    firstLine (line ++ '\n' :: rest) = stripReturn line := by
  have pieces : Text.split '\n' rest ≠ [] := Text.split_ne_nil
  rw [firstLine, Text.lines, Text.split_append whole, dropLast_cons_of_ne_nil pieces,
    map_cons, stripReturn]
  split_ifs <;> rfl

lemma firstLine_whole {text : List Char} (whole : '\n' ∉ text) : firstLine text = text := by
  have lines : Text.lines text = if text = [] then [] else [text] := by
    rw [Text.lines, Text.split_of_not_mem whole]
    rfl
  rw [firstLine, lines]
  split_ifs with empty
  · rw [empty]
    rfl
  · rfl

lemma count_stripReturn (c_ne : c ≠ '\r') (line : List Char) :
    (stripReturn line).count c = line.count c := by
  rw [stripReturn]
  split_ifs with ends
  · obtain ⟨front, rfl⟩ := getLast?_eq_some_iff.mp ends
    rw [dropLast_concat, count_append, count_singleton,
      if_neg (by simpa using c_ne.symm), Nat.add_zero]
  · rfl

lemma count_firstLine (c_ne : c ≠ '\r') (text : List Char) :
    (firstLine text).count c = (text.takeWhile (· ≠ '\n')).count c := by
  by_cases broken : '\n' ∈ text
  · obtain ⟨line, rest, rfl, whole⟩ := eq_append_cons_of_mem broken
    have kept : ∀ x ∈ line, decide (x ≠ '\n') = true :=
      fun x member => decide_eq_true (fun same => whole (same ▸ member))
    have first : (line ++ '\n' :: rest).takeWhile (· ≠ '\n') = line := by
      rw [takeWhile_append_of_pos kept, takeWhile_cons_of_neg (by decide), append_nil]
    rw [first, firstLine_append whole, count_stripReturn c_ne]
  · have kept : ∀ x ∈ text, decide (x ≠ '\n') = true :=
      fun x member => decide_eq_true (fun same => broken (same ▸ member))
    rw [firstLine_whole broken, takeWhile_eq_self_iff.mpr kept]

lemma mem_escape {cell : List Char} (member : c ∈ escape delimiter cell) :
    c = '"' ∨ c ∈ cell := by
  have doubled {x y : Char} (spelt : y ∈ quoteChar x) : y = x := by
    rw [quoteChar] at spelt
    split_ifs at spelt with quote
    · rw [quote]
      simpa using spelt
    · exact mem_singleton.mp spelt
  rw [escape] at member
  split_ifs at member with special
  · simp only [cons_append, mem_cons, mem_append, mem_flatMap, not_mem_nil, or_false] at member
    rcases member with opening | ⟨x, inside, spelt⟩ | closing
    · exact .inl opening
    · exact .inr (doubled spelt ▸ inside)
    · exact .inl closing
  · exact .inr member

lemma subset_escape {cell : List Char} (member : c ∈ cell) : c ∈ escape delimiter cell := by
  rw [escape]
  split_ifs with special
  · refine mem_append_left _ (mem_cons_of_mem _ (mem_flatMap.mpr ⟨c, member, ?_⟩))
    rw [quoteChar]
    split_ifs with quote
    · rw [quote]
      exact mem_cons_self
    · exact mem_singleton_self c
  · exact member

lemma mem_writeRow {row : List (List Char)} (member : c ∈ writeRow delimiter row) :
    c = delimiter ∨ c = '"' ∨ ∃ cell ∈ row, c ∈ cell := by
  rcases Text.mem_intercalate member with joint | ⟨part, listed, inside⟩
  · exact .inl (mem_singleton.mp joint)
  · obtain ⟨cell, own, rfl⟩ := mem_map.mp listed
    rcases mem_escape inside with quote | char
    · exact .inr (.inl quote)
    · exact .inr (.inr ⟨cell, own, char⟩)

lemma encode_cons (delimiter : Char) (lineEnd : LineEnd) (ended : Bool) (header : List (List Char))
    (rows : List (List (List Char))) :
    ∃ tail, encode delimiter lineEnd ended (header :: rows) = writeRow delimiter header ++ tail ∧
      (tail = [] ∨ ∃ rest, tail = lineEnd.text ++ rest) := by
  cases rows with
  | nil =>
    refine ⟨if ended then lineEnd.text else [], ?_, ?_⟩
    · rw [encode, map_singleton, intercalate_singleton]
    · cases ended with
      | false => exact .inl rfl
      | true => exact .inr ⟨[], (append_nil _).symm⟩
  | cons row rows =>
    refine ⟨lineEnd.text ++ encode delimiter lineEnd ended (row :: rows), ?_, .inr ⟨_, rfl⟩⟩
    rw [encode, map_cons, map_cons, intercalate_cons_cons, append_assoc, append_assoc]
    rfl

/-- Before the first line end there is nothing of the second row. -/
lemma mem_first {lineEnd : LineEnd} {front tail : List Char}
    (behind : tail = [] ∨ ∃ rest, tail = lineEnd.text ++ rest)
    (member : c ∈ (front ++ tail).takeWhile (· ≠ '\n')) : c ∈ front ∨ c = '\r' := by
  rw [takeWhile_append] at member
  split_ifs at member with all
  · rcases mem_append.mp member with here | later
    · exact .inl here
    · rcases behind with rfl | ⟨rest, rfl⟩
      · cases later
      · cases lineEnd with
        | lf => cases later
        | crlf => exact .inr (mem_singleton.mp later)
  · exact .inl (takeWhile_subset _ member)

end FirstLine

/-- The names hold none of the delimiters. -/
def DelimiterFree (header : List (List Char)) : Prop :=
  ∀ name ∈ header, ∀ c ∈ candidates, c ∉ name

lemma candidate_ne_return {c : Char} (candidate : c ∈ candidates) : c ≠ '\r' :=
  (separates_of_mem candidate).cr

lemma detectDelimiter_of_counts {text : List Char} {delimiter : Char}
    (candidate : delimiter ∈ candidates) (found : 0 < (firstLine text).count delimiter)
    (others : ∀ c ∈ candidates, c ≠ delimiter → (firstLine text).count c = 0) :
    detectDelimiter text = delimiter := by
  simp only [candidates, mem_cons, not_mem_nil, or_false] at candidate
  simp only [candidates, forall_mem_cons] at others
  obtain ⟨comma, tab, semicolon, bar, -⟩ := others
  have less := Nat.compare_eq_gt.mpr found
  have more := Nat.compare_eq_lt.mpr found
  rcases candidate with rfl | rfl | rfl | rfl
  · simp [detectDelimiter, candidates, maxBy, tab, semicolon, bar, less]
  · simp [detectDelimiter, candidates, maxBy, comma, semicolon, bar, less, more]
  · simp [detectDelimiter, candidates, maxBy, comma, tab, bar, less, more]
  · simp [detectDelimiter, candidates, maxBy, comma, tab, semicolon, more]

/-- Where there is no delimiter, the last of the candidates is taken. -/
lemma detectDelimiter_of_none {text : List Char}
    (none_ : ∀ c ∈ candidates, (firstLine text).count c = 0) : detectDelimiter text = '|' := by
  simp only [candidates, forall_mem_cons] at none_
  obtain ⟨comma, tab, semicolon, bar, -⟩ := none_
  simp [detectDelimiter, candidates, maxBy, comma, tab, semicolon, bar]

section Detection
variable {delimiter : Char} {first : List Char} {names : List (List Char)}
  {rows : List (List (List Char))}

lemma writeRow_cons (some_ : names ≠ []) :
    writeRow delimiter (first :: names) =
      escape delimiter first ++ delimiter :: writeRow delimiter names := by
  rw [writeRow, map_cons, intercalate_cons_of_ne_nil (by simpa using some_), append_assoc]
  rfl

lemma count_other (free : DelimiterFree (first :: names)) (lineEnd : LineEnd) (ended : Bool)
    {c : Char} (candidate : c ∈ candidates) (other : c ≠ delimiter) :
    (firstLine (encode delimiter lineEnd ended ((first :: names) :: rows))).count c = 0 := by
  obtain ⟨tail, text, behind⟩ := encode_cons delimiter lineEnd ended (first :: names) rows
  rw [count_firstLine (candidate_ne_return candidate), text, count_eq_zero]
  intro member
  rcases mem_first behind member with written | return_
  · rcases mem_writeRow written with same | quote | ⟨name, listed, inside⟩
    · exact other same
    · exact (separates_of_mem candidate).quote quote
    · exact free name listed c candidate inside
  · exact candidate_ne_return candidate return_

lemma count_delimiter (rows : List (List (List Char))) (candidate : delimiter ∈ candidates)
    (free : DelimiterFree (first :: names)) (some_ : names ≠ []) (lineEnd : LineEnd)
    (ended : Bool) :
    0 < (firstLine (encode delimiter lineEnd ended ((first :: names) :: rows))).count delimiter ↔
      '\n' ∉ first := by
  obtain ⟨tail, text, -⟩ := encode_cons delimiter lineEnd ended (first :: names) rows
  have separates := separates_of_mem candidate
  rw [count_firstLine separates.cr, text, writeRow_cons some_, append_assoc, count_pos_iff]
  constructor
  · intro member broken
    have inside : delimiter ∈ escape delimiter first := by
      rw [takeWhile_append, if_neg] at member
      · exact takeWhile_subset _ member
      · intro all
        have whole := (List.takeWhile_prefix (· ≠ '\n')).eq_of_length all
        have kept := takeWhile_eq_self_iff.mp whole '\n' (subset_escape broken)
        exact of_decide_eq_true kept rfl
    rcases mem_escape inside with quote | char
    · exact separates.quote quote
    · exact free first mem_cons_self delimiter candidate char
  · intro unbroken
    have kept : ∀ x ∈ escape delimiter first, decide (x ≠ '\n') = true := by
      intro x member
      refine decide_eq_true ?_
      rintro rfl
      rcases mem_escape member with quote | char
      · exact absurd quote (by decide)
      · exact unbroken char
    rw [takeWhile_append_of_pos kept, cons_append,
      takeWhile_cons_of_pos (by simpa using separates.lf)]
    exact mem_append_right _ mem_cons_self

lemma detectDelimiter_encode (rows : List (List (List Char))) (candidate : delimiter ∈ candidates)
    (free : DelimiterFree (first :: names)) (some_ : names ≠ []) (lineEnd : LineEnd)
    (ended : Bool) :
    detectDelimiter (encode delimiter lineEnd ended ((first :: names) :: rows)) = delimiter ↔
      delimiter = '|' ∨ '\n' ∉ first := by
  have found := count_delimiter rows candidate free some_ lineEnd ended
  have others : ∀ c ∈ candidates, c ≠ delimiter →
      (firstLine (encode delimiter lineEnd ended ((first :: names) :: rows))).count c = 0 :=
    fun c other different => count_other free lineEnd ended other different
  by_cases unbroken : '\n' ∈ first
  · have none_ : ∀ c ∈ candidates,
        (firstLine (encode delimiter lineEnd ended ((first :: names) :: rows))).count c = 0 := by
      intro c other
      by_cases same : c = delimiter
      · rw [same]
        exact Nat.eq_zero_of_not_pos (fun more => found.mp more unbroken)
      · exact others c other same
    rw [detectDelimiter_of_none none_]
    exact ⟨fun same => .inl same.symm, fun held => (held.resolve_right (not_not_intro unbroken)).symm⟩
  · exact iff_of_true (detectDelimiter_of_counts candidate (found.mpr unbroken) others)
      (.inr unbroken)

/-- A written table is read back, except that the delimiter is only told when the first name
of the header is not broken into lines, or when it is the one taken for want of any. -/
theorem table_read_back_iff (candidate : delimiter ∈ candidates)
    (free : DelimiterFree (first :: names)) (some_ : names ≠ [])
    (equal : ∀ row ∈ rows, row.length = (first :: names).length) (lineEnd : LineEnd)
    (ended : Bool) :
    (detectDelimiter (encode delimiter lineEnd ended ((first :: names) :: rows)) = delimiter ∧
      parseDelimited (encode delimiter lineEnd ended ((first :: names) :: rows)) delimiter =
        (first :: names) :: rows ∧
      parseCsvOrTsv (encode delimiter lineEnd ended ((first :: names) :: rows)) =
        importRows delimiter ((first :: names) :: rows)) ↔
      delimiter = '|' ∨ '\n' ∉ first := by
  have long : 2 ≤ (first :: names).length := Nat.succ_le_succ (length_pos_iff.mpr some_)
  have wide : ∀ row ∈ (first :: names) :: rows, 2 ≤ row.length :=
    forall_mem_cons.mpr ⟨long, fun row member => (equal row member).symm ▸ long⟩
  have table := parseDelimited_encode (separates_of_mem candidate) lineEnd wide ended
    (cons_ne_nil _ _)
  constructor
  · rintro ⟨told, -, -⟩
    exact (detectDelimiter_encode rows candidate free some_ lineEnd ended).mp told
  · intro held
    have told := (detectDelimiter_encode rows candidate free some_ lineEnd ended).mpr held
    refine ⟨told, table, ?_⟩
    rw [parseCsvOrTsv, told, table]

end Detection

lemma delimiterFree_iff {header : List (List Char)} :
    DelimiterFree header ↔
      (header.all fun name => candidates.all fun c => !name.contains c) = true := by
  simp [DelimiterFree, all_eq_true]

def sampleRows : List (List (List Char)) :=
  [["a\"b,\n".toList, "example.com".toList], ["".toList, "".toList]]

theorem sample_read_back :
    detectDelimiter (encode ',' .crlf false (["Name".toList, "Host".toList] :: sampleRows)) = ',' ∧
      parseDelimited (encode ',' .crlf false (["Name".toList, "Host".toList] :: sampleRows)) ',' =
        ["Name".toList, "Host".toList] :: sampleRows ∧
      parseCsvOrTsv (encode ',' .crlf false (["Name".toList, "Host".toList] :: sampleRows)) =
        importRows ',' (["Name".toList, "Host".toList] :: sampleRows) :=
  (table_read_back_iff (by decide) (delimiterFree_iff.mpr rfl) (by decide) (by decide) .crlf false).mpr
    (.inr (by decide))

/-- The names are recognised after trimming, but the first line of the text is cut off inside
the first of them. -/
theorem broken_header_not_told :
    headerIndexes (headerRow ["Name\n".toList, "Host".toList]) = { name := some 0, host := some 1 } ∧
      DelimiterFree ["Name\n".toList, "Host".toList] ∧
      detectDelimiter (encode ',' .crlf false (["Name\n".toList, "Host".toList] :: sampleRows)) =
        '|' := by
  refine ⟨by decide +kernel, delimiterFree_iff.mpr rfl, by decide +kernel⟩

end Import
