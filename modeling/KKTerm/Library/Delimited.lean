import Mathlib.Tactic.Common

/-!
# Rows of delimited cells

Cells are separated by a delimiter and rows end with a line break of two
characters. A cell with a delimiter, a quote or part of a line break is quoted,
and its quotes are doubled. The reader accepts no other use of quotes and line
breaks; the line break of the last row may be missing.
-/

namespace Delimited

open List Option

def lineBreak : List Char :=
  ['\r', '\n']

def quoteChar (c : Char) : List Char :=
  if c = '"' then ['"', '"'] else [c]

def Special (delimiter c : Char) : Prop :=
  c = delimiter ∨ c = '"' ∨ c = '\r' ∨ c = '\n'

instance specialDecidable (delimiter c : Char) : Decidable (Special delimiter c) :=
  inferInstanceAs (Decidable (_ ∨ _))

def escape (delimiter : Char) (cell : List Char) : List Char :=
  if cell.any (Special delimiter ·) then '"' :: cell.flatMap quoteChar ++ ['"'] else cell

def writeRow (delimiter : Char) (row : List (List Char)) : List Char :=
  [delimiter].intercalate (row.map (escape delimiter))

def write (delimiter : Char) (rows : List (List (List Char))) : List Char :=
  lineBreak.intercalate (rows.map (writeRow delimiter)) ++ lineBreak

/-- Before the first character of a cell, behind some, between quotes, behind a quote that
may have closed the cell, or inside a line break. -/
inductive Place where
  | start
  | plain
  | quoted
  | closed
  | broken
  deriving DecidableEq

structure Reader where
  rows : List (List (List Char)) := []
  row : List (List Char) := []
  cell : List Char := []
  place : Place := .start

namespace Reader

def endCell (s : Reader) (place : Place) : Reader where
  rows := s.rows
  row := s.row ++ [s.cell]
  cell := []
  place := place

def add (s : Reader) (c : Char) (place : Place) : Reader :=
  { s with cell := s.cell ++ [c], place }

def stepPlain (delimiter : Char) (s : Reader) (c : Char) : Option Reader :=
  if c = delimiter then some (s.endCell .start)
  else if c = '\r' then some (s.endCell .broken)
  else if c = '\n' then none
  else if c = '"' then
    match s.place with
    | .start => some { s with place := .quoted }
    | .closed => some (s.add '"' .quoted)
    | _ => none
  else if s.place = .closed then none
  else some (s.add c .plain)

def step (delimiter : Char) (s : Reader) (c : Char) : Option Reader :=
  match s.place with
  | .quoted => if c = '"' then some { s with place := .closed } else some (s.add c .quoted)
  | .broken => if c = '\n' then some { rows := s.rows ++ [s.row] } else none
  | _ => stepPlain delimiter s c

/-- Behind a line break there is no further row. -/
def finish (s : Reader) : Option (List (List (List Char))) :=
  if s.place = .quoted ∨ s.place = .broken then none
  else if s.place = .start ∧ s.row = [] then some s.rows
  else some (s.rows ++ [s.row ++ [s.cell]])

end Reader

def read (delimiter : Char) (text : List Char) : Option (List (List (List Char))) :=
  (text.foldlM (Reader.step delimiter) {}).bind Reader.finish

section Reading
variable {delimiter c : Char} {s : Reader} {cell : List Char}

lemma step_of_not_special (h : ¬ Special delimiter c) (place : s.place = .start ∨ s.place = .plain) :
    s.step delimiter c = some (s.add c .plain) := by
  have parts : c ≠ delimiter ∧ c ≠ '"' ∧ c ≠ '\r' ∧ c ≠ '\n' := by
    simpa only [Special, not_or] using h
  obtain ⟨hd, hq, hr, hn⟩ := parts
  rcases place with hp | hp <;> simp [Reader.step, Reader.stepPlain, hp, hd, hq, hr, hn]

lemma fold_plain (h : ∀ c ∈ cell, ¬ Special delimiter c) (place : s.place = .start ∨ s.place = .plain) :
    ∃ p, (p = .start ∨ p = .plain) ∧ cell.foldlM (Reader.step delimiter) s =
      some { s with cell := s.cell ++ cell, place := p } := by
  induction cell generalizing s with
  | nil => exact ⟨s.place, place, by simp⟩
  | cons c cell ih =>
    obtain ⟨p, hp, rest⟩ := ih (s := s.add c .plain) (fun x hx => h x (mem_cons_of_mem c hx))
      (.inr rfl)
    refine ⟨p, hp, ?_⟩
    rw [foldlM_cons, step_of_not_special (h c mem_cons_self) place]
    simpa [Reader.add] using rest

lemma fold_quoteChar (place : s.place = .quoted) (c : Char) (hd : delimiter ≠ '"') :
    (quoteChar c).foldlM (Reader.step delimiter) s = some (s.add c .quoted) := by
  by_cases quote : c = '"'
  · subst quote
    simp [quoteChar, Reader.step, Reader.stepPlain, Reader.add, place, hd.symm]
  · simp [quoteChar, Reader.step, place, quote]

lemma fold_quoted (place : s.place = .quoted) (hd : delimiter ≠ '"') (cell : List Char) :
    (cell.flatMap quoteChar).foldlM (Reader.step delimiter) s =
      some { s with cell := s.cell ++ cell, place := .quoted } := by
  induction cell generalizing s with
  | nil => simp [← place]
  | cons c cell ih =>
    rw [flatMap_cons, foldlM_append, fold_quoteChar place c hd]
    simpa [Reader.add] using ih (s := s.add c .quoted) rfl

/-- Behind a cell a delimiter or a line break ends it. -/
def Ended (s : Reader) : Prop :=
  s.place = .start ∨ s.place = .plain ∨ s.place = .closed

lemma escape_of_plain (plain : ∀ c ∈ cell, ¬ Special delimiter c) :
    escape delimiter cell = cell := by
  rw [escape, if_neg]
  simpa using plain

lemma fold_escape (start : s.place = .start) (empty : s.cell = []) (hd : delimiter ≠ '"')
    (cell : List Char) :
    ∃ s', (escape delimiter cell).foldlM (Reader.step delimiter) s = some s' ∧ Ended s' ∧
      s'.rows = s.rows ∧ s'.row = s.row ∧ s'.cell = cell := by
  by_cases special : cell.any (Special delimiter ·)
  · refine ⟨{ s with cell, place := .closed }, ?_, .inr (.inr rfl), rfl, rfl, rfl⟩
    have opened : s.step delimiter '"' = some { s with place := .quoted } := by
      simp [Reader.step, Reader.stepPlain, start, hd.symm]
    rw [escape, if_pos special, cons_append, foldlM_cons, opened]
    simp only [bind_eq_bind, bind_some]
    rw [foldlM_append, fold_quoted rfl hd]
    simp [Reader.step, empty]
  · have plain : ∀ c ∈ cell, ¬ Special delimiter c := by simpa using special
    obtain ⟨p, hp, done⟩ := fold_plain plain (.inl start)
    refine ⟨{ s with cell := s.cell ++ cell, place := p }, ?_, hp.imp id Or.inl, rfl, rfl, ?_⟩
    · rw [escape_of_plain plain]
      exact done
    · rw [empty]
      rfl

lemma step_delimiter (h : Ended s) : s.step delimiter delimiter = some (s.endCell .start) := by
  rcases h with place | place | place <;> simp [Reader.step, Reader.stepPlain, place]

lemma step_return (h : Ended s) (hr : delimiter ≠ '\r') :
    s.step delimiter '\r' = some (s.endCell .broken) := by
  rcases h with place | place | place <;> simp [Reader.step, Reader.stepPlain, place, hr.symm]

lemma fold_lineBreak (h : Ended s) (hr : delimiter ≠ '\r') :
    lineBreak.foldlM (Reader.step delimiter) s = some { rows := s.rows ++ [s.row ++ [s.cell]] } := by
  simp only [lineBreak, foldlM_cons, step_return h hr]
  rfl

lemma fold_writeRow {s : Reader} (start : s.place = .start) (empty : s.cell = []) (hd : delimiter ≠ '"')
    (cell : List Char) (row : List (List Char)) :
    ∃ s', (writeRow delimiter (cell :: row)).foldlM (Reader.step delimiter) s = some s' ∧ Ended s' ∧
      s'.rows = s.rows ∧ s'.row ++ [s'.cell] = s.row ++ cell :: row := by
  obtain ⟨s₁, read, ended, rows, done, last⟩ := fold_escape start empty hd cell
  cases row with
  | nil =>
    refine ⟨s₁, ?_, ended, rows, ?_⟩
    · rw [writeRow, map_singleton, intercalate_singleton]
      exact read
    · rw [done, last]
  | cons next row =>
    obtain ⟨s₂, later, ended₂, rows₂, done₂⟩ :=
      fold_writeRow (s := s₁.endCell .start) rfl rfl hd next row
    refine ⟨s₂, ?_, ended₂, rows₂.trans rows, ?_⟩
    · rw [writeRow, map_cons, map_cons, intercalate_cons_cons, append_assoc, foldlM_append, read]
      simp only [bind_eq_bind, bind_some, singleton_append, foldlM_cons, step_delimiter ended]
      exact later
    · rw [done₂, Reader.endCell, done, last, append_assoc]
      rfl

lemma fold_line {row : List (List Char)} (nonempty : row ≠ []) (hd : delimiter ≠ '"')
    (hr : delimiter ≠ '\r') (rows : List (List (List Char))) :
    (writeRow delimiter row ++ lineBreak).foldlM (Reader.step delimiter) { rows } =
      some { rows := rows ++ [row] } := by
  obtain ⟨cell, row, rfl⟩ := exists_cons_of_ne_nil nonempty
  obtain ⟨s, read, ended, before, cells⟩ := fold_writeRow (s := { rows }) rfl rfl hd cell row
  rw [foldlM_append, read]
  simp only [bind_eq_bind, bind_some]
  rw [fold_lineBreak ended hr, cells, before]
  rfl

variable {rows : List (List (List Char))}

lemma fold_lines (nonempty : ∀ row ∈ rows, row ≠ []) (hd : delimiter ≠ '"')
    (hr : delimiter ≠ '\r') (before : List (List (List Char))) :
    (rows.flatMap (fun row => writeRow delimiter row ++ lineBreak)).foldlM (Reader.step delimiter)
      { rows := before } = some { rows := before ++ rows } := by
  induction rows generalizing before with
  | nil => simp
  | cons row rows ih =>
    rw [flatMap_cons, foldlM_append, fold_line (nonempty row mem_cons_self) hd hr]
    simpa using ih (fun r hr => nonempty r (mem_cons_of_mem row hr)) (before ++ [row])

lemma write_eq_flatMap (h : rows ≠ []) :
    write delimiter rows = rows.flatMap (fun row => writeRow delimiter row ++ lineBreak) := by
  induction rows with
  | nil => exact absurd rfl h
  | cons row rows ih =>
    cases rows with
    | nil => simp [write]
    | cons next rows =>
      have rest := ih (cons_ne_nil next rows)
      rw [write, map_cons] at rest ⊢
      rw [map_cons, intercalate_cons_cons, append_assoc, rest,
        flatMap_cons (x := row), append_assoc]

lemma read_write (h : rows ≠ []) (nonempty : ∀ row ∈ rows, row ≠ []) (hd : delimiter ≠ '"')
    (hr : delimiter ≠ '\r') : read delimiter (write delimiter rows) = some rows := by
  rw [read, write_eq_flatMap h, fold_lines nonempty hd hr]
  rfl

/-- A character in front of the text is one in front of its first cell. -/
lemma cons_write (hc : ¬ Special delimiter c) (plain : ∀ x ∈ cell, ¬ Special delimiter x)
    (row : List (List Char)) (rows : List (List (List Char))) :
    c :: write delimiter ((cell :: row) :: rows) = write delimiter (((c :: cell) :: row) :: rows) := by
  have longer : escape delimiter (c :: cell) = c :: cell :=
    escape_of_plain (forall_mem_cons.mpr ⟨hc, plain⟩)
  simp only [write, writeRow, map_cons, escape_of_plain plain, longer,
    intercalate_cons_cons_left, cons_append]

end Reading

end Delimited
