import KKTerm.Library.Text

/-!
# The command line of a local shell

Words between blanks, both kinds of quotes around blanks, and a backslash before a quote.
The words at the front are joined again once they end like a Windows executable.
-/

namespace LocalShell

open Text List

structure LocalShellCommandLine where
  program : List Char
  args : List (List Char)
  deriving DecidableEq

structure Scan where
  parts : List (List Char)
  current : List Char
  quote : Option Char

namespace Scan

def push (s : Scan) (c : Char) : Scan :=
  { s with current := s.current ++ [c] }

def endWord (s : Scan) : Scan :=
  if s.current ≠ [] then { s with parts := s.parts ++ [s.current], current := [] } else s

def stepQuote (s : Scan) (c : Char) : Scan :=
  if s.quote = some c then { s with quote := none }
  else if s.quote = none then { s with quote := some c }
  else s.push c

end Scan

def isQuote (c : Char) : Bool :=
  c = '"' ∨ c = '\''

def scan (s : Scan) : List Char → Scan
  | [] => s
  | c :: chars =>
    if isQuote c then scan (s.stepQuote c) chars
    else if c = '\\' then
      match chars with
      | [] => s.push c
      | next :: chars =>
        if isQuote next then scan (s.push next) chars else scan (s.push c) (next :: chars)
    else if isWhitespace c ∧ s.quote = none then scan s.endWord chars
    else scan (s.push c) chars

def windowsExecutablePathHasSuffix (value : List Char) : Bool :=
  let normalized := asciiLower value
  [".exe".toList, ".cmd".toList, ".bat".toList, ".com".toList].any (·.isSuffixOf normalized)

/-- The words behind the shortest front that ends like an executable. -/
def joinProgram (programParts : List (List Char)) :
    List (List Char) → Option (List (List Char))
  | [] => none
  | part :: parts =>
    let joined := [' '].intercalate (programParts ++ [part])
    if windowsExecutablePathHasSuffix joined then some (joined :: parts)
    else joinProgram (programParts ++ [part]) parts

def normalizeUnquotedWindowsExePathParts (parts : List (List Char)) : List (List Char) :=
  if parts.length < 2 then parts else (joinProgram [] parts).getD parts

def parseLocalShellCommandLine (commandLine : List Char) : Except String LocalShellCommandLine :=
  let s := scan { parts := [], current := [], quote := none } (trim commandLine)
  if s.quote.isSome then .error "local shell command line has an unclosed quote"
  else
    match normalizeUnquotedWindowsExePathParts s.endWord.parts with
    | [] => .error "local shell command line is required"
    | program :: args => .ok { program, args }

def escapeChar (c : Char) : List Char :=
  if c = '"' then ['\\', '"'] else [c]

def quoteWord (word : List Char) : List Char :=
  '"' :: word.flatMap escapeChar ++ ['"']

def writeWords (words : List (List Char)) : List Char :=
  [' '].intercalate (words.map quoteWord)

/-- No backslash stands directly before a quote, nor at the end before the closing one. -/
def Plain (word : List Char) : Prop :=
  (word ++ ['"']).IsChain (fun c next => c = '\\' → isQuote next = false)

instance (word : List Char) : Decidable (Plain word) :=
  inferInstanceAs (Decidable (List.IsChain _ _))

section Reading
variable {s : Scan} {c next : Char} {word rest : List Char}

lemma scan_quote (quote : isQuote c = true) : scan s (c :: rest) = scan (s.stepQuote c) rest := by
  cases rest <;> simp [scan, quote]

lemma scan_escaped (quote : isQuote next = true) :
    scan s ('\\' :: next :: rest) = scan (s.push next) rest := by
  simp [scan, quote, show isQuote '\\' = false by decide]

lemma scan_backslash (plain : isQuote next = false) :
    scan s ('\\' :: next :: rest) = scan (s.push '\\') (next :: rest) := by
  simp [scan, plain, show isQuote '\\' = false by decide]

lemma scan_push (open_ : s.quote = some '"') (plain : isQuote c = false) (other : c ≠ '\\') :
    scan s (c :: rest) = scan (s.push c) rest := by
  cases rest <;> simp [scan, plain, other, open_]

lemma scan_blank (closed : s.quote = none) : scan s (' ' :: rest) = scan s.endWord rest := by
  cases rest <;>
    simp [scan, closed, show isQuote ' ' = false by decide, show isWhitespace ' ' = true by decide]

/-- The text behind a backslash of a word does not start with a quote. -/
lemma plain_head (plain : Plain ('\\' :: word)) :
    ∃ next more, word.flatMap escapeChar ++ '"' :: rest = next :: more ∧ isQuote next = false := by
  cases word with
  | nil =>
    have closing := (isChain_cons_cons.mp plain).1 rfl
    cases closing
  | cons next word =>
    have free : isQuote next = false := (isChain_cons_cons.mp plain).1 rfl
    have single : next ≠ '"' := by
      rintro rfl
      cases free
    refine ⟨next, word.flatMap escapeChar ++ '"' :: rest, ?_, free⟩
    simp [escapeChar, single]

lemma scan_escape (open_ : s.quote = some '"') (plain : Plain word) :
    scan s (word.flatMap escapeChar ++ '"' :: rest) =
      scan { s with current := s.current ++ word, quote := none } rest := by
  induction word generalizing s with
  | nil =>
    rw [flatMap_nil, nil_append, scan_quote (by decide)]
    simp [Scan.stepQuote, open_]
  | cons c word ih =>
    have tail : Plain word := plain.of_cons
    have step : scan s (escapeChar c ++ (word.flatMap escapeChar ++ '"' :: rest)) =
        scan (s.push c) (word.flatMap escapeChar ++ '"' :: rest) := by
      by_cases double : c = '"'
      · subst double
        exact scan_escaped (by decide)
      · rw [escapeChar, if_neg double, singleton_append]
        by_cases single : c = '\''
        · subst single
          rw [scan_quote (by decide)]
          simp [Scan.stepQuote, open_]
        · have other : isQuote c = false := by simp [isQuote, double, single]
          by_cases backslash : c = '\\'
          · subst backslash
            obtain ⟨next, more, text, free⟩ := plain_head plain
            rw [text]
            exact scan_backslash free
          · exact scan_push open_ other backslash
    rw [flatMap_cons, append_assoc, step, ih (by exact open_) tail]
    simp [Scan.push]

lemma scan_quoteWord (closed : s.quote = none) (plain : Plain word) :
    scan s (quoteWord word ++ rest) = scan { s with current := s.current ++ word } rest := by
  have opens : s.stepQuote '"' = { s with quote := some '"' } := by simp [Scan.stepQuote, closed]
  have text : quoteWord word ++ rest = '"' :: (word.flatMap escapeChar ++ '"' :: rest) := by
    simp [quoteWord]
  rw [text, scan_quote (by decide), opens, scan_escape rfl plain, ← closed]

lemma endWord_parts (s : Scan) : s.endWord.parts = s.parts ++ [s.current].filter (· ≠ []) := by
  by_cases blank : s.current = [] <;> simp [Scan.endWord, blank]

/-- The words come back, the empty ones apart. -/
lemma scan_writeWords (closed : s.quote = none) (fresh : s.current = []) (first : List Char)
    (words : List (List Char)) (plain : ∀ word ∈ first :: words, Plain word) :
    (scan s (writeWords (first :: words))).quote = none ∧
      (scan s (writeWords (first :: words))).endWord.parts =
        s.parts ++ (first :: words).filter (· ≠ []) := by
  induction words generalizing s first with
  | nil =>
    have read : scan s (quoteWord first ++ []) = _ :=
      scan_quoteWord closed (plain first mem_cons_self)
    rw [append_nil, fresh] at read
    rw [writeWords, map_singleton, intercalate_singleton, read, scan]
    exact ⟨closed, endWord_parts _⟩
  | cons second words ih =>
    have read : scan s (writeWords (first :: second :: words)) =
        scan ({ s with current := first } : Scan).endWord (writeWords (second :: words)) := by
      rw [writeWords, map_cons, map_cons, intercalate_cons_cons, append_assoc,
        scan_quoteWord closed (plain first mem_cons_self), fresh, nil_append,
        singleton_append, scan_blank (by exact closed)]
      rfl
    have ended : ({ s with current := first } : Scan).endWord.quote = none ∧
        ({ s with current := first } : Scan).endWord.current = [] := by
      by_cases blank : first = [] <;> simp [Scan.endWord, blank, closed]
    rw [read]
    obtain ⟨closed', parts⟩ := ih ended.1 ended.2 second
      fun word member => plain word (mem_cons_of_mem _ member)
    refine ⟨closed', ?_⟩
    rw [parts, endWord_parts, append_assoc, ← filter_append]
    rfl

end Reading

section Joining
variable {parts programParts result : List (List Char)} {part : List Char}

lemma suffix_of_blank {suffix front word : List Char} (dark : ' ' ∉ suffix) :
    suffix <:+ front ++ ' ' :: word ↔ suffix <:+ word := by
  constructor
  · intro ends
    rcases suffix_or_suffix_of_suffix ends (suffix_append front (' ' :: word)) with h | h
    · rcases suffix_cons_iff.mp h with whole | inside
      · rw [whole] at dark
        exact absurd mem_cons_self dark
      · exact inside
    · exact absurd (h.subset mem_cons_self) dark
  · intro ends
    exact ends.trans ((suffix_cons ' ' word).trans (suffix_append front _))

/-- Only the last word says whether the joined text ends like an executable. -/
lemma hasSuffix_of_blank (front word : List Char) :
    windowsExecutablePathHasSuffix (front ++ ' ' :: word) =
      windowsExecutablePathHasSuffix word := by
  have lower : asciiLower (front ++ ' ' :: word) = asciiLower front ++ ' ' :: asciiLower word := by
    simp [asciiLower, show ' '.toLower = ' ' by decide]
  simp only [windowsExecutablePathHasSuffix, lower]
  rw [Bool.eq_iff_iff]
  simp [suffix_of_blank]

lemma intercalate_concat (before : programParts ≠ []) :
    [' '].intercalate (programParts ++ [part]) = [' '].intercalate programParts ++ ' ' :: part := by
  induction programParts with
  | nil => exact absurd rfl before
  | cons first programParts ih =>
    cases programParts with
    | nil => simp
    | cons second programParts =>
      have more := ih (by simp)
      simp only [cons_append, intercalate_cons_cons] at more ⊢
      rw [more]
      simp

lemma joinProgram_eq_none (before : programParts ≠ []) :
    joinProgram programParts parts = none ↔
      ∀ part ∈ parts, windowsExecutablePathHasSuffix part = false := by
  induction parts generalizing programParts with
  | nil => simp [joinProgram]
  | cons part parts ih =>
    have extended : programParts ++ [part] ≠ [] := by simp
    simp only [joinProgram, intercalate_concat before, hasSuffix_of_blank]
    cases ends : windowsExecutablePathHasSuffix part <;> simp [ends, ih extended]

lemma joinProgram_length (joined : joinProgram programParts parts = some result) :
    result.length ≤ parts.length := by
  induction parts generalizing programParts with
  | nil => cases joined
  | cons part parts ih =>
    simp only [joinProgram] at joined
    split at joined
    · cases joined
      simp
    · have short := ih joined
      rw [length_cons]
      omega

lemma normalize_length_le (parts : List (List Char)) :
    (normalizeUnquotedWindowsExePathParts parts).length ≤ parts.length := by
  rw [normalizeUnquotedWindowsExePathParts]
  split
  · omega
  · cases joined : joinProgram [] parts with
    | none => exact le_refl _
    | some result => exact joinProgram_length joined

/-- The parts stay as they are exactly if the program or no argument ends like an executable. -/
lemma normalize_eq_self (program : List Char) (args : List (List Char)) :
    normalizeUnquotedWindowsExePathParts (program :: args) = program :: args ↔
      windowsExecutablePathHasSuffix program = true ∨
        ∀ arg ∈ args, windowsExecutablePathHasSuffix arg = false := by
  have first : [' '].intercalate ([] ++ [program]) = program := by simp
  cases args with
  | nil => simp [normalizeUnquotedWindowsExePathParts]
  | cons arg args =>
    rw [normalizeUnquotedWindowsExePathParts, if_neg (by simp), joinProgram, first]
    cases ends : windowsExecutablePathHasSuffix program
    · simp only [nil_append, Bool.false_eq_true, if_false, false_or]
      rw [← joinProgram_eq_none (cons_ne_nil program [])]
      cases joined : joinProgram [program] (arg :: args) with
      | none => simp
      | some result =>
        -- the program has taken in an argument
        have short := joinProgram_length joined
        have differ : result ≠ program :: arg :: args := by
          rintro rfl
          rw [length_cons] at short
          omega
        simp [differ]
    · simp

end Joining

lemma writeWords_enclosed (first : List Char) (words : List (List Char)) :
    ∃ inner, writeWords (first :: words) = '"' :: (inner ++ ['"']) := by
  induction words generalizing first with
  | nil => exact ⟨first.flatMap escapeChar, by simp [writeWords, quoteWord]⟩
  | cons second words ih =>
    obtain ⟨inner, text⟩ := ih second
    have apart : writeWords (first :: second :: words) =
        quoteWord first ++ ' ' :: writeWords (second :: words) := by
      simp [writeWords, intercalate_cons_cons]
    refine ⟨first.flatMap escapeChar ++ '"' :: ' ' :: '"' :: inner, ?_⟩
    rw [apart, text]
    simp [quoteWord]

lemma parse_writeWords {first : List Char} {words : List (List Char)}
    (plain : ∀ word ∈ first :: words, Plain word) :
    parseLocalShellCommandLine (writeWords (first :: words)) =
      match normalizeUnquotedWindowsExePathParts ((first :: words).filter (· ≠ [])) with
      | [] => .error "local shell command line is required"
      | program :: args => .ok { program, args } := by
  have enclosed : trim (writeWords (first :: words)) = writeWords (first :: words) := by
    obtain ⟨inner, text⟩ := writeWords_enclosed first words
    rw [text]
    exact trim_enclosed (by decide) (by decide)
  obtain ⟨closed, parts⟩ := scan_writeWords (s := { parts := [], current := [], quote := none })
    rfl rfl first words plain
  simp only [parseLocalShellCommandLine, enclosed, closed, parts, nil_append,
    Option.isSome_none, Bool.false_eq_true, if_false]

/-- Quoted words come back exactly if none behind the program is empty, and none ends like an
executable where the program does not. -/
theorem quoted_words_kept {first : List Char} {words : List (List Char)} (nonempty : first ≠ [])
    (plain : ∀ word ∈ first :: words, Plain word) :
    parseLocalShellCommandLine (writeWords (first :: words)) =
        .ok { program := first, args := words } ↔
      (∀ word ∈ words, word ≠ []) ∧
        (windowsExecutablePathHasSuffix first = true ∨
          ∀ word ∈ words, windowsExecutablePathHasSuffix word = false) := by
  rw [parse_writeWords plain, filter_cons_of_pos (by simpa using nonempty)]
  have returned : ∀ parts : List (List Char), (match parts with
        | [] => .error "local shell command line is required"
        | program :: args => .ok { program, args } : Except String LocalShellCommandLine) =
          .ok { program := first, args := words } ↔ parts = first :: words := by
    intro parts
    cases parts <;> simp
  rw [returned]
  have kept_all : words.filter (· ≠ []) = words ↔ ∀ word ∈ words, word ≠ [] := by
    simp [filter_eq_self]
  constructor
  · intro same
    have short := normalize_length_le (first :: words.filter (· ≠ []))
    rw [same, length_cons, length_cons] at short
    have fewer := length_filter_le (fun word : List Char => decide (word ≠ [])) words
    have all : words.filter (· ≠ []) = words :=
      filter_eq_self.mpr (length_filter_eq_length_iff.mp (by omega))
    rw [all] at same
    exact ⟨kept_all.mp all, (normalize_eq_self first words).mp same⟩
  · rintro ⟨full, joined⟩
    rw [kept_all.mpr full]
    exact (normalize_eq_self first words).mpr joined

theorem spaced_words_kept :
    parseLocalShellCommandLine (writeWords ["a b".toList, ['"', 'x']]) =
      .ok { program := "a b".toList, args := [['"', 'x']] } :=
  (quoted_words_kept (by decide) (by decide)).mpr (by decide)

/-- An empty argument is lost, and an argument that ends like an executable becomes a part of
the program. -/
theorem empty_and_executable_lost :
    parseLocalShellCommandLine (writeWords ["sh".toList, []]) =
        .ok { program := "sh".toList, args := [] } ∧
      parseLocalShellCommandLine (writeWords ["sh".toList, "a.exe".toList]) =
        .ok { program := "sh a.exe".toList, args := [] } := by
  decide +kernel

end LocalShell
