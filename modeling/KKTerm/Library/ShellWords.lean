import Mathlib.Tactic.Common

/-!
# Words of a shell

A reader for scripts that call commands one after the other: words between blanks, single
quotes around literal text, a backslash before a literal character, and two ampersands
between commands. Everything else that a shell acts on is refused.
-/

namespace ShellWords

open List Option

/-- A closed quote, an escaped one and an open one. -/
def quoteChar (c : Char) : List Char :=
  if c = '\'' then ['\'', '\\', '\'', '\''] else [c]

def quote (value : List Char) : List Char :=
  '\'' :: value.flatMap quoteChar ++ ['\'']

def join (words : List (List Char)) : List Char :=
  [' '].intercalate (words.map quote)

def conjunction : List Char :=
  [' ', '&', '&', ' ']

/-- The commands run one after the other while they succeed. -/
def script (commands : List (List (List Char))) : List Char :=
  conjunction.intercalate (commands.map join)

/-- Between words, in one, between quotes, behind a backslash, or behind one ampersand. -/
inductive Mode where
  | blank
  | word
  | quoted
  | escaped
  | ampersand
  deriving DecidableEq

structure Reader where
  commands : List (List (List Char)) := []
  words : List (List Char) := []
  word : List Char := []
  mode : Mode := .blank

/-- The characters that a shell acts on outside of quotes, besides those that are read. -/
def metacharacters : List Char :=
  "\n\"$;|<>()*?[]#~=%!\x7b\x7d".toList ++ [Char.ofNat 0x60]

namespace Reader

def add (s : Reader) (c : Char) (mode : Mode) : Reader :=
  { s with word := s.word ++ [c], mode }

def endWord (s : Reader) : Reader :=
  if s.mode = .word then
    { commands := s.commands, words := s.words ++ [s.word] }
  else s

def stepPlain (s : Reader) (c : Char) : Option Reader :=
  if c = '\'' then some { s with mode := .quoted }
  else if c = '\\' then some { s with mode := .escaped }
  else if c = ' ' ∨ c = '\t' then some s.endWord
  else if c = '&' then some { s.endWord with mode := .ampersand }
  else if c ∈ metacharacters then none
  else some (s.add c .word)

def step (s : Reader) (c : Char) : Option Reader :=
  match s.mode with
  | .quoted => if c = '\'' then some { s with mode := .word } else some (s.add c .quoted)
  | .escaped => if c = '\n' then none else some (s.add c .word)
  | .ampersand =>
    if c = '&' ∧ s.words ≠ [] then some { commands := s.commands ++ [s.words] } else none
  | _ => s.stepPlain c

def finish (s : Reader) : Option (List (List (List Char))) :=
  match s.mode with
  | .blank | .word =>
    if s.endWord.words = [] then none else some (s.commands ++ [s.endWord.words])
  | _ => none

end Reader

def read (text : List Char) : Option (List (List (List Char))) :=
  (text.foldlM Reader.step {}).bind Reader.finish

section Reading
variable {s : Reader} {c : Char}

lemma endWord_commands (s : Reader) : s.endWord.commands = s.commands := by
  rw [Reader.endWord]
  split_ifs <;> rfl

lemma fold_append (front back : List Char) :
    (front ++ back).foldlM Reader.step s =
      (front.foldlM Reader.step s).bind (fun s' => back.foldlM Reader.step s') :=
  foldlM_append

lemma step_quoted (inside : s.mode = .quoted) (other : c ≠ '\'') :
    s.step c = some (s.add c .quoted) := by
  rw [Reader.step, inside]
  exact if_neg other

lemma fold_quoteChar (inside : s.mode = .quoted) (c : Char) :
    (quoteChar c).foldlM Reader.step s = some (s.add c .quoted) := by
  by_cases quote : c = '\''
  · subst quote
    simp [quoteChar, Reader.step, Reader.stepPlain, Reader.add, inside]
  · rw [quoteChar, if_neg quote, foldlM_cons, step_quoted inside quote]
    rfl

lemma fold_literal (inside : s.mode = .quoted) (value : List Char) :
    (value.flatMap quoteChar).foldlM Reader.step s =
      some { s with word := s.word ++ value, mode := .quoted } := by
  induction value generalizing s with
  | nil =>
    rw [append_nil, ← inside]
    rfl
  | cons c value ih =>
    rw [flatMap_cons, fold_append, fold_quoteChar inside c, bind_some, ih rfl]
    simp [Reader.add]

/-- A quoted value is one part of a word, whatever it holds. -/
lemma fold_quote (outside : s.mode = .blank ∨ s.mode = .word) (value : List Char) :
    (quote value).foldlM Reader.step s =
      some { s with word := s.word ++ value, mode := .word } := by
  have opens : s.step '\'' = some { s with mode := .quoted } := by
    rcases outside with blank | word
    · rw [Reader.step, blank]
      rfl
    · rw [Reader.step, word]
      rfl
  rw [quote, cons_append, foldlM_cons, opens, bind_eq_bind, bind_some,
    fold_append, fold_literal rfl, bind_some]
  rfl

lemma step_blank (outside : s.mode = .blank ∨ s.mode = .word) : s.step ' ' = some s.endWord := by
  rcases outside with blank | word
  · rw [Reader.step, blank]
    rfl
  · rw [Reader.step, word]
    rfl

/-- Behind the words of a command the last one is still open. -/
lemma fold_join (blank : s.mode = .blank) (fresh : s.word = []) (first : List Char)
    (rest : List (List Char)) :
    ∃ s', (join (first :: rest)).foldlM Reader.step s = some s' ∧ s'.mode = .word ∧
      s'.endWord = { commands := s.commands, words := s.words ++ first :: rest } := by
  induction rest generalizing s first with
  | nil =>
    refine ⟨{ s with word := s.word ++ first, mode := .word }, ?_, rfl, ?_⟩
    · rw [join, map_singleton, intercalate_singleton, fold_quote (.inl blank)]
    · simp [Reader.endWord, fresh]
  | cons second rest ih =>
    have open_ := fold_quote (s := s) (.inl blank) first
    obtain ⟨s', reads, mode, ended⟩ := @ih
      { commands := s.commands, words := s.words ++ [first] } rfl rfl second
    refine ⟨s', ?_, mode, ?_⟩
    · rw [join, map_cons, map_cons, intercalate_cons_cons, append_assoc,
        fold_append, open_, bind_some, singleton_append, foldlM_cons,
        step_blank (.inr rfl)]
      rw [join, map_cons] at reads
      simpa [Reader.endWord, fresh] using reads
    · rw [ended, append_assoc, singleton_append]

lemma fold_conjunction (open_ : s.mode = .word) :
    conjunction.foldlM Reader.step s = some { commands := s.commands ++ [s.endWord.words] } := by
  have words : s.endWord.words ≠ [] := by simp [Reader.endWord, open_]
  have blank : s.endWord.mode = .blank := by rw [Reader.endWord, if_pos open_]
  have again : s.endWord.endWord = s.endWord := by
    rw [Reader.endWord, if_neg]
    rw [blank]
    exact nofun
  have ampersand : s.endWord.step '&' = some { s.endWord with mode := .ampersand } := by
    rw [Reader.step, blank]
    exact congrArg (fun t : Reader => some { t with mode := .ampersand }) again
  have twice : Reader.step { s.endWord with mode := .ampersand } '&' =
      some { commands := s.commands ++ [s.endWord.words] } := by
    rw [← endWord_commands s]
    exact if_pos ⟨rfl, words⟩
  rw [conjunction, foldlM_cons, step_blank (.inr open_), bind_eq_bind,
    bind_some, foldlM_cons, ampersand, bind_eq_bind, bind_some,
    foldlM_cons, twice, bind_eq_bind, bind_some]
  rfl

end Reading

/-- Behind a script the last word of the last command is still open. -/
lemma fold_script (before : List (List (List Char))) (first : List (List Char))
    (rest : List (List (List Char))) (calls : ∀ words ∈ first :: rest, words ≠ []) :
    ∃ s, (script (first :: rest)).foldlM Reader.step { commands := before } = some s ∧
      s.mode = .word ∧ s.commands ++ [s.endWord.words] = before ++ first :: rest := by
  induction rest generalizing before first with
  | nil =>
    obtain ⟨word, words, rfl⟩ := exists_cons_of_ne_nil (calls first mem_cons_self)
    obtain ⟨s, reads, open_, ended⟩ := fold_join (s := { commands := before }) rfl rfl word words
    refine ⟨s, ?_, open_, ?_⟩
    · rw [script, map_singleton, intercalate_singleton]
      exact reads
    · rw [ended, ← endWord_commands, ended]
      rfl
  | cons second rest ih =>
    obtain ⟨here, later⟩ := forall_mem_cons.mp calls
    obtain ⟨word, words, rfl⟩ := exists_cons_of_ne_nil here
    obtain ⟨s, reads, open_, ended⟩ := fold_join (s := { commands := before }) rfl rfl word words
    have next := fold_conjunction open_
    rw [ended, ← endWord_commands, ended] at next
    obtain ⟨s', reads', open_', result⟩ := ih (before ++ [word :: words]) second later
    refine ⟨s', ?_, open_', ?_⟩
    · rw [script, map_cons, map_cons, intercalate_cons_cons, append_assoc,
        fold_append, reads, bind_some, fold_append, next, bind_some]
      exact reads'
    · rw [result, append_assoc, singleton_append]

/-- The words of every command are read back, whatever they hold. -/
lemma read_script {commands : List (List (List Char))} (some_ : commands ≠ [])
    (calls : ∀ words ∈ commands, words ≠ []) : read (script commands) = some commands := by
  obtain ⟨first, rest, rfl⟩ := exists_cons_of_ne_nil some_
  obtain ⟨s, reads, open_, result⟩ := fold_script [] first rest calls
  have words : s.endWord.words ≠ [] := by
    rw [Reader.endWord, if_pos open_]
    exact append_ne_nil_of_right_ne_nil _ (cons_ne_nil _ _)
  rw [read, reads, bind_some, Reader.finish, open_]
  exact (if_neg words).trans (congrArg some result)

end ShellWords
