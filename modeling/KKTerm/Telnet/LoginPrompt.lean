import KKTerm.Library.Octets
import KKTerm.Library.Runs
import KKTerm.Library.Text
import KKTerm.Library.Utf8

/-!
# Tracking the login prompt

What the remote end has said lately is kept in lower case, cut to its last octets when it grows
too long. The cut is an octet offset, at which a character has to begin.
-/

namespace Telnet

open Octets

structure NativeTelnetTerminalRequest where
  user : List Char
  password : List Char

structure LoginPrompts where
  sentUser : Bool := false
  sentPassword : Bool := false
  recentOutput : List Char := []
  deriving DecidableEq

section Tracking
variable (toLowercase : List Char → List Char) (request : NativeTelnetTerminalRequest)

/-- What was said lately, with the new data. -/
def LoginPrompts.heard (prompts : LoginPrompts) (data : List UInt8) : List Char :=
  prompts.recentOutput ++ toLowercase (Utf8.fromUtf8Lossy data)

/-- Only the last octets of a long text are kept. There is no text at an offset inside of a
character, where the slice panics. -/
def keepRecent (output : List Char) : Option (List Char) :=
  let length := (encode output).length
  if 2048 < length then dropOctets output (length - 1024) else some output

/-- Answer a prompt in what was said lately. Without a password the user answers. -/
def answerPrompt (prompts : LoginPrompts) (recentOutput : List Char) : LoginPrompts × List Char :=
  if !prompts.sentUser && (Text.contains recentOutput "login:".toList ||
      Text.contains recentOutput "username:".toList) then
    ({ prompts with sentUser := true, recentOutput := [] },
      Text.trim request.user ++ ['\r', '\n'])
  else if request.password ≠ [] ∧ prompts.sentUser ∧ !prompts.sentPassword ∧
      Text.contains recentOutput "password:".toList then
    ({ prompts with sentPassword := true, recentOutput := [] }, request.password ++ ['\r', '\n'])
  else ({ prompts with recentOutput }, [])

/-- The prompts and what is written, or none for a panic. -/
def maybeAnswerLoginPrompt (prompts : LoginPrompts) (data : List UInt8) :
    Option (LoginPrompts × List Char) :=
  (keepRecent (prompts.heard toLowercase data)).map (answerPrompt request prompts)

/-- What the reader thread goes on with after a chunk of received data. -/
def readChunk (prompts : LoginPrompts) (data : List UInt8) : Option LoginPrompts :=
  (maybeAnswerLoginPrompt toLowercase request prompts data).map Prod.fst

/-- If the text is long, some of its last characters take up 1024 octets. -/
def CutsAtCharacter (output : List Char) : Prop :=
  2048 < (encode output).length →
    ∃ kept, kept <:+ output ∧ (encode kept).length = 1024

end Tracking

/-- There is a text from an offset on exactly when a character begins there. -/
lemma dropOctets_isSome_iff {t : List Char} {offset : Nat} :
    (dropOctets t offset).isSome ↔
      ∃ front rest, t = front ++ rest ∧ (encode front).length = offset := by
  constructor
  · intro found
    induction t generalizing offset with
    | nil =>
      cases offset with
      | zero => exact ⟨[], [], rfl, rfl⟩
      | succ n => cases found
    | cons c t ih =>
      cases offset with
      | zero => exact ⟨[], c :: t, rfl, rfl⟩
      | succ n =>
        rw [dropOctets] at found
        split at found
        · rename_i fits
          obtain ⟨front, rest, rfl, before⟩ := ih found
          refine ⟨c :: front, rest, rfl, ?_⟩
          rw [length_encode_cons]
          omega
        · cases found
  · rintro ⟨front, rest, rfl, rfl⟩
    rw [dropOctets_append]
    rfl

lemma keepRecent_isSome_iff (output : List Char) :
    (keepRecent output).isSome ↔ CutsAtCharacter output := by
  simp only [keepRecent, CutsAtCharacter]
  split
  · rename_i long
    rw [dropOctets_isSome_iff]
    constructor
    · rintro ⟨front, kept, rfl, before⟩ -
      refine ⟨kept, List.suffix_append _ _, ?_⟩
      rw [encode_append, List.length_append] at long before
      omega
    · intro cuts
      obtain ⟨kept, ⟨front, rfl⟩, size⟩ := cuts long
      refine ⟨front, kept, rfl, ?_⟩
      rw [encode_append, List.length_append]
      omega
  · rename_i short
    simp [short]

/-- A chunk is read exactly when the text cuts at a character. -/
lemma readChunk_isSome_iff (toLowercase : List Char → List Char)
    (request : NativeTelnetTerminalRequest) (prompts : LoginPrompts) (data : List UInt8) :
    (readChunk toLowercase request prompts data).isSome ↔
      CutsAtCharacter (prompts.heard toLowercase data) := by
  rw [readChunk, Option.isSome_map, maybeAnswerLoginPrompt, Option.isSome_map,
    keepRecent_isSome_iff]

end Telnet
