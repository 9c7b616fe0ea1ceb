import KKTerm.Library.Redaction
import KKTerm.Library.Text

/-!
# Redaction of remote output

The SSH transport scrubs the sudo secrets from every chunk before it reaches the
live stream. Chunks are scrubbed one by one, so a secret that straddles a cut is
seen unless one of its characters falls to a redaction inside a chunk.
-/

namespace ItOps

open List hiding replace
open Redaction

/-- Placeholder for a secret that surfaces in the output. -/
def redactedSecret : List Char := ['•', '•', '•', '•', '•', '•']

/-- Empty secrets are ignored: an unset credential cannot blank the transcript. -/
def redactSecrets (text : List Char) (secrets : List (List Char)) : List Char :=
  secrets.foldl (fun redacted secret =>
    if secret.isEmpty then redacted
    else if Text.contains redacted secret then replace secret redactedSecret redacted
    else redacted) text

/-- The output kept for the report and the chunks handed to `on_chunk`. -/
structure Capture where
  streamedOutput : List Char
  live : List (List Char)

def Capture.new : Capture := { streamedOutput := [], live := [] }

def captureChunk (redactions : List (List Char)) (c : Capture) (chunk : List Char) : Capture :=
  let safe := redactSecrets chunk redactions
  { streamedOutput := c.streamedOutput ++ safe, live := c.live ++ [safe] }

def capture (redactions : List (List Char)) (chunks : List (List Char)) : Capture :=
  chunks.foldl (captureChunk redactions) Capture.new

structure ExecOutcome where
  ok : Bool
  exitCode : Option Int
  output : List Char
  error : Option String

/-- The tokens of a text after all secrets are struck. -/
def redactTokens (secrets : List (List Char)) (text : List Char) : List (Token Char) :=
  Token.strikeAll secrets (text.map Token.kept)

lemma mark_disjoint {secret : List Char} (plain : '•' ∉ secret) :
    ∀ a ∈ redactedSecret, a ∉ secret := by
  intro a member
  have bullet : a = '•' := by simpa [redactedSecret] using member
  rwa [bullet]

lemma redactSecrets_cons (text secret : List Char) (secrets : List (List Char)) :
    redactSecrets text (secret :: secrets) =
      redactSecrets (if secret = [] then text else replace secret redactedSecret text) secrets := by
  have step : (if secret.isEmpty then text
      else if Text.contains text secret then replace secret redactedSecret text else text) =
      if secret = [] then text else replace secret redactedSecret text := by
    by_cases empty : secret = []
    · simp [empty]
    · by_cases occurs : secret <:+: text
      · simp [empty, Text.contains, occurs]
      · simp [empty, Text.contains, occurs, replace_of_absent occurs]
  rw [← step]
  rfl

section Plain
variable {secrets : List (List Char)} (plain : ∀ secret ∈ secrets, '•' ∉ secret)

include plain in
lemma redactSecrets_render (ts : List (Token Char)) :
    redactSecrets (Token.render redactedSecret ts) secrets =
      Token.render redactedSecret (Token.strikeAll secrets ts) := by
  induction secrets generalizing ts with
  | nil => rfl
  | cons secret secrets ih =>
    have later := ih (fun s hs => plain s (mem_cons_of_mem secret hs))
    rw [redactSecrets_cons, Token.strikeAll_cons]
    by_cases empty : secret = []
    · rw [if_pos empty, dif_pos empty, later]
    · have disjoint := mark_disjoint (plain secret mem_cons_self)
      rw [if_neg empty, dif_neg empty, ← Token.render_strike (by decide) disjoint empty, later]

include plain in
/-- The redacted text is what the reader sees of the struck tokens. -/
lemma redactSecrets_eq (text : List Char) :
    redactSecrets text secrets = Token.render redactedSecret (redactTokens secrets text) := by
  have whole := redactSecrets_render plain (text.map Token.kept)
  rwa [Token.render_kept] at whole

lemma original_redactTokens (secrets : List (List Char)) (text : List Char) :
    Token.original (redactTokens secrets text) = text := by
  rw [redactTokens, Token.original_strikeAll, Token.original_kept]

end Plain

variable (redactions chunks : List (List Char))

lemma foldl_captureChunk (c : Capture) (chunks : List (List Char)) :
    chunks.foldl (captureChunk redactions) c =
      { streamedOutput := c.streamedOutput ++ (chunks.map (redactSecrets · redactions)).flatten
        live := c.live ++ chunks.map (redactSecrets · redactions) } := by
  induction chunks generalizing c with
  | nil => simp
  | cons chunk chunks ih =>
    rw [foldl_cons, ih]
    simp [captureChunk, append_assoc]

lemma capture_live :
    (capture redactions chunks).live = chunks.map (redactSecrets · redactions) := by
  rw [capture, foldl_captureChunk]
  rfl

def streamTokens (redactions chunks : List (List Char)) : List (Token Char) :=
  (chunks.map (redactTokens redactions)).flatten

/-- The character at position `k` of the transcript belongs to an occurrence that
is redacted within its own chunk. -/
def RedactedAt (redactions chunks : List (List Char)) (k : Nat) : Prop :=
  (Token.struckMask (streamTokens redactions chunks))[k]? = some true

lemma original_streamTokens :
    Token.original (streamTokens redactions chunks) = chunks.flatten := by
  induction chunks with
  | nil => rfl
  | cons chunk chunks ih =>
    rw [streamTokens, map_cons, flatten_cons, Token.original_append,
      original_redactTokens, flatten_cons]
    exact congrArg (chunk ++ ·) ih

lemma live_eq_render {redactions : List (List Char)} (plain : ∀ secret ∈ redactions, '•' ∉ secret)
    (chunks : List (List Char)) :
    (capture redactions chunks).live.flatten =
      Token.render redactedSecret (streamTokens redactions chunks) := by
  rw [capture_live]
  induction chunks with
  | nil => rfl
  | cons chunk chunks ih =>
    rw [map_cons, flatten_cons, ih, redactSecrets_eq plain, streamTokens, streamTokens,
      map_cons, flatten_cons, Token.render_append]

/-- The live stream hides a secret exactly when every occurrence that straddles a
cut shares a character with an occurrence redacted within its own chunk. -/
theorem live_stream_hides {redactions : List (List Char)}
    (plain : ∀ secret ∈ redactions, '•' ∉ secret) {secret : List Char}
    (member : secret ∈ redactions) (nonempty : secret ≠ []) (chunks : List (List Char)) :
    ¬ secret <:+: (capture redactions chunks).live.flatten ↔
      ∀ front back before after, chunks = front ++ back →
        chunks.flatten = before ++ secret ++ after →
        before.length < front.flatten.length →
        front.flatten.length < before.length + secret.length →
        ∃ k, before.length ≤ k ∧ k < before.length + secret.length ∧
          RedactedAt redactions chunks k := by
  rw [live_eq_render plain,
    Token.infix_render (by decide) (mark_disjoint (plain secret member)) nonempty]
  constructor
  · intro hidden front back before after _ text _ _
    by_contra untouched
    refine hidden ((Token.infix_kept_iff nonempty).mpr ⟨before, after, ?_, ?_⟩)
    · rw [original_streamTokens, text]
    · exact fun k first last struck => untouched ⟨k, first, last, struck⟩
  · intro covered shown
    rcases infix_flatten (Token.map_kept_ne_nil nonempty) shown with
      ⟨part, inside, here⟩ | ⟨front, back, before, left, right, after, parts, word, left_some,
        right_some, front_cut, back_cut⟩
    · -- Within one chunk nothing is left of a secret.
      obtain ⟨chunk, _, rfl⟩ := mem_map.mp inside
      exact Token.not_infix_strikeAll member nonempty _ here
    · obtain ⟨chunks₁, chunks₂, rfl, rfl, rfl⟩ := map_eq_append_iff.mp parts
      obtain ⟨l, r, rfl, rfl, rfl⟩ := map_eq_append_iff.mp word
      have l_some : l ≠ [] := fun none => left_some (by rw [none, map_nil])
      have r_some : r ≠ [] := fun none => right_some (by rw [none, map_nil])
      have front_text : chunks₁.flatten = Token.original before ++ l := by
        rw [← original_streamTokens redactions, streamTokens, front_cut, Token.original_append,
          Token.original_kept]
      have back_text : chunks₂.flatten = r ++ Token.original after := by
        rw [← original_streamTokens redactions, streamTokens, back_cut, Token.original_append,
          Token.original_kept]
      have tokens : streamTokens redactions (chunks₁ ++ chunks₂) =
          before ++ (l ++ r).map Token.kept ++ after := by
        rw [streamTokens, map_append, flatten_append, front_cut, back_cut]
        simp
      have l_long := length_pos_iff.mpr l_some
      have r_long := length_pos_iff.mpr r_some
      obtain ⟨k, first, last, struck⟩ := covered chunks₁ chunks₂ (Token.original before)
        (Token.original after) rfl (by rw [flatten_append, front_text, back_text]; simp)
        (by rw [front_text, length_append]; omega)
        (by rw [front_text, length_append, length_append]; omega)
      rw [RedactedAt, tokens] at struck
      exact Token.not_struck_between before after first last struck

/-- `aa` occurs twice in `aa`, `a`: striking the first leaves one `a` of the second. -/
theorem overlapping_occurrence_hidden :
    ¬ ['a', 'a'] <:+: (capture [['a', 'a']] [['a', 'a'], ['a']]).live.flatten := by
  refine (live_stream_hides (by decide) mem_cons_self (by decide) _).mpr ?_
  intro front back before after _ text _ _
  have total := congrArg length text
  simp at total
  refine ⟨before.length, Nat.le_refl _, by simp, ?_⟩
  have early : before.length = 0 ∨ before.length = 1 := by omega
  rcases early with start | start <;> rw [RedactedAt, start] <;> decide

/-- The secret `ab` arrives in two chunks. -/
theorem straddling_secret_shown :
    ['a', 'b'] <:+: (capture [['a', 'b']] [['a'], ['b']]).live.flatten := by
  decide

/-- No secret is left in an output that is scrubbed as a whole, as each one is before it is
reported, and scrubbing it again changes nothing. -/
theorem scrubbed_output_hides (output : List Char) (secrets : List (List Char))
    (plain : ∀ secret ∈ secrets, '•' ∉ secret) :
    (∀ secret ∈ secrets, secret ≠ [] → ¬ secret <:+: redactSecrets output secrets) ∧
      redactSecrets (redactSecrets output secrets) secrets = redactSecrets output secrets := by
  have hidden : ∀ secret ∈ secrets, secret ≠ [] → ¬ secret <:+: redactSecrets output secrets := by
    intro secret member nonempty shown
    have disjoint := mark_disjoint (plain secret member)
    rw [redactSecrets_eq plain, Token.infix_render (by decide) disjoint nonempty] at shown
    exact Token.not_infix_strikeAll member nonempty _ shown
  refine ⟨hidden, ?_⟩
  generalize redactSecrets output secrets = clean at hidden
  clear plain
  induction secrets with
  | nil => rfl
  | cons secret secrets ih =>
    obtain ⟨here, later⟩ := forall_mem_cons.mp hidden
    rw [redactSecrets_cons]
    split
    · exact ih later
    · rw [replace_of_absent (here ‹_›)]
      exact ih later

theorem overlapping_output_scrubbed : redactSecrets ['a', 'a', 'a'] [['a', 'a'], ['a']] =
    redactSecrets (redactSecrets ['a', 'a', 'a'] [['a', 'a'], ['a']]) [['a', 'a'], ['a']] :=
  (scrubbed_output_hides ['a', 'a', 'a'] [['a', 'a'], ['a']] (by decide)).2.symm

end ItOps
