import KKTerm.Library.Fallible
import KKTerm.Library.Text

/-!
# Line readers

A reader takes complete lines off a buffer that grows chunk by chunk. A line may
tell it to stop, which holds it back only until the next chunk comes, and what
is in the buffer at the end is read as one more line. When no chunk comes after
a stop, or what follows the stop settles, the cut into chunks does not matter.
-/

namespace LineReader

open Fallible List Text

variable {ε σ : Type}

/-- Read complete lines until one says stop or none is left. -/
def drain (step : σ → List Char → Except ε (σ × Bool)) (s : σ) (buf : List Char) :
    Except ε (σ × List Char) :=
  match _ : Text.splitOnce '\n' buf with
  | none => .ok (s, buf)
  | some (line, rest) => do
    let (s, stop) ← step s line
    if stop then .ok (s, rest) else drain step s rest
termination_by buf.length
decreasing_by
  rename_i cut
  have shape := (Text.splitOnce_eq_some cut).1
  simp only [shape, List.length_append, List.length_cons]
  omega

def feed (step : σ → List Char → Except ε (σ × Bool)) (r : σ × List Char) (chunk : List Char) :
    Except ε (σ × List Char) :=
  drain step r.1 (r.2 ++ chunk)

def finish (step : σ → List Char → Except ε (σ × Bool)) (r : σ × List Char) : Except ε σ :=
  return (← step r.1 r.2).1

def readAll (step : σ → List Char → Except ε (σ × Bool)) (s : σ) (chunks : List (List Char)) :
    Except ε σ :=
  chunks.foldlM (feed step) (s, []) >>= finish step

/-- What follows the first complete line that says stop. -/
def afterStop (stops : List Char → Bool) (text : List Char) : Option (List Char) :=
  match _ : Text.splitOnce '\n' text with
  | none => none
  | some (line, rest) => if stops line then some rest else afterStop stops rest
termination_by text.length
decreasing_by
  rename_i cut _
  have shape := (Text.splitOnce_eq_some cut).1
  simp only [shape, List.length_append, List.length_cons]
  omega

/-- No line changes anything, or only one line is not blank. -/
def Settled (idle : List Char → Prop) (text : List Char) : Prop :=
  (∀ line ∈ Text.split '\n' text, idle line) ∨ '\n' ∉ Text.trim text

/-- A step sees the trimmed line, and the line alone decides whether it says
stop. An idle line changes nothing, and idle lines make an idle text. -/
structure Reads (step : σ → List Char → Except ε (σ × Bool)) (stops : List Char → Bool)
    (idle : List Char → Prop) : Prop where
  trimmed : ∀ s {l l'}, Text.trim l = Text.trim l' → step s l = step s l'
  stop_eq : ∀ {s l s' stop}, step s l = .ok (s', stop) → stop = stops l
  idle_step : ∀ s {l}, idle l → step s l = .ok (s, false)
  idle_nil : idle []
  idle_text : ∀ {text}, (∀ line ∈ Text.split '\n' text, idle line) → idle text

section Equations
variable (step : σ → List Char → Except ε (σ × Bool)) (stops : List Char → Bool)
variable {line rest : List Char}

lemma drain_open (s : σ) (h : '\n' ∉ rest) : drain step s rest = .ok (s, rest) := by
  rw [drain]
  split
  · rfl
  · rename_i cut
    rw [splitOnce_of_not_mem h] at cut
    cases cut

lemma drain_line (s : σ) (h : '\n' ∉ line) :
    drain step s (line ++ '\n' :: rest) =
      step s line >>= fun r => if r.2 then .ok (r.1, rest) else drain step r.1 rest := by
  rw [drain]
  split
  · rename_i cut
    rw [splitOnce_append h] at cut
    cases cut
  · rename_i cut
    rw [splitOnce_append h] at cut
    cases cut
    rfl

lemma afterStop_open (h : '\n' ∉ rest) : afterStop stops rest = none := by
  rw [afterStop]
  split
  · rfl
  · rename_i cut
    rw [splitOnce_of_not_mem h] at cut
    cases cut

lemma afterStop_line (h : '\n' ∉ line) :
    afterStop stops (line ++ '\n' :: rest) =
      if stops line then some rest else afterStop stops rest := by
  rw [afterStop]
  split
  · rename_i cut
    rw [splitOnce_append h] at cut
    cases cut
  · rename_i cut
    rw [splitOnce_append h] at cut
    cases cut
    rfl

end Equations

section Cuts
variable {step : σ → List Char → Except ε (σ × Bool)} {stops : List Char → Bool}
variable {idle : List Char → Prop} (reads : Reads step stops idle)
include reads

variable {rest : List Char} {α : Type} {r : σ × List Char} {text : List Char}

/-- One line in front: an error, a stop, or the rest is read. -/
lemma drain_line_bind {line : List Char} (h : '\n' ∉ line) (s : σ) (rest : List Char)
    (next : σ × List Char → Except ε α) :
    (drain step s (line ++ '\n' :: rest) >>= next) =
      step s line >>= fun r =>
        if stops line then next (r.1, rest) else drain step r.1 rest >>= next := by
  rw [drain_line step s h, bind_assoc]
  refine bind_congr_ok (fun r stepped => ?_)
  rw [reads.stop_eq stepped]
  cases stops line <;> rfl

variable {a : List Char} {chunks : List (List Char)}

/-- Without a stop in the front part, the rest is read behind what it leaves. -/
lemma drain_append (running : afterStop stops a = none) (s : σ) (b : List Char)
    (next : σ × List Char → Except ε α) :
    (drain step s (a ++ b) >>= next) =
      drain step s a >>= fun r => drain step r.1 (r.2 ++ b) >>= next := by
  induction a using pieces_induction '\n' generalizing s with
  | whole a h =>
    rw [drain_open step s h]
    rfl
  | piece line a h ih =>
    rw [afterStop_line stops h] at running
    rw [append_assoc, cons_append, drain_line_bind reads h, drain_line_bind reads h]
    cases stop : stops line
    · rw [stop] at running
      exact bind_congr_ok (fun r _ => ih running r.1)
    · rw [stop] at running
      cases running

/-- A stop leaves what follows it, and the rest stays behind that. -/
lemma drain_append_stopped (stopped : afterStop stops a = some rest) (s : σ) (b : List Char)
    (next : σ × List Char → Except ε α) :
    (drain step s (a ++ b) >>= next) = drain step s a >>= fun r => next (r.1, rest ++ b) := by
  induction a using pieces_induction '\n' generalizing s with
  | whole a h =>
    rw [afterStop_open stops h] at stopped
    cases stopped
  | piece line a h ih =>
    rw [afterStop_line stops h] at stopped
    rw [append_assoc, cons_append, drain_line_bind reads h, drain_line_bind reads h]
    cases stop : stops line
    · rw [stop] at stopped
      exact bind_congr_ok (fun r _ => ih stopped r.1)
    · rw [stop] at stopped
      cases stopped
      rfl

/-- What is left without a stop is an open line, and no stop is lost with the rest. -/
lemma drain_rest (running : afterStop stops a = none) {s : σ} (done : drain step s a = .ok r) :
    '\n' ∉ r.2 ∧ ∀ b, afterStop stops (a ++ b) = afterStop stops (r.2 ++ b) := by
  induction a using pieces_induction '\n' generalizing s with
  | whole a h =>
    rw [drain_open step s h] at done
    cases done
    exact ⟨h, fun _ => rfl⟩
  | piece line a h ih =>
    rw [afterStop_line stops h] at running
    rw [drain_line step s h] at done
    obtain ⟨r₁, stepped, done⟩ := bind_eq_ok.mp done
    rw [reads.stop_eq stepped] at done
    cases stop : stops line
    · rw [stop] at running done
      obtain ⟨opened, same⟩ := ih running done
      refine ⟨opened, fun b => ?_⟩
      rw [append_assoc, cons_append, afterStop_line stops h, stop]
      exact same b
    · rw [stop] at running
      cases running

lemma drain_rest_stopped (stopped : afterStop stops a = some rest) {s : σ}
    (done : drain step s a = .ok r) : r.2 = rest := by
  have marked := drain_append_stopped reads stopped s [] Except.ok
  rw [append_nil, append_nil, done] at marked
  exact congrArg Prod.snd (Except.ok.inj marked)

lemma drain_idle {b : List Char} (quiet : ∀ line ∈ Text.split '\n' (a ++ b), idle line) (s : σ) :
    ∃ rest, drain step s a = .ok (s, rest) ∧ ∀ line ∈ Text.split '\n' (rest ++ b), idle line := by
  induction a using pieces_induction '\n' with
  | whole a h => exact ⟨a, drain_open step s h, quiet⟩
  | piece line a h ih =>
    rw [append_assoc, cons_append, split_append h] at quiet
    obtain ⟨rest, done, left⟩ := ih (fun l hl => quiet l (mem_cons_of_mem line hl))
    refine ⟨rest, ?_, left⟩
    rw [drain_line step s h, reads.idle_step s (quiet line mem_cons_self)]
    exact done

lemma finish_idle (quiet : ∀ line ∈ Text.split '\n' text, idle line) (s : σ) :
    finish step (s, text) = .ok s := by
  rw [finish, reads.idle_step s (reads.idle_text quiet)]
  rfl

lemma feed_idle (quiet : ∀ line ∈ Text.split '\n' (rest ++ chunks.flatten), idle line) (s : σ) :
    (chunks.foldlM (feed step) (s, rest) >>= finish step) = .ok s := by
  induction chunks generalizing rest with
  | nil =>
    rw [flatten_nil, append_nil] at quiet
    exact finish_idle reads quiet s
  | cons chunk chunks ih =>
    rw [flatten_cons, ← append_assoc] at quiet
    obtain ⟨left, done, quiet⟩ := drain_idle reads quiet s
    rw [foldlM_cons, feed, done]
    exact ih quiet

lemma finish_blank (blank : Blank text) (s : σ) : finish step (s, text) = .ok s := by
  have same : trim text = trim [] := trim_of_blank blank
  rw [finish, reads.trimmed s same, reads.idle_step s reads.idle_nil]
  rfl

/-- A text of one line that is not blank: the line is read wherever its end falls. -/
lemma drain_single {next : σ × List Char → Except ε σ} {b : List Char}
    (single : '\n' ∉ trim (a ++ b)) (s : σ)
    (later : ∀ s rest, '\n' ∉ trim (rest ++ b) →
      next (s, rest) = finish step (s, rest ++ b)) :
    (drain step s a >>= next) = finish step (s, a ++ b) := by
  induction a using pieces_induction '\n' generalizing s with
  | whole a h =>
    rw [drain_open step s h]
    exact later s a single
  | piece line a h ih =>
    rw [drain_line_bind reads h, append_assoc, cons_append]
    rw [append_assoc, cons_append] at single
    by_cases blank : Blank line
    · have front : trim (line ++ '\n' :: (a ++ b)) = trim (a ++ b) := trim_blank_line blank
      rw [front] at single
      have idle_line : step s line = .ok (s, false) := by
        have same : trim line = trim [] := trim_of_blank blank
        rw [reads.trimmed s same]
        exact reads.idle_step s reads.idle_nil
      have goes : stops line = false := (reads.stop_eq idle_line).symm
      rw [idle_line, goes, finish, reads.trimmed s front]
      exact ih single s
    · have behind : Blank (a ++ b) := by
        by_contra shown
        refine single ?_
        have wide : ¬ Blank ('\n' :: (a ++ b)) :=
          fun all => shown (fun c hc => all c (mem_cons_of_mem _ hc))
        rw [trim_append blank wide, ← singleton_append, trimEnd_append shown]
        simp
      have whole : trim (line ++ '\n' :: (a ++ b)) = trim line := by
        refine trim_append_blank (fun c hc => ?_)
        rcases mem_cons.mp hc with rfl | inside
        · rfl
        · exact behind c inside
      have empty : '\n' ∉ trim (a ++ b) := by
        rw [trim_of_blank behind]
        exact not_mem_nil
      rw [finish, reads.trimmed s whole]
      refine bind_congr_ok (fun r _ => ?_)
      cases stops line
      · exact (ih empty r.1).trans (finish_blank reads behind r.1)
      · exact (later r.1 a empty).trans (finish_blank reads behind r.1)

lemma feed_single (single : '\n' ∉ trim (rest ++ chunks.flatten)) (s : σ) :
    (chunks.foldlM (feed step) (s, rest) >>= finish step) =
      finish step (s, rest ++ chunks.flatten) := by
  induction chunks generalizing rest s with
  | nil =>
    rw [flatten_nil, append_nil]
    rfl
  | cons chunk chunks ih =>
    rw [flatten_cons, ← append_assoc] at single ⊢
    rw [foldlM_cons, bind_assoc]
    exact drain_single reads single s (fun s rest single => ih single s)

lemma feed_settled (settled : Settled idle (rest ++ chunks.flatten)) (s : σ) :
    (chunks.foldlM (feed step) (s, rest) >>= finish step) =
      finish step (s, rest ++ chunks.flatten) := by
  rcases settled with quiet | single
  · rw [feed_idle reads quiet, finish_idle reads quiet]
  · exact feed_single reads single s

lemma feed_cut (opened : '\n' ∉ rest)
    (settled : ∀ k < chunks.length, ∀ after ∈ afterStop stops (rest ++ (chunks.take k).flatten),
      Settled idle (after ++ (chunks.drop k).flatten))
    (s : σ) :
    (chunks.foldlM (feed step) (s, rest) >>= finish step) =
      drain step s (rest ++ chunks.flatten) >>= finish step := by
  induction chunks generalizing rest s with
  | nil =>
    rw [flatten_nil, append_nil, drain_open step s opened]
    rfl
  | cons chunk chunks ih =>
    rw [flatten_cons, ← append_assoc, foldlM_cons, bind_assoc]
    cases chunks with
    | nil =>
      rw [flatten_nil, append_nil]
      rfl
    | cons second chunks =>
      have next := settled 1 (by simp)
      rw [take_succ_cons, take_zero, flatten_singleton, drop_succ_cons, drop_zero] at next
      cases stopped : afterStop stops (rest ++ chunk) with
      | none =>
        rw [drain_append reads stopped]
        refine bind_congr_ok (fun r done => ?_)
        obtain ⟨opened', same⟩ := drain_rest reads stopped done
        refine ih opened' (fun k hk after found => ?_) r.1
        rw [← same, append_assoc, ← flatten_cons, ← take_succ_cons] at found
        exact settled (k + 1) (Nat.succ_lt_succ hk) after found
      | some after =>
        rw [drain_append_stopped reads stopped]
        refine bind_congr_ok (fun r done => ?_)
        have left := drain_rest_stopped reads stopped done
        rw [← left]
        exact feed_settled reads (left ▸ next after stopped) r.1

/-- The cut into chunks does not matter when no chunk comes after a stop, or
what follows the stop settles. -/
lemma readAll_cut (s : σ)
    (settled : ∀ k < chunks.length, ∀ after ∈ afterStop stops (chunks.take k).flatten,
      Settled idle (after ++ (chunks.drop k).flatten)) :
    readAll step s chunks = readAll step s [chunks.flatten] := by
  have whole : readAll step s [chunks.flatten] = drain step s chunks.flatten >>= finish step := by
    rw [readAll, foldlM_cons, bind_assoc]
    rfl
  rw [whole]
  exact feed_cut reads not_mem_nil settled s

end Cuts

end LineReader
