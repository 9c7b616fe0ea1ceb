import KKTerm.Library.Runs
import KKTerm.Library.Text
import Mathlib.Data.List.Perm.Basic

/-!
# A stream of the host's AI

A worker appends what the model says to a buffer, which a module reads in pieces. A call that
reads looks the stream up, takes a piece under the lock of the stream, and removes the stream
from the table when it was the last one; other calls and the worker may come in between.
-/

namespace CustomModules

open Runs List Option

def maxHostAiBufferBytes : Nat :=
  1024 * 1024

def maxHostAiReadChars : Nat :=
  64 * 1024

structure HostAiStreamState where
  pending : List Char := []
  done : Bool := false
  error : Option (List Char) := none
  providerKind : Option (List Char) := none
  model : Option (List Char) := none
  deriving DecidableEq

inductive Answer where
  | read (delta : List Char) (done : Bool) (providerKind model : Option (List Char))
  | failed (error : List Char)
  | notFound
  deriving DecidableEq

namespace Answer

def text : Answer → List Char
  | .read delta _ _ _ => delta
  | _ => []

/-- The answers behind which there is nothing more to read. -/
def closes : Answer → Bool
  | .read _ done _ _ => done
  | .failed _ => true
  | .notFound => false

end Answer

def takePrefixChars (value : List Char) (maxChars : Nat) : List Char × List Char :=
  (value.take maxChars, value.drop maxChars)

/-- The part of a call that holds the lock. -/
def HostAiStreamState.read (s : HostAiStreamState) : Answer × HostAiStreamState :=
  let (delta, pending) := takePrefixChars s.pending maxHostAiReadChars
  if s.done && pending.isEmpty then
    match s.error with
    | some error => (.failed error, { s with pending, error := none })
    | none => (.read delta true s.providerKind s.model, { s with pending })
  else (.read delta false s.providerKind s.model, { s with pending })

/-- A stream with the calls on its token: those that have found it, those that have taken the
last piece and not yet removed the token, and the answers so far. What the callback accepted
and how the worker ended is kept for comparison. -/
structure HostAiStream where
  state : HostAiStreamState := {}
  cancelled : Bool := false
  listed : Bool := true
  found : Nat := 0
  closing : List Answer := []
  answers : List Answer := []
  accepted : List (List Char) := []
  result : Option (Option (List Char)) := none
  deriving DecidableEq

inductive StreamAction where
  /-- An event of the worker's channel with content. -/
  | contentDelta (delta : List Char)
  /-- Its event that names the provider. -/
  | provider (providerKind model : Option (List Char))
  /-- The end of the worker, perhaps with an error. -/
  | finish (error : Option (List Char))
  | find
  | take
  | remove (answer : Answer)
  | cancel
  deriving DecidableEq

namespace HostAiStream

def push (s : HostAiStream) (delta : List Char) : HostAiStream :=
  { s with
    state := { s.state with pending := s.state.pending ++ delta }
    accepted := s.accepted ++ [delta] }

/-- A call takes its piece; one that closes the stream has still to remove the token. -/
def takePiece (s : HostAiStream) : HostAiStream :=
  let piece := s.state.read
  if piece.1.closes then
    { s with state := piece.2, found := s.found - 1, closing := s.closing ++ [piece.1] }
  else { s with state := piece.2, found := s.found - 1, answers := s.answers ++ [piece.1] }

def step (s : HostAiStream) : StreamAction → Option HostAiStream
  | .contentDelta delta =>
    if s.state.done then none
    else if s.cancelled ||
        maxHostAiBufferBytes < Text.byteLength s.state.pending + Text.byteLength delta then some s
    else some (s.push delta)
  | .provider providerKind model =>
    if s.state.done then none
    else if s.cancelled then some s
    else some { s with state := { s.state with providerKind, model } }
  | .finish error =>
    if s.state.done then none
    else some { s with
      state := {
        s.state with
        done := true
        error := if error.isSome && !s.cancelled then error else s.state.error }
      result := some error }
  | .find =>
    if s.listed then some { s with found := s.found + 1 }
    else some { s with answers := s.answers ++ [.notFound] }
  | .take => if s.found = 0 then none else some s.takePiece
  | .remove answer =>
    if answer ∈ s.closing then
      some { s with
        listed := false
        closing := s.closing.erase answer
        answers := s.answers ++ [answer] }
    else none
  | .cancel => if s.listed then some { s with listed := false, cancelled := true } else some s

/-- The last answer tells how the worker ended. -/
def Reports (result : Option (Option (List Char))) (a : Answer) : Prop :=
  match result with
  | none => False
  | some none => ∃ delta providerKind model, a = .read delta true providerKind model
  | some (some error) => a = .failed error

/-- All the text has been given out in order, one answer was the last, and the token is gone. -/
structure Delivered (s : HostAiStream) : Prop where
  text : s.answers.flatMap Answer.text = s.accepted.flatten
  last : ∃ a, s.answers.filter Answer.closes = [a] ∧ Reports s.result a
  gone : s.listed = false

/-- Some call has closed the stream, even if its answer is not out yet. -/
def Closed (s : HostAiStream) : Prop :=
  ∃ a ∈ s.answers ++ s.closing, a.closes = true

/-- The next piece is the last one, and there is an error to report instead of it. -/
def Drops (s : HostAiStream) : Prop :=
  s.state.done = true ∧ s.state.error.isSome = true ∧ s.state.pending ≠ [] ∧
    s.state.pending.length ≤ maxHostAiReadChars

/-- Behind the answer that closes the stream no call finds the token. -/
def Silent (actions : List StreamAction) : Prop :=
  ∀ front back t, actions = front ++ back → run step {} front = some t →
    (∃ a ∈ t.answers, a.closes = true) → t.listed = false

instance decidableClosed (s : HostAiStream) : Decidable s.Closed :=
  inferInstanceAs (Decidable (∃ a ∈ s.answers ++ s.closing, a.closes = true))

instance decidableDrops (s : HostAiStream) : Decidable s.Drops :=
  inferInstanceAs (Decidable (_ ∧ _ ∧ _ ∧ _))

/-- No piece is taken where the last text would be dropped, or behind the last piece. -/
def Undisturbed (s : HostAiStream) (a : StreamAction) : Prop :=
  a = .take → ¬ s.Drops ∧ ¬ s.Closed

instance decidableUndisturbed (s : HostAiStream) (a : StreamAction) : Decidable (s.Undisturbed a) :=
  inferInstanceAs (Decidable (a = .take → ¬ s.Drops ∧ ¬ s.Closed))

/-- A call has closed the stream, and no call is under way. -/
def Over (s : HostAiStream) : Prop :=
  (∃ a ∈ s.answers, a.closes = true) ∧ s.found = 0 ∧ s.closing = []

lemma read_more {s : HostAiStreamState}
    (more : ¬ (s.done = true ∧ s.pending.length ≤ maxHostAiReadChars)) :
    s.read = (.read (s.pending.take maxHostAiReadChars) false s.providerKind s.model,
      { s with pending := s.pending.drop maxHostAiReadChars }) := by
  have goes_on : (s.done && (s.pending.drop maxHostAiReadChars).isEmpty) = false := by
    rw [Bool.eq_false_iff]
    intro last
    obtain ⟨done, empty⟩ := Bool.and_eq_true_iff.mp last
    exact more ⟨done, drop_eq_nil_iff.mp (List.isEmpty_iff.mp empty)⟩
  rw [HostAiStreamState.read, takePrefixChars]
  simp only [goes_on, Bool.false_eq_true, if_false]

lemma read_last {s : HostAiStreamState} (done : s.done = true)
    (short : s.pending.length ≤ maxHostAiReadChars) :
    s.read = match s.error with
      | some error => (.failed error, { s with pending := [], error := none })
      | none => (.read s.pending true s.providerKind s.model, { s with pending := [] }) := by
  have rest := drop_eq_nil_of_le short
  have piece := take_of_length_le short
  rw [HostAiStreamState.read, takePrefixChars]
  simp only [rest, piece, done, isEmpty_nil, Bool.and_self, if_true]

/-- What a call takes is gone from the buffer, and is its text unless there is an error. -/
lemma read_text (s : HostAiStreamState) :
    (s.read.1.text ++ s.read.2.pending).length ≤ s.pending.length := by
  by_cases last : s.done = true ∧ s.pending.length ≤ maxHostAiReadChars
  · rw [read_last last.1 last.2]
    cases s.error with
    | some error => exact Nat.zero_le _
    | none => simp [Answer.text]
  · rw [read_more last]
    simp [Answer.text]

/-- All that has been given out, and what is left in the buffer. -/
def text (s : HostAiStream) : List Char :=
  (s.answers ++ s.closing).flatMap Answer.text ++ s.state.pending

def closings (s : HostAiStream) : Nat :=
  (s.answers ++ s.closing).countP Answer.closes

def Broken (s : HostAiStream) : Prop :=
  s.text.length < s.accepted.flatten.length ∨ 2 ≤ s.closings

section Steps
variable {s s' : HostAiStream} {a : StreamAction}

lemma takePiece_closes (closes : s.state.read.1.closes = true) :
    s.takePiece = { s with
      state := s.state.read.2
      found := s.found - 1
      closing := s.closing ++ [s.state.read.1] } :=
  if_pos closes

lemma takePiece_goes_on (more : s.state.read.1.closes = false) :
    s.takePiece = { s with
      state := s.state.read.2
      found := s.found - 1
      answers := s.answers ++ [s.state.read.1] } :=
  if_neg (Bool.eq_false_iff.mp more)

lemma answers_takePiece (s : HostAiStream) :
    (s.takePiece.answers ++ s.takePiece.closing).Perm
      (s.answers ++ s.closing ++ [s.state.read.1]) := by
  cases closes : s.state.read.1.closes with
  | true => rw [takePiece_closes closes, append_assoc]
  | false =>
    rw [takePiece_goes_on closes, append_assoc, append_assoc]
    exact Perm.append_left _ perm_append_comm

lemma state_takePiece (s : HostAiStream) :
    s.takePiece.state = s.state.read.2 ∧ s.takePiece.accepted = s.accepted := by
  cases closes : s.state.read.1.closes with
  | true =>
    rw [takePiece_closes closes]
    exact ⟨rfl, rfl⟩
  | false =>
    rw [takePiece_goes_on closes]
    exact ⟨rfl, rfl⟩

lemma answers_remove {answer : Answer} (closing : answer ∈ s.closing) :
    (s.answers ++ [answer] ++ s.closing.erase answer).Perm (s.answers ++ s.closing) := by
  rw [append_assoc]
  exact Perm.append_left _ (perm_cons_erase closing).symm

lemma length_text (s : HostAiStream) :
    s.text.length = ((s.answers ++ s.closing).flatMap Answer.text).length +
      s.state.pending.length := by
  rw [text, length_append]

lemma closings_takePiece (s : HostAiStream) :
    s.takePiece.closings = s.closings + if s.state.read.1.closes then 1 else 0 := by
  rw [closings, (answers_takePiece s).countP_eq, countP_append, countP_singleton]
  rfl

/-- What is lost once stays lost, and an answer once given stays given. -/
lemma broken_step (taken : s.step a = some s') (broken : s.Broken) : s'.Broken := by
  cases a with
  | contentDelta delta =>
    obtain ⟨-, taken⟩ := ite_none_left_eq_some.mp taken
    split_ifs at taken
    · cases taken
      exact broken
    · cases taken
      refine broken.imp (fun lost => ?_) id
      rw [length_text] at lost ⊢
      simp only [push, flatten_append, flatten_singleton, length_append] at lost ⊢
      omega
  | provider providerKind model =>
    obtain ⟨-, taken⟩ := ite_none_left_eq_some.mp taken
    split_ifs at taken <;> cases taken <;> exact broken
  | finish error =>
    cases (ite_none_left_eq_some.mp taken).2
    exact broken
  | find =>
    rw [step] at taken
    split_ifs at taken
    · cases taken
      exact broken
    · cases taken
      have perm : (s.answers ++ [Answer.notFound] ++ s.closing).Perm
          (s.answers ++ s.closing ++ [Answer.notFound]) := by
        rw [append_assoc, append_assoc]
        exact Perm.append_left _ perm_append_comm
      refine broken.imp (fun lost => ?_) (fun twice => ?_)
      · rw [length_text] at lost ⊢
        rw [(perm.flatMap_right _).length_eq, flatMap_append, length_append]
        exact lost
      · rw [closings] at twice ⊢
        rw [perm.countP_eq, countP_append]
        omega
  | take =>
    cases (ite_none_left_eq_some.mp taken).2
    obtain ⟨state, accepted⟩ := state_takePiece s
    refine broken.imp (fun lost => ?_) (fun twice => ?_)
    · have shorter := read_text s.state
      rw [length_text] at lost ⊢
      rw [((answers_takePiece s).flatMap_right _).length_eq, flatMap_append,
        flatMap_singleton, length_append, state, accepted]
      rw [length_append] at shorter
      omega
    · rw [closings_takePiece]
      omega
  | remove answer =>
    rw [step, ite_none_right_eq_some] at taken
    obtain ⟨closing, taken⟩ := taken
    cases taken
    refine broken.imp (fun lost => ?_) (fun twice => ?_)
    · rw [length_text] at lost ⊢
      rw [((answers_remove closing).flatMap_right _).length_eq]
      exact lost
    · rw [closings] at twice ⊢
      rw [(answers_remove closing).countP_eq]
      exact twice
  | cancel =>
    rw [step] at taken
    split_ifs at taken <;> cases taken <;> exact broken

end Steps

/-- While nothing is lost, the text is in order, and at most one answer closes the stream, behind
the whole text and with the end of the worker. -/
structure Intact (s : HostAiStream) : Prop where
  text : s.text = s.accepted.flatten
  once : s.closings ≤ 1
  ended : s.Closed → s.state.done = true ∧ s.state.pending = []
  gone : (∃ a ∈ s.answers, a.closes = true) → s.listed = false
  error : ¬ s.Closed → s.state.error = s.result.join
  done : s.state.done = s.result.isSome
  reports : ∀ a ∈ s.answers ++ s.closing, a.closes = true → Reports s.result a
  closing : ∀ a ∈ s.closing, a.closes = true
  kept : s.cancelled = false

lemma intact_open : Intact {} where
  text := rfl
  once := by decide
  ended := fun closed => absurd closed (by decide)
  gone := fun closed => absurd closed (by decide)
  error := fun _ => rfl
  done := rfl
  reports := nofun
  closing := nofun
  kept := rfl

section Steps
variable {s s' : HostAiStream} {a : StreamAction}

lemma closed_iff : s.Closed ↔ 0 < s.closings :=
  countP_pos_iff.symm

/-- Only before the worker is done is a stream changed by it. -/
lemma not_closed (intact : s.Intact) (working : s.state.done = false) : ¬ s.Closed := by
  intro closed
  rw [(intact.ended closed).1] at working
  cases working

lemma intact_contentDelta {delta : List Char} (intact : s.Intact) (open_ : ¬ s.Closed) :
    (s.push delta).Intact where
  text := by
    have whole := intact.text
    rw [text] at whole ⊢
    simp only [push, flatten_append, flatten_singleton, ← whole, append_assoc]
  once := intact.once
  ended := fun closed => absurd closed open_
  gone := intact.gone
  error := intact.error
  done := intact.done
  reports := intact.reports
  closing := intact.closing
  kept := intact.kept

lemma intact_finish {error : Option (List Char)} (intact : s.Intact) (open_ : ¬ s.Closed)
    (working : s.state.done = false) :
    Intact { s with
      state := { s.state with
        done := true
        error := if error.isSome && !s.cancelled then error else s.state.error }
      result := some error } where
  text := intact.text
  once := intact.once
  ended := fun closed => absurd closed open_
  gone := intact.gone
  error := by
    intro _
    have before := intact.error open_
    have running := intact.done
    rw [working] at running
    have fresh : s.result = none := not_isSome_iff_eq_none.mp (by rw [← running]; decide)
    rw [fresh] at before
    cases error with
    | some error => simp [intact.kept]
    | none => simpa using before
  done := rfl
  reports := fun a member closes => absurd ⟨a, member, closes⟩ open_
  closing := intact.closing
  kept := intact.kept

lemma closing_eq_nil (intact : s.Intact) (open_ : ¬ s.Closed) : s.closing = [] := by
  refine eq_nil_iff_forall_not_mem.mpr (fun a member => open_ ?_)
  exact ⟨a, mem_append_right _ member, intact.closing a member⟩

lemma closings_eq_zero (open_ : ¬ s.Closed) : s.closings = 0 :=
  Nat.eq_zero_of_not_pos (fun some_ => open_ (closed_iff.mpr some_))

section
variable (intact : s.Intact)
include intact

lemma intact_more (open_ : ¬ s.Closed)
    (more : ¬ (s.state.done = true ∧ s.state.pending.length ≤ maxHostAiReadChars)) :
    s.takePiece.Intact := by
  have none_ := closing_eq_nil intact open_
  have piece := read_more more
  have goes_on : s.state.read.1.closes = false := by
    rw [piece]
    rfl
  have still : ¬ s.takePiece.Closed := by
    rw [closed_iff, closings_takePiece, closings_eq_zero open_, goes_on]
    decide
  rw [takePiece_goes_on goes_on] at still ⊢
  refine ⟨?_, ?_, fun closed => absurd closed still, ?_, ?_, ?_, ?_, ?_, intact.kept⟩
  · have whole := intact.text
    rw [text, none_, append_nil] at whole
    rw [text, none_, append_nil, flatMap_append, flatMap_singleton, piece,
      Answer.text, append_assoc, take_append_drop, whole]
  · exact (closings_eq_zero still).le.trans (Nat.zero_le 1)
  · rintro ⟨a, member, closes⟩
    exact absurd ⟨a, mem_append_left _ member, closes⟩ still
  · intro _
    rw [piece]
    exact intact.error open_
  · rw [piece]
    exact intact.done
  · exact fun a member closes => absurd ⟨a, member, closes⟩ still
  · exact intact.closing

/-- The last piece, with the whole rest of the text or with an error behind it. -/
lemma intact_last (open_ : ¬ s.Closed) (keeps : ¬ s.Drops)
    (done : s.state.done = true) (short : s.state.pending.length ≤ maxHostAiReadChars) :
    s.takePiece.Intact := by
  have none_ := closing_eq_nil intact open_
  have piece := read_last done short
  have result := intact.error open_
  have ended := intact.done
  rw [done] at ended
  obtain ⟨error, worker⟩ := isSome_iff_exists.mp ended.symm
  rw [worker, join_some] at result
  rw [result] at piece
  have taken : s.state.read.1.text = s.state.pending ∧ s.state.read.1.closes = true ∧
      s.state.read.2.pending = [] ∧ s.state.read.2.done = true ∧
      Reports (some error) s.state.read.1 := by
    cases error with
    | none =>
      rw [piece]
      exact ⟨rfl, rfl, rfl, done, _, _, _, rfl⟩
    | some error =>
      have empty : s.state.pending = [] := by
        by_contra some_
        exact keeps ⟨done, by rw [result]; rfl, some_, short⟩
      rw [piece]
      exact ⟨empty.symm, rfl, rfl, done, rfl⟩
  obtain ⟨whole, closes, empty, done', reports⟩ := taken
  rw [takePiece_closes closes]
  refine ⟨?_, ?_, fun _ => ⟨done', empty⟩, ?_, ?_, ?_, ?_, ?_, intact.kept⟩
  · have before := intact.text
    rw [text, none_, append_nil] at before
    rw [text, none_, nil_append, flatMap_append, flatMap_singleton, whole, empty,
      append_nil, before]
  · have one := closings_takePiece s
    rw [takePiece_closes closes, closings_eq_zero open_, closes] at one
    exact Nat.le_of_eq one
  · rintro ⟨a, member, closes⟩
    exact absurd ⟨a, mem_append_left _ member, closes⟩ open_
  · intro still
    exact absurd ⟨_, mem_append_right _ (mem_append_right _ mem_cons_self), closes⟩ still
  · rw [done', worker]
    rfl
  · rw [none_, worker]
    intro a member closes
    rcases mem_append.mp member with before | last
    · exact absurd ⟨a, mem_append_left _ before, closes⟩ open_
    · rw [mem_singleton.mp last]
      exact reports
  · rw [none_]
    intro a member
    rw [mem_singleton.mp member]
    exact closes

/-- A piece is taken where nothing is dropped and the stream is open. -/
lemma intact_take (keeps : ¬ s.Drops) (open_ : ¬ s.Closed) : s.takePiece.Intact := by
  by_cases last : s.state.done = true ∧ s.state.pending.length ≤ maxHostAiReadChars
  · exact intact_last intact open_ keeps last.1 last.2
  · exact intact_more intact open_ last

lemma intact_find : Intact { s with answers := s.answers ++ [.notFound] } := by
  have inside {a : Answer} (member : a ∈ s.answers ++ [Answer.notFound] ++ s.closing)
      (closes : a.closes = true) : a ∈ s.answers ++ s.closing := by
    simp only [append_assoc, mem_append, mem_singleton] at member ⊢
    rcases member with before | rfl | later
    · exact .inl before
    · cases closes
    · exact .inr later
  have closed : Closed { s with answers := s.answers ++ [.notFound] } ↔ s.Closed := by
    constructor
    · rintro ⟨a, member, closes⟩
      exact ⟨a, inside member closes, closes⟩
    · rintro ⟨a, member, closes⟩
      refine ⟨a, ?_, closes⟩
      rcases mem_append.mp member with before | later
      · exact mem_append_left _ (mem_append_left _ before)
      · exact mem_append_right _ later
  refine ⟨?_, ?_, fun h => intact.ended (closed.mp h), ?_, fun h => intact.error (mt closed.mpr h),
    intact.done, fun a member closes => intact.reports a (inside member closes) closes,
    intact.closing, intact.kept⟩
  · have whole := intact.text
    rw [text, flatMap_append] at whole
    rw [text, flatMap_append, flatMap_append, ← whole]
    simp [Answer.text]
  · have once := intact.once
    rw [closings, countP_append] at once
    rw [closings, countP_append, countP_append]
    exact once
  · rintro ⟨a, member, closes⟩
    rcases mem_append.mp member with before | last
    · exact intact.gone ⟨a, before, closes⟩
    · rw [mem_singleton.mp last] at closes
      cases closes

/-- Only one call closes the stream, and its answer is the last that is kept back. -/
lemma intact_remove {answer : Answer} (closing : answer ∈ s.closing) :
    Intact { s with
      listed := false
      closing := s.closing.erase answer
      answers := s.answers ++ [answer] } := by
  have all : s.closing.countP Answer.closes = s.closing.length :=
    countP_eq_length.mpr intact.closing
  have once := intact.once
  rw [closings, countP_append, all] at once
  have one : s.closing = [answer] := by
    obtain ⟨a, only⟩ := length_eq_one_iff.mp
      (Nat.le_antisymm (by omega) (length_pos_of_mem closing))
    rw [only, mem_singleton] at closing
    rw [only, closing]
  have rest : s.closing.erase answer = [] := by
    rw [one]
    simp
  have same : s.answers ++ [answer] ++ s.closing.erase answer = s.answers ++ s.closing := by
    rw [rest, one, append_nil]
  refine ⟨?_, ?_, ?_, fun _ => rfl, ?_, intact.done, ?_, ?_, intact.kept⟩
  · rw [text, same]
    exact intact.text
  · rw [closings, same]
    exact intact.once
  · intro closed
    rw [Closed, same] at closed
    exact intact.ended closed
  · intro open_
    rw [Closed, same] at open_
    exact intact.error open_
  · rw [same]
    exact intact.reports
  · rw [rest]
    exact nofun

end

lemma intact_step (taken : s.step a = some s') (undisturbed : s.Undisturbed a)
    (kept : a ≠ .cancel) (intact : s.Intact) : s'.Intact := by
  cases a with
  | contentDelta delta =>
    obtain ⟨working, taken⟩ := ite_none_left_eq_some.mp taken
    split_ifs at taken
    · cases taken
      exact intact
    · cases taken
      exact intact_contentDelta intact (not_closed intact (Bool.eq_false_iff.mpr working))
  | provider providerKind model =>
    obtain ⟨-, taken⟩ := ite_none_left_eq_some.mp taken
    split_ifs at taken
    · cases taken
      exact intact
    · cases taken
      exact { intact with }
  | finish error =>
    obtain ⟨working, taken⟩ := ite_none_left_eq_some.mp taken
    cases taken
    have running := Bool.eq_false_iff.mpr working
    exact intact_finish intact (not_closed intact running) running
  | find =>
    rw [step] at taken
    split_ifs at taken
    · cases taken
      exact { intact with }
    · cases taken
      exact intact_find intact
  | take =>
    cases (ite_none_left_eq_some.mp taken).2
    exact intact_take intact (undisturbed rfl).1 (undisturbed rfl).2
  | remove answer =>
    rw [step, ite_none_right_eq_some] at taken
    obtain ⟨closing, taken⟩ := taken
    cases taken
    exact intact_remove intact closing
  | cancel => exact absurd rfl kept

/-- Where the condition fails, text is lost or the stream is closed again. -/
lemma breaks (taken : s.step a = some s') (disturbed : ¬ s.Undisturbed a) (intact : s.Intact) :
    s'.Broken := by
  rw [Undisturbed, Classical.not_imp] at disturbed
  obtain ⟨rfl, wrong⟩ := disturbed
  cases (ite_none_left_eq_some.mp taken).2
  by_cases closed : s.Closed
  · obtain ⟨done, empty⟩ := intact.ended closed
    have short : s.state.pending.length ≤ maxHostAiReadChars := by
      rw [empty]
      exact Nat.zero_le _
    have closes : s.state.read.1.closes = true := by
      rw [read_last done short]
      cases s.state.error <;> rfl
    have before := closed_iff.mp closed
    refine .inr ?_
    rw [closings_takePiece, closes, if_pos rfl]
    omega
  · have drops : s.Drops := by
      by_contra keeps
      exact wrong ⟨keeps, closed⟩
    obtain ⟨done, failed, some_, short⟩ := drops
    obtain ⟨error, fails⟩ := isSome_iff_exists.mp failed
    have piece := read_last done short
    rw [fails] at piece
    have whole := congrArg length intact.text
    have more := length_pos_iff.mpr some_
    obtain ⟨state, accepted⟩ := state_takePiece s
    refine .inl ?_
    rw [length_text] at whole ⊢
    rw [((answers_takePiece s).flatMap_right _).length_eq, flatMap_append,
      flatMap_singleton, length_append, state, accepted, piece]
    simp only [Answer.text, length_nil]
    omega

end Steps

section Runs
variable {s s' : HostAiStream} {actions : List StreamAction}

lemma run_intact (kept : .cancel ∉ actions) (ran : run step s actions = some s')
    (along : Along step Undisturbed s actions) (intact : s.Intact) : s'.Intact := by
  induction actions generalizing s with
  | nil =>
    cases ran
    exact intact
  | cons a rest ih =>
    obtain ⟨s₁, taken, ran⟩ := run_cons_eq_some.mp ran
    rw [mem_cons, not_or] at kept
    exact ih kept.2 ran (along.2 s₁ taken) (intact_step taken along.1 (Ne.symm kept.1) intact)

/-- The first step at which the condition fails decides. -/
lemma run_broken (kept : .cancel ∉ actions) (ran : run step s actions = some s')
    (disturbed : ¬ Along step Undisturbed s actions) (intact : s.Intact) : s'.Broken := by
  induction actions generalizing s with
  | nil => exact absurd trivial disturbed
  | cons a rest ih =>
    obtain ⟨s₁, taken, ran⟩ := run_cons_eq_some.mp ran
    rw [mem_cons, not_or] at kept
    by_cases here : s.Undisturbed a
    · refine ih kept.2 ran (fun later => disturbed ⟨here, ?_⟩)
        (intact_step taken here (Ne.symm kept.1) intact)
      rintro s₂ taken'
      rw [taken] at taken'
      exact Option.some.inj taken' ▸ later
    · exact run_invariant (fun _ _ _ => broken_step) ran (breaks taken here intact)

lemma delivered_of_intact (ended : s.Over) (intact : s.Intact) : s.Delivered := by
  obtain ⟨closed, -, settled⟩ := ended
  have whole := intact.text
  have once := intact.once
  have ended := intact.ended
  rw [text, settled, append_nil] at whole
  rw [closings, settled, append_nil] at once
  rw [Closed, settled, append_nil] at ended
  rw [(ended closed).2, append_nil] at whole
  refine ⟨whole, ?_, intact.gone closed⟩
  have one : s.answers.countP Answer.closes = 1 := Nat.le_antisymm once (countP_pos_iff.mpr closed)
  rw [countP_eq_length_filter] at one
  obtain ⟨a, last⟩ := length_eq_one_iff.mp one
  have member : a ∈ s.answers.filter Answer.closes := by
    rw [last]
    exact mem_singleton_self a
  obtain ⟨given, closes⟩ := mem_filter.mp member
  exact ⟨a, last, intact.reports a (mem_append_left _ given) closes⟩

lemma not_delivered_of_broken (ended : s.Over) (broken : s.Broken) : ¬ s.Delivered := by
  obtain ⟨-, -, settled⟩ := ended
  rintro ⟨whole, ⟨a, last, -⟩, -⟩
  rcases broken with lost | twice
  · rw [length_text, settled, append_nil, whole] at lost
    omega
  · rw [closings, settled, append_nil, countP_eq_length_filter, last] at twice
    exact absurd twice (Nat.not_succ_le_self 1)

/-- When all calls on the token of a stream that was not cancelled have returned, they have
given out its text, its end and nothing more exactly if no call has taken the last text
together with an error, and none a piece behind the last one. -/
theorem stream_delivered_iff (ran : run step {} actions = some s) (kept : .cancel ∉ actions)
    (ended : s.Over) :
    (s.Delivered ∧ Silent actions) ↔ Along step Undisturbed {} actions := by
  constructor
  · rintro ⟨delivered, -⟩
    by_contra disturbed
    exact not_delivered_of_broken ended (run_broken kept ran disturbed intact_open) delivered
  · intro along
    refine ⟨delivered_of_intact ended (run_intact kept ran along intact_open), ?_⟩
    rintro front back t rfl reached closed
    rw [mem_append, not_or] at kept
    exact (run_intact kept.1 reached (along_append.mp along).1 intact_open).gone closed

end Runs

def greeting : List Char :=
  "Hi".toList

def sampleCalls : List StreamAction :=
  [.find, .contentDelta greeting, .take, .provider (some "ollama".toList) none, .finish none,
    .find, .take, .remove (.read [] true (some "ollama".toList) none), .find]

def sampleEnd : HostAiStream where
  state := { done := true, providerKind := some "ollama".toList }
  listed := false
  answers := [.read greeting false none none, .read [] true (some "ollama".toList) none, .notFound]
  accepted := [greeting]
  result := some none

theorem sample_delivered :
    run step {} sampleCalls = some sampleEnd ∧ sampleEnd.Delivered ∧ Silent sampleCalls := by
  have ran : run step {} sampleCalls = some sampleEnd := by decide
  exact And.intro ran ((stream_delivered_iff ran (by decide)
    ⟨⟨.read [] true (some "ollama".toList) none, by decide, rfl⟩, rfl, rfl⟩).mpr (by decide))

def failingCalls : List StreamAction :=
  [.contentDelta greeting, .finish (some "timeout".toList), .find, .take,
    .remove (.failed "timeout".toList)]

def failingEnd : HostAiStream where
  state := { done := true }
  listed := false
  answers := [.failed "timeout".toList]
  accepted := [greeting]
  result := some (some "timeout".toList)

def doubleCalls : List StreamAction :=
  [.find, .find, .finish none, .take, .take, .remove (.read [] true none none),
    .remove (.read [] true none none)]

def doubleEnd : HostAiStream where
  state := { done := true }
  listed := false
  answers := [.read [] true none none, .read [] true none none]
  result := some none

/-- The text before an error is not given out, and two calls at once are both the last one. -/
theorem text_lost_or_closed_twice :
    (run step {} failingCalls = some failingEnd ∧ failingEnd.Over ∧ ¬ failingEnd.Delivered) ∧
      run step {} doubleCalls = some doubleEnd ∧ doubleEnd.Over ∧ ¬ doubleEnd.Delivered := by
  refine ⟨⟨by decide, ?_, ?_⟩, by decide, ?_, ?_⟩
  · exact ⟨⟨.failed "timeout".toList, by decide, rfl⟩, rfl, rfl⟩
  · rintro ⟨text, -, -⟩
    exact absurd text (by decide)
  · exact ⟨⟨.read [] true none none, by decide, rfl⟩, rfl, rfl⟩
  · rintro ⟨-, ⟨a, last, -⟩, -⟩
    exact absurd (congrArg length last) (Nat.succ_ne_self 1)

end HostAiStream

end CustomModules
