import Mathlib.Data.List.Chain

/-!
# One side of one negotiated option

The peer offers an option or withdraws it, and this side agrees, refuses or
stays silent. A side remembers whether the option is enabled and whether an
offer was already refused; its answers are the history of agreements (`true`)
and refusals (`false`).
-/

namespace Negotiation

open List

structure Side where
  enabled : Bool
  refused : Bool
  deriving DecidableEq, Repr

def Side.fresh : Side :=
  { enabled := false, refused := false }

/-- The reaction to an offer (`true`) or a withdrawal (`false`), with the answers sent. -/
def Side.react (supported : Bool) (s : Side) (offer : Bool) : Side × List Bool :=
  if offer then
    if supported then
      ({ enabled := true, refused := false }, if s.enabled then [] else [true])
    else ({ s with refused := true }, if s.refused then [] else [false])
  else (.fresh, if s.enabled then [false] else [])

/-- The side and all its answers after a history of offers and withdrawals. -/
def Side.run (supported : Bool) (s : Side) : List Bool → Side × List Bool
  | [] => (s, [])
  | offer :: rest =>
    let (s', answers) := s.react supported offer
    let (s'', later) := s'.run supported rest
    (s'', answers ++ later)

namespace Side
variable {supported : Bool} {s : Side}

lemma run_append (supported : Bool) (s : Side) (past recent : List Bool) :
    s.run supported (past ++ recent) = (((s.run supported past).1.run supported recent).1,
        (s.run supported past).2 ++ ((s.run supported past).1.run supported recent).2) := by
  induction past generalizing s with
  | nil => rfl
  | cons offer past ih => simp only [cons_append, run, ih, append_assoc]

lemma run_singleton (supported : Bool) (s : Side) (offer : Bool) :
    s.run supported [offer] = s.react supported offer := by
  simp [run]

/-- What the answers of a supported option say about the side. -/
structure Alternating (s : Side) (answers : List Bool) : Prop where
  refused_eq : s.refused = false
  chain : answers.IsChain (· ≠ ·)
  head_ne : answers.head? ≠ some false
  enabled_iff : s.enabled = true ↔ answers.getLast? = some true

lemma Alternating.fresh : Alternating .fresh [] :=
  ⟨rfl, .nil, by simp, by simp [Side.fresh]⟩

lemma isChain_push {answers : List Bool} (h : answers.IsChain (· ≠ ·)) {a : Bool}
    (differs : answers.getLast? ≠ some a) : (answers ++ [a]).IsChain (· ≠ ·) := by
  refine h.append (isChain_singleton a) (fun x hx y hy => ?_)
  rw [head?_singleton, Option.mem_some_iff] at hy
  rintro rfl
  rw [← hy] at hx
  exact differs hx

lemma Alternating.react {answers : List Bool} (h : Alternating s answers) (offer : Bool) :
    Alternating (s.react true offer).1 (answers ++ (s.react true offer).2) := by
  obtain ⟨notRefused, chain, head, enabled⟩ := h
  cases offer with
  | true =>
    cases on : s.enabled with
    | true =>
      have last := enabled.mp on
      simp only [Side.react, on, if_true, append_nil]
      exact ⟨rfl, chain, head, by simp [last]⟩
    | false =>
      have last : answers.getLast? ≠ some true := fun hlast => by
        rw [enabled.mpr hlast] at on
        cases on
      simp only [Side.react, on, if_true, Bool.false_eq_true, if_false]
      refine ⟨rfl, isChain_push chain last, ?_, by simp⟩
      cases answers with
      | nil => simp
      | cons a answers => exact head
  | false =>
    cases on : s.enabled with
    | true =>
      have last := enabled.mp on
      simp only [Side.react, on, if_true, Bool.false_eq_true, if_false]
      refine ⟨rfl, isChain_push chain (by rw [last]; decide), ?_, by simp [Side.fresh]⟩
      cases answers with
      | nil => cases last
      | cons a answers => exact head
    | false =>
      have last : answers.getLast? ≠ some true := fun hlast => by
        rw [enabled.mpr hlast] at on
        cases on
      simp only [Side.react, on, Bool.false_eq_true, if_false, append_nil]
      exact ⟨rfl, chain, head, by simp [Side.fresh, last]⟩

lemma Alternating.run {answers : List Bool} (h : Alternating s answers) (history : List Bool) :
    Alternating (s.run true history).1 (answers ++ (s.run true history).2) := by
  induction history generalizing s answers with
  | nil =>
    rw [Side.run, append_nil]
    exact h
  | cons offer rest ih =>
    have next := ih (h.react offer)
    rw [append_assoc] at next
    exact next

/-- A supported option: the answers alternate, beginning with an agreement, and
the last one says whether the option is enabled. -/
lemma run_supported (history : List Bool) :
    Alternating (fresh.run true history).1 (fresh.run true history).2 :=
  Alternating.fresh.run history

/-- Without a withdrawal a supported option is enabled from its first offer on. -/
lemma run_enabled {history : List Bool} (offers : false ∉ history) :
    (s.run true history).1.enabled = true ↔ s.enabled = true ∨ true ∈ history := by
  induction history generalizing s with
  | nil => simp [run]
  | cons offer rest ih =>
    cases offer with
    | false => exact absurd mem_cons_self offers
    | true =>
      have later := ih (s := { enabled := true, refused := false })
        (fun h => offers (mem_cons_of_mem true h))
      simp only [run, react, if_true, later, true_or, mem_cons, or_true]

/-- An unsupported option is never enabled and never agreed to. -/
lemma run_unsupported (off : s.enabled = false) (history : List Bool) :
    (s.run false history).1.enabled = false ∧ ∀ a ∈ (s.run false history).2, a = false := by
  induction history generalizing s with
  | nil => exact ⟨off, fun a ha => absurd ha not_mem_nil⟩
  | cons offer rest ih =>
    have next : (s.react false offer).1.enabled = false := by
      cases offer <;> simp [react, fresh, off]
    have answer : ∀ a ∈ (s.react false offer).2, a = false := by
      intro a ha
      cases offer <;> simp only [react, off, Bool.false_eq_true, if_true, if_false] at ha
      · cases ha
      · split at ha
        · cases ha
        · exact mem_singleton.mp ha
    obtain ⟨stays, later⟩ := ih next
    refine ⟨stays, fun a ha => ?_⟩
    rcases mem_append.mp ha with now | after
    · exact answer a now
    · exact later a after

/-- The law that the answers to a whole history obey. -/
structure Lawful (supported : Bool) (s : Side) (answers : List Bool) : Prop where
  enabled : s.enabled = true → supported = true
  refused : s.refused = true → ¬ supported = true
  alternating : supported = true → answers.IsChain (· ≠ ·) ∧ answers.head? ≠ some false ∧
    (s.enabled = true ↔ answers.getLast? = some true)
  refusing : ¬ supported = true → ∀ a ∈ answers, a = false

lemma run_lawful (supported : Bool) (history : List Bool) :
    Lawful supported (fresh.run supported history).1 (fresh.run supported history).2 := by
  cases supported with
  | true =>
    obtain ⟨refused, chain, head, enabled⟩ := run_supported history
    refine ⟨fun _ => rfl, fun told => ?_, fun _ => ⟨chain, head, enabled⟩, fun no => absurd rfl no⟩
    rw [refused] at told
    cases told
  | false =>
    obtain ⟨off, refusing⟩ := run_unsupported (s := fresh) rfl history
    refine ⟨fun on => ?_, fun _ => Bool.false_ne_true, fun yes => ?_, fun _ => refusing⟩
    · rw [off] at on
      cases on
    · cases yes

/-- Between two withdrawals an unsupported option is refused at most once. -/
lemma run_refuses_once (off : s.enabled = false) {recent : List Bool} (offers : false ∉ recent) :
    (s.run false recent).2.length + (if s.refused then 1 else 0) ≤ 1 := by
  induction recent generalizing s with
  | nil =>
    simp only [run, length_nil]
    split <;> omega
  | cons offer rest ih =>
    cases offer with
    | false => exact absurd mem_cons_self offers
    | true =>
      have later := ih (s := { s with refused := true }) off
        (fun h => offers (mem_cons_of_mem true h))
      simp only [if_true] at later
      simp only [run, react, if_true, Bool.false_eq_true, if_false, length_append]
      split <;> simp only [length_nil, length_singleton] <;> omega

end Side

end Negotiation
