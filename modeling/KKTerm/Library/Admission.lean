import Mathlib.Data.List.Induction
import Mathlib.Data.List.Nodup

/-!
# Admitting each item once

Entries are read in order. An entry that cannot be read is logged with the
reason; of the items with one key only the first is admitted, and none when the
key is taken already. Every entry is logged exactly once.
-/

namespace Admission

open List

inductive Verdict where
  | duplicate
  | existing
  | accepted
  deriving DecidableEq

structure Policy (ε κ ι ρ : Type) where
  read : ε → Except ρ ι
  key : ι → κ
  taken : κ → Bool
  note : ε → ι → Verdict → ρ

structure Progress (κ ι ρ : Type) where
  seen : List κ := []
  accepted : List ι := []
  log : List ρ := []

variable {ε κ ι ρ : Type}

namespace Policy

inductive Logs (p : Policy ε κ ι ρ) (e : ε) : ρ → Prop where
  | unreadable {r : ρ} (h : p.read e = .error r) : Logs p e r
  | noted {i : ι} (h : p.read e = .ok i) (v : Verdict) : Logs p e (p.note e i v)

structure Sound (p : Policy ε κ ι ρ) (entries : List ε) (s : Progress κ ι ρ) : Prop where
  logged : List.Forall₂ p.Logs entries s.log
  seen_iff : ∀ k, k ∈ s.seen ↔ ∃ e ∈ entries, ∃ i, p.read e = .ok i ∧ p.key i = k
  origin : ∀ i ∈ s.accepted, ∃ e ∈ entries, p.read e = .ok i
  fresh : ∀ i ∈ s.accepted, p.taken (p.key i) = false
  covered : ∀ k ∈ s.seen, p.taken k = true ∨ k ∈ s.accepted.map p.key
  nodup : (s.accepted.map p.key).Nodup

variable {p : Policy ε κ ι ρ} {entries : List ε} {s : Progress κ ι ρ} {e : ε} {i : ι}

lemma Sound.accepted_seen (h : Sound p entries s) {k : κ} (accepted : k ∈ s.accepted.map p.key) :
    k ∈ s.seen := by
  obtain ⟨i, member, rfl⟩ := mem_map.mp accepted
  obtain ⟨e, origin, read⟩ := h.origin i member
  exact (h.seen_iff _).mpr ⟨e, origin, i, read, rfl⟩

/-- What an entry and its row have in common the two lists have in common. -/
lemma Sound.map_log {α : Type} {f : ρ → α} {g : ε → α} (h : Sound p entries s)
    (common : ∀ e r, p.Logs e r → f r = g e) : s.log.map f = entries.map g := by
  have same : Forall₂ (fun e r => g e = f r) entries s.log :=
    h.logged.imp (fun e r logs => (common e r logs).symm)
  have mapped : Forall₂ (fun a b => a = b) (entries.map g) (s.log.map f) :=
    forall₂_map_left_iff.mpr (forall₂_map_right_iff.mpr same)
  rw [forall₂_eq_eq_eq] at mapped
  exact mapped.symm

variable {r : ρ} {items : List ι}

section
variable (h : Sound p entries s)
include h

lemma Sound.logs_of_mem (member : r ∈ s.log) : ∃ e ∈ entries, p.Logs e r := by
  obtain ⟨place, rfl⟩ := mem_iff_get.mp member
  have inside : place < entries.length := by
    rw [h.logged.length_eq]
    exact place.isLt
  exact ⟨_, get_mem entries ⟨place, inside⟩, h.logged.get inside place.isLt⟩

lemma seen_later (read : p.read e = .ok i) (k : κ) :
    (k = p.key i ∨ k ∈ s.seen) ↔ ∃ d ∈ entries ++ [e], ∃ j, p.read d = .ok j ∧ p.key j = k := by
  constructor
  · rintro (rfl | seen)
    · exact ⟨e, by simp, i, read, rfl⟩
    · obtain ⟨d, member, found⟩ := (h.seen_iff k).mp seen
      exact ⟨d, mem_append_left _ member, found⟩
  · rintro ⟨d, member, j, found, rfl⟩
    rcases mem_append.mp member with before | last
    · exact .inr ((h.seen_iff _).mpr ⟨d, before, j, found, rfl⟩)
    · rw [mem_singleton.mp last, read] at found
      cases found
      exact .inl rfl

lemma logged_later (logs : p.Logs e r) : Forall₂ p.Logs (entries ++ [e]) (s.log ++ [r]) :=
  rel_append h.logged (.cons logs .nil)

lemma Sound.origin_later (hi : i ∈ s.accepted) : ∃ d ∈ entries ++ [e], p.read d = .ok i := by
  obtain ⟨d, member, read⟩ := h.origin i hi
  exact ⟨d, mem_append_left _ member, read⟩

/-- An entry that cannot be read is logged and changes nothing else. -/
lemma Sound.unreadable (read : p.read e = .error r) :
    Sound p (entries ++ [e]) { s with log := s.log ++ [r] } := by
  refine ⟨logged_later h (.unreadable read), ?_, fun i hi => h.origin_later hi, h.fresh,
    h.covered, h.nodup⟩
  intro k
  rw [h.seen_iff k]
  constructor
  · rintro ⟨d, member, found⟩
    exact ⟨d, mem_append_left _ member, found⟩
  · rintro ⟨d, member, j, found, same⟩
    rcases mem_append.mp member with before | last
    · exact ⟨d, before, j, found, same⟩
    · rw [mem_singleton.mp last, read] at found
      cases found

lemma Sound.repeated (read : p.read e = .ok i) (again : p.key i ∈ s.seen)
    (v : Verdict) : Sound p (entries ++ [e]) { s with log := s.log ++ [p.note e i v] } := by
  refine ⟨logged_later h (.noted read v), ?_, fun i hi => h.origin_later hi, h.fresh,
    h.covered, h.nodup⟩
  intro k
  rw [← seen_later h read k]
  constructor
  · exact .inr
  · rintro (rfl | before)
    · exact again
    · exact before

lemma Sound.existing (read : p.read e = .ok i) (taken : p.taken (p.key i) = true) (v : Verdict) :
    Sound p (entries ++ [e])
      { s with seen := p.key i :: s.seen, log := s.log ++ [p.note e i v] } := by
  refine ⟨logged_later h (.noted read v), ?_, fun i hi => h.origin_later hi, h.fresh, ?_, h.nodup⟩
  · intro k
    rw [← seen_later h read k, mem_cons]
  · intro k hk
    rcases mem_cons.mp hk with rfl | before
    · exact .inl taken
    · exact h.covered k before

lemma Sound.admitted (read : p.read e = .ok i)
    (again : p.key i ∉ s.seen) (taken : ¬ p.taken (p.key i) = true) (v : Verdict) :
    Sound p (entries ++ [e])
      { seen := p.key i :: s.seen, accepted := s.accepted ++ [i]
        log := s.log ++ [p.note e i v] } := by
  constructor
  · exact logged_later h (.noted read v)
  · intro k
    rw [← seen_later h read k, mem_cons]
  · intro j hj
    rcases mem_append.mp hj with before | last
    · exact h.origin_later before
    · rw [mem_singleton.mp last]
      exact ⟨e, by simp, read⟩
  · intro j hj
    rcases mem_append.mp hj with before | last
    · exact h.fresh j before
    · rw [mem_singleton.mp last]
      exact Bool.eq_false_iff.mpr taken
  · intro k hk
    rw [map_append, mem_append]
    rcases mem_cons.mp hk with rfl | before
    · exact .inr (.inr (by simp))
    · exact (h.covered k before).imp id Or.inl
  · rw [map_append, nodup_append]
    refine ⟨h.nodup, nodup_singleton _, ?_⟩
    intro k hk k' hk' same
    rw [map_singleton, mem_singleton] at hk'
    exact again (hk' ▸ same ▸ h.accepted_seen hk)

end

variable [DecidableEq κ]

def step (p : Policy ε κ ι ρ) (s : Progress κ ι ρ) (e : ε) : Progress κ ι ρ :=
  match p.read e with
  | .error r => { s with log := s.log ++ [r] }
  | .ok i =>
    if p.key i ∈ s.seen then { s with log := s.log ++ [p.note e i .duplicate] }
    else if p.taken (p.key i) then
      { s with seen := p.key i :: s.seen, log := s.log ++ [p.note e i .existing] }
    else
      { seen := p.key i :: s.seen
        accepted := s.accepted ++ [i]
        log := s.log ++ [p.note e i .accepted] }

def run (p : Policy ε κ ι ρ) (entries : List ε) : Progress κ ι ρ :=
  entries.foldl p.step {}

lemma run_append (entries : List ε) (e : ε) : p.run (entries ++ [e]) = p.step (p.run entries) e := by
  rw [run, foldl_append]
  rfl

lemma Sound.step (h : Sound p entries s) (e : ε) : Sound p (entries ++ [e]) (p.step s e) := by
  cases read : p.read e with
  | error r =>
    rw [Policy.step, read]
    exact h.unreadable read
  | ok i =>
    rw [Policy.step, read]
    by_cases again : p.key i ∈ s.seen
    · simp only [if_pos again]
      exact h.repeated read again _
    · by_cases taken : p.taken (p.key i) = true
      · simp only [if_neg again, if_pos taken]
        exact h.existing read taken _
      · simp only [if_neg again, if_neg taken]
        exact h.admitted read again taken _

lemma run_sound (p : Policy ε κ ι ρ) (entries : List ε) : Sound p entries (p.run entries) := by
  induction entries using reverseRecOn with
  | nil => exact ⟨.nil, by simp [run], by simp [run], by simp [run], by simp [run], by simp [run]⟩
  | append_singleton entries e ih =>
    rw [run_append]
    exact ih.step e

/-- The log marks as many acceptances as there are accepted items. -/
lemma countP_log {marks : ρ → Bool} (error : ∀ e r, p.read e = .error r → marks r = false)
    (note : ∀ e i v, marks (p.note e i v) = decide (v = .accepted)) (entries : List ε) :
    (p.run entries).log.countP marks = (p.run entries).accepted.length := by
  induction entries using reverseRecOn with
  | nil => rfl
  | append_singleton entries e ih =>
    rw [run_append, step]
    cases read : p.read e with
    | error r => simp [ih, error e r read]
    | ok i =>
      simp only
      split_ifs <;> simp [ih, note]

/-- Readable entries with free keys of their own are all accepted. -/
lemma foldl_accepts {s : Progress κ ι ρ}
    (read : Forall₂ (fun e i => p.read e = .ok i) entries items)
    (free : ∀ i ∈ items, p.taken (p.key i) = false) (nodup : (items.map p.key).Nodup)
    (new : ∀ i ∈ items, p.key i ∉ s.seen) :
    (entries.foldl p.step s).accepted = s.accepted ++ items := by
  induction read generalizing s with
  | nil => simp
  | @cons e i entries items first _ ih =>
    rw [map_cons, nodup_cons] at nodup
    have accepts : p.step s e =
        { seen := p.key i :: s.seen, accepted := s.accepted ++ [i]
          log := s.log ++ [p.note e i .accepted] } := by
      rw [step, first]
      simp [new i mem_cons_self, free i mem_cons_self]
    rw [foldl_cons, accepts, ih (fun j hj => free j (mem_cons_of_mem i hj)) nodup.2 ?_]
    · simp
    · intro j hj seen
      rcases mem_cons.mp seen with same | old
      · exact nodup.1 (same ▸ mem_map_of_mem hj)
      · exact new j (mem_cons_of_mem i hj) old

lemma run_accepts (read : Forall₂ (fun e i => p.read e = .ok i) entries items)
    (free : ∀ i ∈ items, p.taken (p.key i) = false) (nodup : (items.map p.key).Nodup) :
    (p.run entries).accepted = items :=
  foldl_accepts read free nodup (fun _ _ => not_mem_nil)

end Policy

end Admission
