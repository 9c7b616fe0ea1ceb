import Mathlib.Data.Finset.Card

/-!
# Rising edges along a climbing walk

A walk through the natural numbers that climbs by at most one visits some due
numbers. Its rising edges count the runs of due numbers, so they fall short of
the due numbers by the number of steps from one due number to the next.
-/

namespace Edges

open List

/-- How often a signal rises, given its value before. -/
def rising : Bool → List Bool → Nat
  | _, [] => 0
  | before, now :: rest => (if now && !before then 1 else 0) + rising now rest

def Climbs (walk : List Nat) : Prop :=
  walk.IsChain (fun a b => a ≤ b ∧ b ≤ a + 1)

instance (walk : List Nat) : Decidable (Climbs walk) :=
  inferInstanceAs (Decidable (walk.IsChain _))

/-- The steps from one due number to another. -/
def merged (due : Nat → Bool) : List Nat → Nat
  | a :: b :: rest => (if a ≠ b ∧ due a ∧ due b then 1 else 0) + merged due (b :: rest)
  | _ => 0

variable {due : Nat → Bool}

variable {walk : List Nat}

lemma le_of_climbs {a b : Nat} (climbs : Climbs (a :: walk)) (h : b ∈ walk) : a ≤ b := by
  induction walk generalizing a with
  | nil => cases h
  | cons c walk ih =>
    obtain ⟨⟨up, _⟩, climbs⟩ := isChain_cons_cons.mp climbs
    rcases mem_cons.mp h with rfl | later
    · exact up
    · exact up.trans (ih climbs later)

lemma rising_cons (before now : Bool) (rest : List Bool) :
    rising before (now :: rest) + (if before ∧ now then 1 else 0) =
      rising false (now :: rest) := by
  cases before <;> cases now <;> simp [rising, Nat.add_comm]

lemma card_due (climbs : Climbs walk) :
    (walk.toFinset.filter (due ·)).card = rising false (walk.map due) + merged due walk := by
  induction walk with
  | nil => rfl
  | cons a walk ih =>
    cases walk with
    | nil => cases h : due a <;> simp [rising, merged, h, Finset.filter_singleton]
    | cons b rest =>
      obtain ⟨⟨up, _⟩, climbs'⟩ := isChain_cons_cons.mp climbs
      have later := ih climbs'
      have edge := rising_cons (due a) (due b) (rest.map due)
      by_cases same : a = b
      · subst same
        have visited : (a :: a :: rest).toFinset = (a :: rest).toFinset := by simp
        rw [visited, later]
        cases h : due a <;> simp [rising, merged, h]
      · have fresh : a ∉ (b :: rest).toFinset := by
          intro h
          rcases mem_cons.mp (mem_toFinset.mp h) with rfl | h
          · exact same rfl
          · have := le_of_climbs climbs' h
            omega
        rw [toFinset_cons, Finset.filter_insert]
        cases h : due a
        · simp [rising, merged, h] at later ⊢
          exact later
        · rw [if_pos rfl,
            Finset.card_insert_of_notMem (fun hm => fresh (Finset.mem_filter.mp hm).1)]
          cases h' : due b <;> simp [rising, merged, h, h', same] at later ⊢ <;> omega

lemma merged_eq_zero (climbs : Climbs walk) :
    merged due walk = 0 ↔ ∀ m ∈ walk, m + 1 ∈ walk → due m → ¬ due (m + 1) := by
  induction walk with
  | nil => simp [merged]
  | cons a walk ih =>
    cases walk with
    | nil => simp [merged]
    | cons b rest =>
      obtain ⟨⟨up, near⟩, climbs'⟩ := isChain_cons_cons.mp climbs
      have above : ∀ m ∈ b :: rest, b ≤ m := by
        intro m h
        rcases mem_cons.mp h with rfl | h
        · omega
        · exact le_of_climbs climbs' h
      rw [merged, Nat.add_eq_zero_iff, ih climbs']
      constructor
      · rintro ⟨first, later⟩ m hm hnext dm dnext
        rcases mem_cons.mp hm with rfl | hm
        · rcases mem_cons.mp hnext with h | hnext
          · omega
          · have := above _ hnext
            by_cases same : m = b
            · exact later m (by simp [same]) hnext dm dnext
            · have : b = m + 1 := by omega
              subst this
              simp [dm, dnext] at first
        · have := above m hm
          have hnext : m + 1 ∈ b :: rest := by
            rcases mem_cons.mp hnext with h | h
            · omega
            · exact h
          exact later m hm hnext dm dnext
      · intro apart
        constructor
        · rw [if_neg]
          rintro ⟨same, da, db⟩
          have : b = a + 1 := by omega
          subst this
          exact apart a (by simp) (by simp) da db
        · exact fun m hm hnext => apart m (mem_cons_of_mem a hm) (mem_cons_of_mem a hnext)

end Edges
