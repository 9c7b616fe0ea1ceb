import KKTerm.Watchdog.PollLoop

/-!
# The sustained window

The detector keeps one optional time: none outside a streak, the start of a streak, and a mark
once the streak has fired. It fires at the first tick of a streak that is due.
-/

namespace Watchdog

open List

/-- The detector over a history of times, each with what the predicate was. -/
def sustained (threshold : Option Nat) (s : LoopState) (ticks : List (Nat × Bool)) :
    LoopState × Bool :=
  ticks.foldl (fun window tick => updateSustainedWindow window.1 tick.2 threshold tick.1) (s, false)

/-- Without a threshold every tick of a streak is due. -/
def Due (threshold : Option Nat) (start now : Nat) : Prop :=
  ∀ wait ∈ threshold, wait ≤ now - start

instance (threshold : Option Nat) (start now : Nat) : Decidable (Due threshold start now) :=
  inferInstanceAs (Decidable (∀ wait ∈ threshold, wait ≤ now - start))

/-- The last time of a streak is the first one that is due. -/
def FirstDue (threshold : Option Nat) (streak : List Nat) : Prop :=
  ∃ earlier now, streak = earlier ++ [now] ∧ Due threshold (earlier.headD now) now ∧
    ∀ time ∈ earlier, ¬ Due threshold (earlier.headD now) time

/-- The times of the true ticks that a history ends with. -/
def lastStreak (ticks : List (Nat × Bool)) : List Nat :=
  ((ticks.reverse.takeWhile Prod.snd).map Prod.fst).reverse

/-- What the detector keeps of a streak. -/
def kept (threshold : Option Nat) : List Nat → Option Nat
  | [] => none
  | start :: times =>
    if ∃ time ∈ start :: times, Due threshold start time then some u64Max else some start

variable {threshold : Option Nat} {s : LoopState} {ticks more : List (Nat × Bool)}
  {streak : List Nat} {now : Nat}

lemma firstDue_snoc : FirstDue threshold (streak ++ [now]) ↔
    Due threshold (streak.headD now) now ∧
      ∀ time ∈ streak, ¬ Due threshold (streak.headD now) time := by
  constructor
  · rintro ⟨earlier, last, split, due⟩
    obtain ⟨rfl, same⟩ := append_inj' split rfl
    rw [singleton_inj.mp same]
    exact due
  · intro due
    exact ⟨streak, now, rfl, due⟩

lemma not_firstDue_nil : ¬ FirstDue threshold [] := by
  rintro ⟨earlier, now, split, -⟩
  exact append_ne_nil_of_right_ne_nil earlier (cons_ne_nil now []) split.symm

lemma lastStreak_append (going : ∀ tick ∈ more, tick.2 = true) :
    lastStreak (ticks ++ more) = lastStreak ticks ++ more.map Prod.fst := by
  rw [lastStreak, reverse_append, takeWhile_append_of_pos (by simpa using going), map_append,
    reverse_append, map_reverse (l := more), reverse_reverse, lastStreak]

lemma update_fired (fired : s.conditionTrueSince = some u64Max) :
    (updateSustainedWindow s true threshold now).1.conditionTrueSince = some u64Max ∧
      (updateSustainedWindow s true threshold now).2 = false := by
  cases threshold <;> simp [updateSustainedWindow, fired]

lemma update_waiting {since : Nat} (going : s.conditionTrueSince.getD now = since)
    (waits : since ≠ u64Max) (wait : Nat) :
    (updateSustainedWindow s true (some wait) now).1.conditionTrueSince =
        (if wait ≤ now - since then some u64Max else some since) ∧
      ((updateSustainedWindow s true (some wait) now).2 = true ↔ wait ≤ now - since) := by
  subst going
  by_cases due : wait ≤ now - s.conditionTrueSince.getD now
  · simp [updateSustainedWindow, waits, due]
  · simp [updateSustainedWindow, waits, due]

lemma update_true (keeps : s.conditionTrueSince = kept threshold streak)
    (small : ∀ time ∈ streak ++ [now], time < u64Max) :
    (updateSustainedWindow s true threshold now).1.conditionTrueSince =
        kept threshold (streak ++ [now]) ∧
      ((updateSustainedWindow s true threshold now).2 = true ↔
        FirstDue threshold (streak ++ [now])) := by
  rw [firstDue_snoc]
  cases streak with
  | nil =>
    have waits : now ≠ u64Max := Nat.ne_of_lt (small now (by simp))
    cases threshold with
    | none => simp [updateSustainedWindow, kept, keeps, Due]
    | some wait =>
      have window := update_waiting
        (show s.conditionTrueSince.getD now = now by rw [keeps]; rfl) waits wait
      rw [Nat.sub_self] at window
      simpa [kept, Due] using window
  | cons start times =>
    have waits : start ≠ u64Max := Nat.ne_of_lt (small start (by simp))
    rw [cons_append, headD_cons, kept]
    by_cases fired : ∃ time ∈ start :: times, Due threshold start time
    · rw [kept, if_pos fired] at keeps
      obtain ⟨time, member, due⟩ := fired
      rw [if_pos ⟨time, mem_append_left [now] member, due⟩, (update_fired keeps).2]
      exact ⟨(update_fired keeps).1, iff_of_false Bool.false_ne_true fun first =>
        first.2 time member due⟩
    · rw [kept, if_neg fired] at keeps
      simp only [not_exists, not_and] at fired
      have first : (∃ time ∈ start :: (times ++ [now]), Due threshold start time) ↔
          Due threshold start now := by
        constructor
        · rintro ⟨time, member, due⟩
          rcases mem_append.mp (cons_append ▸ member) with old | new
          · exact absurd due (fired time old)
          · exact mem_singleton.mp new ▸ due
        · intro due
          exact ⟨now, by simp, due⟩
      rw [if_congr first rfl rfl, and_iff_left fired]
      cases threshold with
      | none => exact absurd (by simp [Due]) (fired start mem_cons_self)
      | some wait => simpa [Due] using update_waiting (by rw [keeps]; rfl) waits wait

lemma sustained_keeps (fresh : s.conditionTrueSince = none)
    (small : ∀ tick ∈ ticks, tick.1 < u64Max) :
    (∀ time ∈ lastStreak ticks, time < u64Max) ∧
      (sustained threshold s ticks).1.conditionTrueSince = kept threshold (lastStreak ticks) ∧
      ((sustained threshold s ticks).2 = true ↔ FirstDue threshold (lastStreak ticks)) := by
  induction ticks using reverseRecOn with
  | nil => exact ⟨nofun, fresh, iff_of_false Bool.false_ne_true not_firstDue_nil⟩
  | append_singleton ticks tick ih =>
    obtain ⟨now, met⟩ := tick
    obtain ⟨below, keeps, -⟩ := ih fun tick h => small tick (mem_append_left _ h)
    rw [sustained, foldl_concat, ← sustained]
    cases met with
    | false =>
      have broken : lastStreak (ticks ++ [(now, false)]) = [] := by simp [lastStreak]
      rw [broken]
      exact ⟨nofun, rfl, iff_of_false Bool.false_ne_true not_firstDue_nil⟩
    | true =>
      have last : now < u64Max := small (now, true) (by simp)
      have small' : ∀ time ∈ lastStreak ticks ++ [now], time < u64Max :=
        forall_mem_append.mpr ⟨below, by simpa using last⟩
      rw [lastStreak_append (by simp)]
      exact ⟨small', update_true keeps small'⟩

/-- The detector fires exactly at the first due tick of a streak, and no more in that streak. -/
theorem sustained_fires_iff (threshold : Option Nat) (s : LoopState)
    (fresh : s.conditionTrueSince = none) (ticks : List (Nat × Bool))
    (small : ∀ tick ∈ ticks, tick.1 < u64Max) :
    ((sustained threshold s ticks).2 = true ↔ FirstDue threshold (lastStreak ticks)) ∧
      ∀ before more, ticks = before ++ more → more ≠ [] → (∀ tick ∈ more, tick.2 = true) →
        (sustained threshold s before).2 = true → (sustained threshold s ticks).2 = false := by
  have fires := (@sustained_keeps threshold _ _ fresh small).2.2
  refine ⟨fires, ?_⟩
  rintro before more rfl nonempty going fired
  have fires₀ := (@sustained_keeps threshold _ _ fresh fun tick member =>
    small tick (mem_append_left _ member)).2.2
  obtain ⟨earlier, now, streak, due, -⟩ := fires₀.mp fired
  -- the tick that fired before is an earlier one of the same streak
  obtain ⟨init, last, rfl⟩ := (eq_nil_or_concat more).resolve_left nonempty
  rw [Bool.eq_false_iff, ne_eq, fires, lastStreak_append going, streak, concat_eq_append,
    map_append, ← append_assoc, map_singleton, firstDue_snoc]
  have start : (earlier ++ [now] ++ init.map Prod.fst).headD last.1 = earlier.headD now := by
    cases earlier <;> rfl
  rw [start]
  rintro ⟨-, waiting⟩
  exact waiting now (by simp) due

theorem sustained_fires_iff_at_six :
    (sustained (some 5) (.new 0) [(1, true), (4, true), (6, true)]).2 = true ∧
      FirstDue (some 5) (lastStreak [(1, true), (4, true), (6, true)]) :=
  have fires := (sustained_fires_iff (some 5) (.new 0) rfl [(1, true), (4, true), (6, true)]
    (by decide)).1
  ⟨by decide, fires.mp (by decide)⟩

end Watchdog
