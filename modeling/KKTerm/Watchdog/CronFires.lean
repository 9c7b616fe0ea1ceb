import KKTerm.Library.Fallible
import KKTerm.Watchdog.PollLoop

/-!
# Schedules that fire

Every part of an accepted expression is read by the matcher as well. Nothing says that it is met:
a range may be reversed or lie outside the field, and the steps may pass over it.
-/

namespace Watchdog

open Option hiding any_eq_true
open List Text Fallible

/-- The loop over a list goes to its end when each round goes on. -/
lemma forIn_eq_ok {α ε : Type} {round : α → Unit → Except ε (ForInStep Unit)} {l : List α}
    (yields : ∀ x r, round x () = .ok r → r = .yield ()) {out : Unit}
    (ended : forIn l () round = .ok out) : ∀ x ∈ l, round x () = .ok (.yield ()) := by
  induction l with
  | nil => exact forall_mem_nil _
  | cons x l ih =>
    rw [forIn_cons] at ended
    obtain ⟨r, first, rest⟩ := bind_eq_ok.mp ended
    obtain rfl := yields x r first
    exact forall_mem_cons.mpr ⟨first, ih rest⟩

lemma validateCron_ok {cron : List Char} (accepted : validateCron cron = .ok ()) :
    (splitWhitespace cron).length = 5 ∧ ∀ field ∈ splitWhitespace cron,
      ∀ part ∈ split ',' field, cronPartIsValid (trim part) = true := by
  by_cases five : (splitWhitespace cron).length = 5
  · refine ⟨five, fun field member part of_field => ?_⟩
    simp only [validateCron, five, ne_eq, not_true_eq_false, if_false] at accepted
    obtain ⟨_, all, -⟩ := bind_eq_ok.mp accepted
    have row := forIn_eq_ok (fun field r inner => ?_) all field member
    · obtain ⟨_, parts, -⟩ := bind_eq_ok.mp row
      have here := forIn_eq_ok (fun part r one => ?_) parts part of_field
      · by_contra invalid
        rw [Bool.not_eq_true] at invalid
        rw [if_pos (by rw [invalid]; rfl)] at here
        cases here
      · split at one
        · cases one
        · cases one
          rfl
    · obtain ⟨_, -, yielded⟩ := bind_eq_ok.mp inner
      cases yielded
      rfl
  · simp only [validateCron] at accepted
    rw [if_pos five] at accepted
    cases accepted

/-- What the matcher reads of a part: the bounds of its range and its step. -/
def partBounds (part : List Char) : Option (Nat × Nat × Nat) := do
  let (range, step) ← cronPartStep part
  let (first, last) ← cronRange range
  return (first, last, step)

/-- Some value between the bounds of the field is met, where the field begins at 0 or 1. -/
def PartFires (low high : Nat) (part : List Char) : Prop :=
  ∃ first last step, partBounds part = some (first, last, step) ∧
    (if low ≤ first then first else step) ≤ min last high

def FieldFires (low high : Nat) (field : List Char) : Prop :=
  ∃ part ∈ split ',' field, PartFires low high (trim part)

/-- Each field has a part that begins in time. The weekday may be 7. -/
def CanFire (cron : List Char) : Prop :=
  ∃ minute hour day month weekday, splitWhitespace cron = [minute, hour, day, month, weekday] ∧
    FieldFires 0 59 minute ∧ FieldFires 0 23 hour ∧ FieldFires 1 31 day ∧ FieldFires 1 12 month ∧
    FieldFires 0 7 weekday

/-- A time at which the expression is due. -/
def Fires (cron : List Char) : Prop :=
  ∃ now : LocalTime, now.minute ≤ 59 ∧ now.hour ≤ 23 ∧ 1 ≤ now.day ∧ now.day ≤ 31 ∧
    1 ≤ now.month ∧ now.month ≤ 12 ∧ now.weekday ≤ 6 ∧ cronMatchesFields cron now = true

lemma exists_cronRange {range : List Char} (valid : (if range = ['*'] then true else
    match splitOnce '-' range with
    | some (low, high) => (parseU32 low).isSome && (parseU32 high).isSome
    | none => (parseU32 range).isSome) = true) : ∃ bounds, cronRange range = some bounds := by
  rw [cronRange]
  split at valid
  · rename_i star
    exact ⟨_, if_pos star⟩
  · rename_i plain
    rw [if_neg plain]
    cases cut : splitOnce '-' range with
    | none =>
      rw [cut] at valid
      obtain ⟨single, read⟩ := isSome_iff_exists.mp valid
      exact ⟨(single, single), by rw [read]; rfl⟩
    | some ends =>
      rw [cut, Bool.and_eq_true] at valid
      obtain ⟨low, read_low⟩ := isSome_iff_exists.mp valid.1
      obtain ⟨high, read_high⟩ := isSome_iff_exists.mp valid.2
      exact ⟨(low, high), by simp [read_low, read_high]⟩

lemma partBounds_of_valid {part : List Char} (valid : cronPartIsValid part = true) :
    ∃ first last step, partBounds part = some (first, last, step) ∧ 0 < step := by
  rw [cronPartIsValid] at valid
  split at valid
  · rename_i star
    exact ⟨0, u32Max, 1, star ▸ rfl, Nat.one_pos⟩
  · rw [partBounds, cronPartStep]
    cases cut : splitOnce '/' part with
    | none =>
      simp only [cut, Bool.not_true, Bool.false_eq_true, if_false] at valid
      obtain ⟨bounds, ends⟩ := exists_cronRange valid
      exact ⟨bounds.1, bounds.2, 1, by simp [ends], Nat.one_pos⟩
    | some pieces =>
      obtain ⟨range, step⟩ := pieces
      simp only [cut] at valid
      cases read : parseU32 step with
      | none => simp [read] at valid
      | some step =>
        by_cases positive : 0 < step
        · simp only [read, map_some, getD_some, positive, decide_true, Bool.not_true,
            Bool.false_eq_true, if_false] at valid
          obtain ⟨bounds, ends⟩ := exists_cronRange valid
          exact ⟨bounds.1, bounds.2, step, by simp [read, positive, ends], positive⟩
        · simp [read, positive] at valid

lemma cronPartMatches_iff {part : List Char} {first last step : Nat}
    (bounds : partBounds part = some (first, last, step)) (value : Nat) :
    cronPartMatches part value = true ↔
      first ≤ value ∧ value ≤ last ∧ (value - first) % step = 0 := by
  obtain ⟨⟨range, step'⟩, cut, rest⟩ := bind_eq_some_iff.mp bounds
  obtain ⟨⟨first', last'⟩, ends, same⟩ := bind_eq_some_iff.mp rest
  cases same
  simp [cronPartMatches, cut, ends, and_assoc]

/-- The earliest value that a part can meet is where its range begins, or else its step. -/
lemma partFires_iff {low high : Nat} {part : List Char} (small : low ≤ 1)
    (valid : cronPartIsValid part = true) :
    PartFires low high part ↔ ∃ v, low ≤ v ∧ v ≤ high ∧ cronPartMatches part v = true := by
  obtain ⟨first, last, step, bounds, positive⟩ := partBounds_of_valid valid
  constructor
  · rintro ⟨first', last', step', bounds', early⟩
    obtain ⟨rfl, rfl, rfl⟩ : first = first' ∧ last = last' ∧ step = step' := by
      simpa [bounds] using bounds'
    rw [Nat.le_min] at early
    split at early
    · rename_i inside
      exact ⟨first, inside, early.2, (cronPartMatches_iff bounds first).mpr
        ⟨Nat.le_refl _, early.1, by rw [Nat.sub_self, Nat.zero_mod]⟩⟩
    · have zero : first = 0 := by omega
      exact ⟨step, by omega, early.2, (cronPartMatches_iff bounds step).mpr
        ⟨by omega, early.1, by rw [zero, Nat.sub_zero, Nat.mod_self]⟩⟩
  · rintro ⟨v, above, below, met⟩
    obtain ⟨after, before, multiple⟩ := (cronPartMatches_iff bounds v).mp met
    refine ⟨first, last, step, bounds, Nat.le_min.mpr ?_⟩
    split
    · omega
    · have zero : first = 0 := by omega
      rw [zero, Nat.sub_zero] at multiple
      have reached := Nat.le_of_dvd (by omega) (Nat.dvd_of_mod_eq_zero multiple)
      omega

lemma fieldFires_iff {low high : Nat} {field : List Char} (small : low ≤ 1)
    (valid : ∀ part ∈ split ',' field, cronPartIsValid (trim part) = true) :
    FieldFires low high field ↔ ∃ v, low ≤ v ∧ v ≤ high ∧ cronFieldMatches field v = true := by
  simp only [cronFieldMatches, any_eq_true]
  constructor
  · rintro ⟨part, member, fires⟩
    obtain ⟨v, above, below, met⟩ := (partFires_iff small (valid part member)).mp fires
    exact ⟨v, above, below, part, member, met⟩
  · rintro ⟨v, above, below, part, member, met⟩
    exact ⟨part, member, (partFires_iff small (valid part member)).mpr ⟨v, above, below, met⟩⟩

/-- An accepted expression is read whole, and it fires exactly when a part of each field is met
by some value. -/
theorem accepted_fires_iff (cron : List Char) (accepted : validateCron cron = .ok ()) :
    (Fires cron ∧ ∀ field ∈ splitWhitespace cron, ∀ part ∈ split ',' field,
      (partBounds (trim part)).isSome) ↔ CanFire cron := by
  obtain ⟨five, valid⟩ := validateCron_ok accepted
  obtain ⟨minute, hour, day, month, weekday, fields⟩ :
      ∃ a b c d e, splitWhitespace cron = [a, b, c, d, e] := by
    match splitWhitespace cron, five with
    | [a, b, c, d, e], _ => exact ⟨a, b, c, d, e, rfl⟩
  have read : ∀ field ∈ splitWhitespace cron, ∀ part ∈ split ',' field,
      (partBounds (trim part)).isSome := by
    intro field member part of_field
    obtain ⟨first, last, step, bounds, -⟩ := partBounds_of_valid (valid field member part of_field)
    rw [bounds]
    rfl
  rw [and_iff_left read]
  rw [fields] at valid
  simp only [mem_cons, not_mem_nil, or_false, forall_eq_or_imp, forall_eq] at valid
  obtain ⟨vm, vh, vd, vmo, vw⟩ := valid
  have due : ∀ now, cronMatchesFields cron now = true ↔
      cronFieldMatches minute now.minute = true ∧ cronFieldMatches hour now.hour = true ∧
      cronFieldMatches day now.day = true ∧ cronFieldMatches month now.month = true ∧
      (cronFieldMatches weekday now.weekday = true ∨
        now.weekday = 0 ∧ cronFieldMatches weekday 7 = true) := by
    intro now
    simp [cronMatchesFields, fields, and_assoc]
  constructor
  · rintro ⟨now, m, h, d₁, d₂, mo₁, mo₂, w, met⟩
    obtain ⟨hm, hh, hd, hmo, hw⟩ := (due now).mp met
    refine ⟨_, _, _, _, _, fields, (fieldFires_iff (by decide) vm).mpr ⟨_, Nat.zero_le _, m, hm⟩,
      (fieldFires_iff (by decide) vh).mpr ⟨_, Nat.zero_le _, h, hh⟩,
      (fieldFires_iff (by decide) vd).mpr ⟨_, d₁, d₂, hd⟩,
      (fieldFires_iff (by decide) vmo).mpr ⟨_, mo₁, mo₂, hmo⟩,
      (fieldFires_iff (by decide) vw).mpr ?_⟩
    rcases hw with own | ⟨-, seven⟩
    · exact ⟨_, Nat.zero_le _, by omega, own⟩
    · exact ⟨7, by decide, by decide, seven⟩
  · rintro ⟨_, _, _, _, _, fields', fm, fh, fd, fmo, fw⟩
    rw [fields] at fields'
    cases fields'
    obtain ⟨m, -, m₂, hm⟩ := (fieldFires_iff (by decide) vm).mp fm
    obtain ⟨h, -, h₂, hh⟩ := (fieldFires_iff (by decide) vh).mp fh
    obtain ⟨d, d₁, d₂, hd⟩ := (fieldFires_iff (by decide) vd).mp fd
    obtain ⟨mo, mo₁, mo₂, hmo⟩ := (fieldFires_iff (by decide) vmo).mp fmo
    obtain ⟨w, -, w₂, hw⟩ := (fieldFires_iff (by decide) vw).mp fw
    -- weekday 7 is met on day 0
    by_cases sunday : w = 7
    · subst sunday
      exact ⟨⟨m, h, d, mo, 0⟩, m₂, h₂, d₁, d₂, mo₁, mo₂, Nat.zero_le 6,
        (due _).mpr ⟨hm, hh, hd, hmo, .inr ⟨rfl, hw⟩⟩⟩
    · exact ⟨⟨m, h, d, mo, w⟩, m₂, h₂, d₁, d₂, mo₁, mo₂, by dsimp only; omega,
        (due _).mpr ⟨hm, hh, hd, hmo, .inl hw⟩⟩

theorem every_minute_fires :
    (Fires "* * * * *".toList ∧ ∀ field ∈ splitWhitespace "* * * * *".toList,
      ∀ part ∈ split ',' field, (partBounds (trim part)).isSome) ↔ CanFire "* * * * *".toList :=
  accepted_fires_iff "* * * * *".toList (by decide +kernel)

/-- A reversed range is accepted, and no minute is in it. -/
theorem reversed_never_fires :
    validateCron "5-1 * * * *".toList = .ok () ∧ ¬ Fires "5-1 * * * *".toList := by
  refine ⟨by decide +kernel, ?_⟩
  rintro ⟨now, -, -, -, -, -, -, -, due⟩
  have fields : splitWhitespace "5-1 * * * *".toList =
      ["5-1".toList, ['*'], ['*'], ['*'], ['*']] := by decide +kernel
  have part : split ',' "5-1".toList = ["5-1".toList] := by decide +kernel
  have bounds : partBounds (trim "5-1".toList) = some (5, 1, 1) := by decide +kernel
  simp only [cronMatchesFields, fields, cronFieldMatches, part, Bool.and_eq_true, any_cons,
    any_nil, Bool.or_false, cronPartMatches_iff bounds] at due
  omega

end Watchdog
