import Mathlib.Data.List.Induction
import Mathlib.Data.List.Pairwise
import Mathlib.Data.List.Sort

/-!
# Settling

Things are put one after another into a shaft, some of them as low as they fit and some on
a level of their own. Those that have found a level keep apart, and putting them again from
the bottom up leaves them where they are.
-/

namespace Settling

open List

universe u

structure Span where
  z0 : Int
  z1 : Int
  deriving DecidableEq

def fits (ceiling : Int) (spans : List Span) (z height : Int) : Bool :=
  decide (0 ≤ z ∧ z + height ≤ ceiling) &&
    spans.all fun span => z + height ≤ span.z0 || span.z1 ≤ z

section Lowest
variable {ceiling z height : Int} {spans : List Span}

lemma fits_iff : fits ceiling spans z height = true ↔ 0 ≤ z ∧ z + height ≤ ceiling ∧
    ∀ span ∈ spans, z + height ≤ span.z0 ∨ span.z1 ≤ z := by
  simp [fits, and_assoc]

/-- The highest top that is not above a level, or the floor. -/
lemma exists_support (spans : List Span) (low : 0 ≤ z) :
    ∃ c ∈ 0 :: spans.map Span.z1, 0 ≤ c ∧ c ≤ z ∧
      ∀ span ∈ spans, span.z1 ≤ z → span.z1 ≤ c := by
  induction spans with
  | nil => exact ⟨0, mem_cons_self, Int.le_refl 0, low, by simp⟩
  | cons span spans ih =>
    obtain ⟨c, member, floor, under, all⟩ := ih
    by_cases higher : span.z1 ≤ z ∧ c < span.z1
    · refine ⟨span.z1, by simp, by omega, higher.1, fun other home below_ => ?_⟩
      rcases mem_cons.mp home with rfl | home
      · exact Int.le_refl _
      · have least := all other home below_
        omega
    · refine ⟨c, ?_, floor, under, fun other home below_ => ?_⟩
      · rcases mem_cons.mp member with rfl | top
        · exact mem_cons_self
        · simp only [map_cons, mem_cons]
          exact .inr (.inr top)
      · rcases mem_cons.mp home with rfl | home
        · omega
        · exact all other home below_

/-- What fits somewhere fits on the floor or on a top that is not higher. -/
lemma support_fits (fit : fits ceiling spans z height = true) :
    ∃ c ∈ 0 :: spans.map Span.z1, c ≤ z ∧ fits ceiling spans c height = true := by
  obtain ⟨low, high, clear⟩ := fits_iff.mp fit
  obtain ⟨c, member, floor, under, all⟩ := exists_support spans low
  refine ⟨c, member, under, fits_iff.mpr ⟨floor, by omega, fun span home => ?_⟩⟩
  rcases clear span home with above | below_
  · exact .inl (by omega)
  · exact .inr (all span home below_)

lemma find?_le {l : List Int} {p : Int → Bool} (sorted : l.Pairwise (· ≤ ·)) {a b : Int}
    (found : l.find? p = some a) (member : b ∈ l) (held : p b = true) : a ≤ b := by
  induction sorted with
  | nil => cases member
  | @cons x l first _ ih =>
    rw [find?_cons] at found
    split at found
    · cases found
      rcases mem_cons.mp member with rfl | later
      · exact Int.le_refl _
      · exact first b later
    next fails =>
      rcases mem_cons.mp member with rfl | later
      · rw [held] at fails
        cases fails
      · exact ih found later

/-- The first of the floor and the sorted tops at which something fits is the lowest level of
all. -/
lemma find?_lowest (found : (0 :: (spans.map Span.z1).insertionSort (· ≤ ·)).find?
      (fits ceiling spans · height) = some z) :
    fits ceiling spans z height = true ∧ ∀ c < z, fits ceiling spans c height = false := by
  have fit : fits ceiling spans z height = true := by simpa using find?_some found
  refine ⟨fit, fun c less => ?_⟩
  by_contra other
  rw [Bool.not_eq_false] at other
  obtain ⟨support, member, under, fit'⟩ := support_fits other
  have floor := (fits_iff.mp fit').1
  rw [find?_cons] at found
  split at found
  · cases found
    omega
  next fails =>
    have top : support ∈ (spans.map Span.z1).insertionSort (· ≤ ·) := by
      rw [mem_insertionSort]
      rcases mem_cons.mp member with rfl | top
      · rw [fit'] at fails
        cases fails
      · exact top
    have least := find?_le (pairwise_insertionSort _ _) found top fit'
    omega

end Lowest

/-- Which things may stand where when they are alone, which bar each other from a place, and which
overlap and must be on different levels. -/
structure Rules (α : Type u) where
  height : α → Int
  stands : α → Int → Prop
  bars : α → α → Prop
  overlaps : α → α → Prop
  rests : α → Prop
  height_pos : ∀ a, 0 < height a
  bars_symm : ∀ a b, bars a b → bars b a
  overlaps_symm : ∀ a b, overlaps a b → overlaps b a

/-- Something that got a level, or was left on the level it had. -/
structure Turn (α : Type u) where
  item : α
  wish : Int
  level : Int
  found : Bool

namespace Rules
variable {α : Type u} (R : Rules α)

def Apart (a b : α × Int) : Prop :=
  ¬ R.bars a.1 b.1 ∧
    (R.overlaps a.1 b.1 → a.2 + R.height a.1 ≤ b.2 ∨ b.2 + R.height b.1 ≤ a.2)

def Free (others : List (α × Int)) (a : α × Int) : Prop :=
  R.stands a.1 a.2 ∧ ∀ b ∈ others, R.Apart a b

/-- What rests takes the lowest free level, anything else the level that it wishes for if that
is free. -/
structure Picks (others : List (α × Int)) (a : α) (wish level : Int) : Prop where
  free : R.Free others (a, level)
  lowest : R.rests a → ∀ c < level, ¬ R.Free others (a, c)
  wished : ¬ R.rests a → R.Free others (a, wish) → level = wish

/-- Things that do not meet are of no concern to each other. -/
def Meets (a b : α) : Prop :=
  R.bars a b ∨ R.overlaps a b

variable {R} {a b : α × Int}

lemma Apart.symm (apart : R.Apart a b) : R.Apart b a :=
  ⟨fun barred => apart.1 (R.bars_symm _ _ barred),
    fun over_ => (apart.2 (R.overlaps_symm _ _ over_)).symm⟩

lemma apart_of_not_meets (off : ¬ R.Meets a.1 b.1) : R.Apart a b :=
  ⟨fun barred => off (.inl barred), fun over_ => absurd (.inr over_) off⟩

end Rules

def Turn.placed {α : Type u} (t : Turn α) : α × Int :=
  (t.item, t.level)

section Runs
variable {α : Type u} {R : Rules α} {turns : List (Turn α)} {t : Turn α}

/-- Whatever found a level picked it among what had been put before. -/
def IsRun (R : Rules α) (turns : List (Turn α)) : Prop :=
  ∀ front t back, turns = front ++ t :: back → t.found = true →
    R.Picks (front.map Turn.placed) t.item t.wish t.level

lemma IsRun.front {last : Turn α} (run : IsRun R (turns ++ [last])) : IsRun R turns := by
  intro front t back split
  refine run front t (back ++ [last]) ?_
  rw [split]
  simp

lemma IsRun.pairwise (run : IsRun R turns) :
    turns.Pairwise fun s t => s.found = true → t.found = true → R.Apart s.placed t.placed := by
  induction turns using reverseRecOn with
  | nil => exact Pairwise.nil
  | append_singleton turns last ih =>
    refine pairwise_append.mpr ⟨ih run.front, pairwise_singleton _ _, ?_⟩
    intro s member t single _ found
    rw [mem_singleton.mp single] at found ⊢
    have picks := run turns last [] rfl found
    exact (picks.free.2 s.placed (mem_map_of_mem member)).symm

lemma IsRun.apart (run : IsRun R turns) {s : Turn α} (member : s ∈ turns) (member' : t ∈ turns)
    (other : s ≠ t) (found : s.found = true) (found' : t.found = true) :
    R.Apart s.placed t.placed := by
  have : Std.Symm fun s t : Turn α => s.found = true → t.found = true → R.Apart s.placed t.placed :=
    ⟨fun s t apart foundT foundS => (apart foundS foundT).symm⟩
  exact run.pairwise.forall member member' other found found'

/-- Among the same things from the bottom up the level is free again, and none below it is. -/
lemma IsRun.again (run : IsRun R turns) (others : List (α × Int)) (distinct : turns.Nodup)
    (member : t ∈ turns)
    (found : t.found = true)
    (all : ∀ s ∈ turns, s ≠ t → R.Meets t.item s.item → s.found = true)
    (known : ∀ b ∈ others, R.Meets t.item b.1 → ∃ s ∈ turns, s ≠ t ∧ s.placed = b)
    (lower : ∀ s ∈ turns, s ≠ t → R.Meets t.item s.item → s.level < t.level → s.placed ∈ others) :
    R.Free others t.placed ∧ (R.rests t.item → ∀ c < t.level, ¬ R.Free others (t.item, c)) := by
  obtain ⟨front, back, split⟩ := append_of_mem member
  have picks := run front t back split found
  refine ⟨⟨picks.free.1, fun b home => ?_⟩, fun rests c less free => ?_⟩
  · by_cases meets : R.Meets t.item b.1
    · obtain ⟨s, member', other, rfl⟩ := known b home meets
      exact run.apart member member' other.symm found (all s member' other meets)
    · exact Rules.apart_of_not_meets meets
  · -- the level would have been free at the first time as well
    refine picks.lowest rests c less ⟨free.1, fun b home => ?_⟩
    obtain ⟨s, earlier, rfl⟩ := mem_map.mp home
    have member' : s ∈ turns := by simp [split, earlier]
    have other : s ≠ t := by
      rintro rfl
      rw [split] at distinct
      exact (nodup_append.mp distinct).2.2 s earlier s mem_cons_self rfl
    by_cases meets : R.Meets t.item s.item
    · by_cases less' : s.level < t.level
      · exact free.2 s.placed (lower s member' other meets less')
      · have apart := run.apart member member' other.symm found (all s member' other meets)
        refine ⟨apart.1, fun over_ => ?_⟩
        have tall := R.height_pos s.item
        rcases apart.2 over_ with under | above
        · refine .inl ?_
          simp only [Turn.placed] at under ⊢
          omega
        · simp only [Turn.placed] at above
          omega
    · exact Rules.apart_of_not_meets meets

end Runs

end Settling
