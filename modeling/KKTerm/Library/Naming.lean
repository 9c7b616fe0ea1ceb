import Mathlib.Data.List.Induction
import Mathlib.Data.List.Nodup
import Mathlib.Data.List.Perm.Subperm

/-!
# Names given out along a list

An item keeps the name it asks for when nobody has it yet, and otherwise gets the first
free name of its index. Items without a shape are passed over, and an item that repeats an
earlier one is left out, with or without taking a name. Which name an item gets is told
from the items alone, and giving names to the named items again changes none of them,
unless a name is read back as another one.
-/

namespace Naming

open List Prod

universe u v w

/-- The names of an index in the order in which they are tried. -/
structure Scheme (ι : Type u) where
  name : Nat → Nat → ι
  injective : ∀ {i j s t : Nat}, name i s = name j t → i = j ∧ s = t

namespace Scheme
variable {ι : Type u} [DecidableEq ι] (S : Scheme ι)

def search (seen : List ι) (i : Nat) : Nat → Nat → ι
  | 0, s => S.name i s
  | fuel + 1, s => if S.name i s ∈ seen then search seen i fuel (s + 1) else S.name i s

/-- The first name of the index that nobody has. -/
def free (seen : List ι) (i : Nat) : ι :=
  S.search seen i seen.length 0

/-- The name asked for, if nobody has it. -/
def give (seen : List ι) (i : Nat) (wish : Option ι) : ι :=
  match wish with
  | some w => if w ∈ seen then S.free seen i else w
  | none => S.free seen i

variable (seen : List ι) (i : Nat)

lemma search_eq (fuel s : Nat) :
    ∃ t, S.search seen i fuel s = S.name i t ∧ s ≤ t ∧
      (∀ r, s ≤ r → r < t → S.name i r ∈ seen) ∧
      (S.name i t ∈ seen → t = s + fuel) := by
  induction fuel generalizing s with
  | zero => exact ⟨s, rfl, Nat.le_refl s, fun r low high => by omega, fun _ => rfl⟩
  | succ fuel ih =>
    rw [search]
    by_cases taken : S.name i s ∈ seen
    · obtain ⟨t, found, low, passed, last⟩ := ih (s + 1)
      rw [if_pos taken]
      refine ⟨t, found, by omega, fun r from_ upto => ?_, fun still => ?_⟩
      · by_cases first : r = s
        · rwa [first]
        · exact passed r (by omega) upto
      · have := last still
        omega
    · rw [if_neg taken]
      exact ⟨s, rfl, Nat.le_refl s, fun r low high => by omega, fun still => absurd still taken⟩

/-- Among one more names than are taken some name is free. -/
lemma free_spec :
    ∃ t, S.free seen i = S.name i t ∧ S.name i t ∉ seen ∧ ∀ r < t, S.name i r ∈ seen := by
  obtain ⟨t, found, -, passed, last⟩ := S.search_eq seen i seen.length 0
  refine ⟨t, found, ?_, fun r upto => passed r (Nat.zero_le r) upto⟩
  intro taken
  have whole : t = seen.length := by
    have := last taken
    omega
  have distinct : ((range (seen.length + 1)).map (S.name i)).Nodup :=
    nodup_range.map (fun _ _ same => (S.injective same).2)
  have within : (range (seen.length + 1)).map (S.name i) ⊆ seen := by
    intro a member
    obtain ⟨r, low, rfl⟩ := mem_map.mp member
    have bound := mem_range.mp low
    by_cases last : r = t
    · rwa [last]
    · exact passed r (Nat.zero_le r) (by omega)
  have few := (distinct.subperm within).length_le
  rw [length_map, length_range] at few
  omega

lemma free_fresh : S.free seen i ∉ seen := by
  obtain ⟨t, found, fresh, -⟩ := S.free_spec seen i
  rwa [found]

lemma free_unique {seen : List ι} {i t : Nat} (fresh : S.name i t ∉ seen)
    (least : ∀ r < t, S.name i r ∈ seen) : S.free seen i = S.name i t := by
  obtain ⟨t', found, fresh', least'⟩ := S.free_spec seen i
  have same : t' = t := by
    rcases Nat.lt_trichotomy t' t with less | same | more
    · exact absurd (least t' less) fresh'
    · exact same
    · exact absurd (least' t more) fresh
  rw [found, same]

lemma give_of_free {seen : List ι} {i : Nat} {w : ι} (fresh : w ∉ seen) :
    S.give seen i (some w) = w :=
  if_neg fresh

lemma give_of_taken {seen : List ι} {i : Nat} {w : ι} (taken : w ∈ seen) :
    S.give seen i (some w) = S.free seen i :=
  if_pos taken

lemma give_fresh (wish : Option ι) : S.give seen i wish ∉ seen := by
  cases wish with
  | none => exact S.free_fresh seen i
  | some w =>
    by_cases taken : w ∈ seen
    · rw [S.give_of_taken taken]
      exact S.free_fresh seen i
    · rwa [S.give_of_free taken]

end Scheme

/-- How the items of a list are read, which of them are left out as repetitions, whether
these take a name, and how many are kept. -/
structure Pass (ι : Type u) (α : Type v) (β : Type w) where
  scheme : Scheme ι
  wish : α → Option ι
  shape : α → Option β
  again : List β → β → Bool
  eager : Bool
  limit : Nat

namespace Pass
variable {ι : Type u} {α : Type v} {β : Type w} (P : Pass ι α β)

/-- The items that are kept when there is no limit. -/
def shapes (xs : List α) : List β :=
  xs.foldl (fun bs x => match P.shape x with
    | none => bs
    | some b => if P.again bs b then bs else bs ++ [b]) []

def Keeps (before : List α) (x : α) (b : β) : Prop :=
  P.shape x = some b ∧ P.again (P.shapes before) b = false

/-- The item is kept as `b`, within the limit. -/
def Kept (before : List α) (x : α) (b : β) : Prop :=
  P.Keeps before x b ∧ (P.shapes before).length < P.limit

def Asks (before : List α) (x : α) : Prop :=
  ∃ b, P.shape x = some b ∧ (P.again (P.shapes before) b = false ∨ P.eager = true)

section Shapes
variable {P} {before xs : List α} {x : α} {b : β}

lemma Keeps.asks (keeps : P.Keeps before x b) : P.Asks before x :=
  ⟨b, keeps.1, .inl keeps.2⟩

lemma not_asks_of_none (none : P.shape x = none) : ¬ P.Asks before x := by
  rintro ⟨b, shape, -⟩
  cases none.symm.trans shape

lemma not_keeps_of_none (none : P.shape x = none) (b : β) : ¬ P.Keeps before x b :=
  fun keeps => not_asks_of_none none keeps.asks

lemma not_keeps_of_again (shape : P.shape x = some b)
    (again : P.again (P.shapes before) b = true) (c : β) : ¬ P.Keeps before x c := by
  rintro ⟨other, new⟩
  obtain rfl := Option.some.inj (shape.symm.trans other)
  cases again.symm.trans new

lemma not_asks_of_again (shape : P.shape x = some b)
    (again : P.again (P.shapes before) b = true) (lazy : P.eager = false) :
    ¬ P.Asks before x := by
  rintro ⟨c, other, new | eager⟩
  · exact not_keeps_of_again shape again c ⟨other, new⟩
  · cases lazy.symm.trans eager

lemma shapes_snoc (xs : List α) (x : α) : P.shapes (xs ++ [x]) =
    match P.shape x with
    | none => P.shapes xs
    | some b => if P.again (P.shapes xs) b then P.shapes xs else P.shapes xs ++ [b] := by
  rw [shapes, foldl_append]
  rfl

lemma shapes_keeps (keeps : P.Keeps xs x b) : P.shapes (xs ++ [x]) = P.shapes xs ++ [b] := by
  rw [shapes_snoc, keeps.1]
  exact if_neg (by simp [keeps.2])

lemma shapes_drops (drops : ∀ b, ¬ P.Keeps xs x b) : P.shapes (xs ++ [x]) = P.shapes xs := by
  rw [shapes_snoc]
  cases shape : P.shape x with
  | none => rfl
  | some b =>
    cases repeated : P.again (P.shapes xs) b with
    | true => simp [repeated]
    | false => exact absurd ⟨shape, repeated⟩ (drops b)

end Shapes

/-- Somebody among the items asks for the name. -/
def Wished (xs : List α) (w : ι) : Prop :=
  ∃ before y, before ++ [y] <+: xs ∧ P.Asks before y ∧ P.wish y = some w

/-- The first name of the next index that nobody asks for. -/
def IsSpare (before : List α) (a : ι) : Prop :=
  ∃ s, a = P.scheme.name before.length s ∧ ¬ P.Wished before a ∧
    ∀ r < s, P.Wished before (P.scheme.name before.length r)

/-- The item does not get the name it asks for: it asks for none, an earlier one asks for
the same, or an earlier one that is displaced itself was given it. -/
inductive Displaced : List α → α → Prop
  | unnamed {before : List α} {x : α} (none : P.wish x = none) : Displaced before x
  | repeated {before : List α} {x : α} {w : ι} (wish : P.wish x = some w)
    (earlier : P.Wished before w) : Displaced before x
  | overtaken {before : List α} {x : α} {w : ι} {front : List α} {y : α}
    (wish : P.wish x = some w) (earlier : front ++ [y] <+: before) (asks : P.Asks front y)
    (displaced : Displaced front y) (spare : P.IsSpare front w) : Displaced before x

/-- The name went to an earlier item that is displaced. -/
def Spared (xs : List α) (w : ι) : Prop :=
  ∃ before y, before ++ [y] <+: xs ∧ P.Asks before y ∧ P.Displaced before y ∧ P.IsSpare before w

def Gets (before : List α) (x : α) (a : ι) : Prop :=
  (P.wish x = some a ∧ ¬ P.Displaced before x) ∨ (P.Displaced before x ∧ P.IsSpare before a)

section Wishes
variable {P} {xs before : List α} {x y : α} {a w : ι}

lemma prefix_snoc_iff : before ++ [y] <+: xs ++ [x] ↔
    before ++ [y] <+: xs ∨ before = xs ∧ y = x := by
  rw [prefix_concat_iff, or_comm]
  refine or_congr_right ?_
  constructor
  · intro same
    obtain ⟨front, last⟩ := append_inj' same rfl
    exact ⟨front, singleton_inj.mp last⟩
  · rintro ⟨rfl, rfl⟩
    rfl

variable {Q : List α → α → Prop}

lemma exists_prefix_snoc :
    (∃ before y, before ++ [y] <+: xs ++ [x] ∧ Q before y) ↔
      (∃ before y, before ++ [y] <+: xs ∧ Q before y) ∨ Q xs x := by
  constructor
  · rintro ⟨before, y, within, holds⟩
    rcases prefix_snoc_iff.mp within with within | ⟨rfl, rfl⟩
    · exact .inl ⟨before, y, within, holds⟩
    · exact .inr holds
  · rintro (⟨before, y, within, holds⟩ | holds)
    · exact ⟨before, y, prefix_snoc_iff.mpr (.inl within), holds⟩
    · exact ⟨xs, x, prefix_rfl, holds⟩

lemma not_exists_prefix_nil : ¬ ∃ before y, before ++ [y] <+: [] ∧ Q before y := by
  rintro ⟨before, y, within, -⟩
  exact absurd (prefix_nil.mp within) (by simp)

lemma wished_snoc : P.Wished (xs ++ [x]) w ↔
    P.Wished xs w ∨ P.Asks xs x ∧ P.wish x = some w :=
  exists_prefix_snoc

lemma spared_snoc : P.Spared (xs ++ [x]) w ↔
    P.Spared xs w ∨ P.Asks xs x ∧ P.Displaced xs x ∧ P.IsSpare xs w :=
  exists_prefix_snoc

/-- A name given to a displaced item has the index of an earlier item. -/
lemma Spared.index (spared : P.Spared xs w) : ∃ i < xs.length, ∃ s, w = P.scheme.name i s := by
  obtain ⟨before, y, within, -, -, s, same, -⟩ := spared
  refine ⟨before.length, ?_, s, same⟩
  have short := within.length_le
  rw [length_append, length_singleton] at short
  omega

lemma IsSpare.unique {b : ι} (first : P.IsSpare xs a) (second : P.IsSpare xs b) : a = b := by
  obtain ⟨s, rfl, free, least⟩ := first
  obtain ⟨t, rfl, free', least'⟩ := second
  rcases Nat.lt_trichotomy s t with less | same | more
  · exact absurd (least' s less) free
  · rw [same]
  · exact absurd (least t more) free'

lemma displaced_iff : P.Displaced xs x ↔
    P.wish x = none ∨ ∃ w, P.wish x = some w ∧ (P.Wished xs w ∨ P.Spared xs w) := by
  constructor
  · intro displaced
    cases displaced with
    | unnamed none => exact .inl none
    | repeated wish earlier => exact .inr ⟨_, wish, .inl earlier⟩
    | overtaken wish earlier asks displaced spare =>
      exact .inr ⟨_, wish, .inr ⟨_, _, earlier, asks, displaced, spare⟩⟩
  · rintro (none | ⟨w, wish, earlier | ⟨before, y, earlier, asks, displaced, spare⟩⟩)
    · exact .unnamed none
    · exact .repeated wish earlier
    · exact .overtaken wish earlier asks displaced spare

end Wishes

/-- The names given so far, and the items kept so far with theirs. -/
structure Given (ι : Type u) (β : Type w) where
  seen : List ι
  out : List (ι × β)

variable [DecidableEq ι]

def step (g : Given ι β) (i : Nat) (x : α) : Given ι β :=
  match P.shape x with
  | none => g
  | some b =>
    let name := P.scheme.give g.seen i (P.wish x)
    if P.again (g.out.map Prod.snd) b then
      if P.eager then ⟨g.seen ++ [name], g.out⟩ else g
    else ⟨g.seen ++ [name], g.out ++ [(name, b)]⟩

def run (xs : List α) : Given ι β :=
  xs.zipIdx.foldl (fun g x => P.step g x.2 x.1) ⟨[], []⟩

def result (xs : List α) : List (ι × β) :=
  (P.run xs).out.take P.limit

/-- The name that an item asking for one gets behind the others. -/
def nameOf (before : List α) (x : α) : ι :=
  P.scheme.give (P.run before).seen before.length (P.wish x)

section Run
variable {P} {xs : List α} {x : α} {b : β}

lemma run_snoc (xs : List α) (x : α) : P.run (xs ++ [x]) = P.step (P.run xs) xs.length x := by
  rw [run, zipIdx_append, foldl_append, Nat.zero_add]
  rfl

lemma map_out (xs : List α) : (P.run xs).out.map snd = P.shapes xs := by
  induction xs using reverseRecOn with
  | nil => rfl
  | append_singleton xs x ih =>
    rw [run_snoc, shapes_snoc, step, ih]
    cases P.shape x with
    | none => exact ih
    | some b =>
      cases repeated : P.again (P.shapes xs) b with
      | true =>
        simp only [repeated, if_true]
        split <;> exact ih
      | false => simp [repeated, ih]

lemma out_keeps (keeps : P.Keeps xs x b) :
    (P.run (xs ++ [x])).out = (P.run xs).out ++ [(P.nameOf xs x, b)] := by
  rw [run_snoc, step, keeps.1, map_out]
  simp only [keeps.2]
  rfl

lemma out_drops (drops : ∀ b, ¬ P.Keeps xs x b) : (P.run (xs ++ [x])).out = (P.run xs).out := by
  rw [run_snoc, step]
  cases shape : P.shape x with
  | none => rfl
  | some b =>
    have repeated : P.again (P.shapes xs) b = true := by
      rw [← Bool.not_eq_false]
      exact fun new => drops b ⟨shape, new⟩
    simp only [map_out, repeated]
    cases P.eager <;> rfl

lemma seen_asks (asks : P.Asks xs x) :
    (P.run (xs ++ [x])).seen = (P.run xs).seen ++ [P.nameOf xs x] := by
  obtain ⟨b, shape, takes⟩ := asks
  rw [run_snoc, step, shape, map_out]
  rcases takes with new | eager
  · simp only [new]
    rfl
  · simp only [eager, if_true]
    split <;> rfl

lemma seen_passes (passes : ¬ P.Asks xs x) : (P.run (xs ++ [x])).seen = (P.run xs).seen := by
  rw [run_snoc, step]
  cases shape : P.shape x with
  | none => rfl
  | some b =>
    have repeated : P.again (P.shapes xs) b = true := by
      rw [← Bool.not_eq_false]
      exact fun new => passes ⟨b, shape, .inl new⟩
    have lazy : P.eager = false := by
      rw [← Bool.not_eq_true]
      exact fun eager => passes ⟨b, shape, .inr eager⟩
    simp only [map_out, repeated, lazy]
    rfl

lemma nameOf_fresh (xs : List α) (x : α) : P.nameOf xs x ∉ (P.run xs).seen :=
  P.scheme.give_fresh _ _ _

lemma seen_nodup (xs : List α) : (P.run xs).seen.Nodup := by
  induction xs using reverseRecOn with
  | nil => exact nodup_nil
  | append_singleton xs x ih =>
    by_cases asks : P.Asks xs x
    · rw [seen_asks asks, ← concat_eq_append]
      exact ih.concat (nameOf_fresh xs x)
    · rwa [seen_passes asks]

/-- The items kept have their names among those given, in the same order. -/
lemma out_sublist (xs : List α) : ((P.run xs).out.map fst).Sublist (P.run xs).seen := by
  induction xs using reverseRecOn with
  | nil => exact .slnil
  | append_singleton xs x ih =>
    by_cases keeps : ∃ b, P.Keeps xs x b
    · obtain ⟨b, keeps⟩ := keeps
      rw [out_keeps keeps, seen_asks keeps.asks, map_append]
      exact ih.append (Sublist.refl _)
    · rw [out_drops (not_exists.mp keeps)]
      by_cases asks : P.Asks xs x
      · rw [seen_asks asks]
        exact ih.trans (sublist_append_left _ _)
      · rwa [seen_passes asks]

lemma length_seen_le (xs : List α) : (P.run xs).seen.length ≤ xs.length := by
  induction xs using reverseRecOn with
  | nil => exact Nat.le_refl 0
  | append_singleton xs x ih =>
    rw [length_append, length_singleton]
    by_cases asks : P.Asks xs x
    · rw [seen_asks asks, length_append, length_singleton]
      omega
    · rw [seen_passes asks]
      omega

lemma names_nodup (xs : List α) : ((P.result xs).map fst).Nodup :=
  (seen_nodup xs).sublist (((take_sublist P.limit (P.run xs).out).map fst).trans (out_sublist xs))

lemma length_result_le (xs : List α) : (P.result xs).length ≤ P.limit :=
  length_take_le _ _

lemma map_result (xs : List α) : (P.result xs).map snd = (P.shapes xs).take P.limit := by
  rw [result, map_take, map_out]

end Run

section Names
variable {P} {xs : List α} {x : α} {a : ι} {b : β}

/-- What is known of the names taken tells which name the next item gets. -/
lemma gets_nameOf_of_seen
    (seen : ∀ w, w ∈ (P.run xs).seen ↔ P.Wished xs w ∨ P.Spared xs w) (x : α) :
    P.Gets xs x (P.nameOf xs x) := by
  -- Names of the next index are taken only by those who ask for them.
  have taken : ∀ s, P.scheme.name xs.length s ∈ (P.run xs).seen ↔
      P.Wished xs (P.scheme.name xs.length s) := by
    intro s
    rw [seen]
    refine or_iff_left fun spared => ?_
    obtain ⟨i, low, t, same⟩ := spared.index
    have := (P.scheme.injective same).1
    omega
  have spare : P.IsSpare xs (P.scheme.free (P.run xs).seen xs.length) := by
    obtain ⟨t, found, fresh, least⟩ := P.scheme.free_spec (P.run xs).seen xs.length
    refine ⟨t, found, ?_, fun r upto => (taken r).mp (least r upto)⟩
    rw [found]
    exact fun wished => fresh ((taken t).mpr wished)
  by_cases displaced : P.Displaced xs x
  · refine .inr ⟨displaced, ?_⟩
    rcases displaced_iff.mp displaced with none | ⟨w, wish, known⟩
    · rw [nameOf, none]
      exact spare
    · rw [nameOf, wish, P.scheme.give_of_taken ((seen w).mpr known)]
      exact spare
  · refine .inl ⟨?_, displaced⟩
    rw [displaced_iff, not_or] at displaced
    obtain ⟨w, wish⟩ := Option.ne_none_iff_exists'.mp displaced.1
    have fresh : w ∉ (P.run xs).seen := fun member => displaced.2 ⟨w, wish, (seen w).mp member⟩
    rw [nameOf, wish, P.scheme.give_of_free fresh]

/-- The names taken are those asked for and those given to displaced items. -/
lemma mem_seen_iff (xs : List α) (w : ι) :
    w ∈ (P.run xs).seen ↔ P.Wished xs w ∨ P.Spared xs w := by
  induction xs using reverseRecOn generalizing w with
  | nil =>
    exact iff_of_false not_mem_nil (not_or.mpr ⟨not_exists_prefix_nil, not_exists_prefix_nil⟩)
  | append_singleton xs x ih =>
    rw [wished_snoc, spared_snoc]
    by_cases asks : P.Asks xs x
    · rw [seen_asks asks, mem_append, mem_singleton, ih w]
      rcases gets_nameOf_of_seen ih x with ⟨wish, kept⟩ | ⟨displaced, spare⟩
      · constructor
        · rintro ((wished | spared) | rfl)
          · exact .inl (.inl wished)
          · exact .inr (.inl spared)
          · exact .inl (.inr ⟨asks, wish⟩)
        · rintro ((wished | ⟨-, same⟩) | spared | ⟨-, displaced, -⟩)
          · exact .inl (.inl wished)
          · exact .inr (Option.some.inj (same.symm.trans wish))
          · exact .inl (.inr spared)
          · exact absurd displaced kept
      · constructor
        · rintro ((wished | spared) | rfl)
          · exact .inl (.inl wished)
          · exact .inr (.inl spared)
          · exact .inr (.inr ⟨asks, displaced, spare⟩)
        · rintro ((wished | ⟨-, same⟩) | spared | ⟨-, -, other⟩)
          · exact .inl (.inl wished)
          · rcases displaced_iff.mp displaced with none | ⟨v, wish, known⟩
            · exact absurd (same.symm.trans none) (by simp)
            · rw [Option.some.inj (same.symm.trans wish)]
              exact .inl known
          · exact .inl (.inr spared)
          · exact .inr (other.unique spare)
    · rw [seen_passes asks, ih w]
      simp only [asks, false_and, or_false]

lemma gets_nameOf (xs : List α) (x : α) : P.Gets xs x (P.nameOf xs x) :=
  gets_nameOf_of_seen (mem_seen_iff xs) x

lemma gets_iff : P.Gets xs x a ↔ a = P.nameOf xs x := by
  constructor
  · intro gets
    have given : P.Gets xs x (P.nameOf xs x) := gets_nameOf xs x
    rcases gets with ⟨wish, kept⟩ | ⟨displaced, spare⟩ <;>
      rcases given with ⟨wish', kept'⟩ | ⟨displaced', spare'⟩
    · exact Option.some.inj (wish.symm.trans wish')
    · exact absurd displaced' kept
    · exact absurd displaced kept'
    · exact spare.unique spare'
  · rintro rfl
    exact gets_nameOf xs x

lemma length_out (xs : List α) : (P.run xs).out.length = (P.shapes xs).length := by
  rw [← map_out, length_map]

/-- As long as nothing is left out, all names taken are names of kept items. -/
lemma seen_of_whole (whole : (P.shapes xs).length = xs.length) :
    (P.run xs).seen = (P.run xs).out.map fst := by
  refine ((out_sublist xs).eq_of_length_le ?_).symm
  rw [length_map, length_out, whole]
  exact length_seen_le xs

lemma result_kept (kept : P.Kept xs x b) :
    P.result (xs ++ [x]) = P.result xs ++ [(P.nameOf xs x, b)] := by
  have room : (P.run xs).out.length + 1 ≤ P.limit := by
    rw [length_out]
    exact kept.2
  rw [result, result, out_keeps kept.1, take_of_length_le (by simpa using room),
    take_of_length_le (Nat.le_of_succ_le room)]

lemma result_dropped (dropped : ∀ b, ¬ P.Kept xs x b) : P.result (xs ++ [x]) = P.result xs := by
  by_cases keeps : ∃ b, P.Keeps xs x b
  · obtain ⟨b, keeps⟩ := keeps
    have full : P.limit ≤ (P.run xs).out.length := by
      rw [length_out]
      exact Nat.le_of_not_lt fun room => dropped b ⟨keeps, room⟩
    rw [result, result, out_keeps keeps, take_append_of_le_length full]
  · rw [result, result, out_drops (not_exists.mp keeps)]

lemma mem_result_iff : (a, b) ∈ P.result xs ↔
    ∃ before x, before ++ [x] <+: xs ∧ P.Kept before x b ∧ P.Gets before x a := by
  induction xs using reverseRecOn with
  | nil => exact iff_of_false (by simp [result, run]) not_exists_prefix_nil
  | append_singleton xs y ih =>
    rw [exists_prefix_snoc, ← ih]
    by_cases kept : ∃ c, P.Kept xs y c
    · obtain ⟨c, kept⟩ := kept
      rw [result_kept kept, mem_append, mem_singleton, Prod.mk.injEq]
      refine or_congr_right ?_
      constructor
      · rintro ⟨rfl, rfl⟩
        exact ⟨kept, gets_nameOf xs y⟩
      · rintro ⟨other, gets⟩
        exact ⟨gets_iff.mp gets, Option.some.inj (other.1.1.symm.trans kept.1.1)⟩
    · rw [result_dropped (not_exists.mp kept)]
      exact (or_iff_left fun other => kept ⟨b, other.1⟩).symm

lemma result_unique {c : β} (first : (a, b) ∈ P.result xs) (second : (a, c) ∈ P.result xs) :
    b = c :=
  congrArg snd (inj_on_of_nodup_map (names_nodup xs) first second rfl)

lemma shapes_of_kept (kept : P.Kept xs x b) : (P.result xs).map snd = P.shapes xs := by
  rw [map_result, take_of_length_le (Nat.le_of_lt kept.2)]

lemma find_result_iff {p : β → Bool} :
    (P.result xs).find? (fun k => p k.2) = some (a, b) ↔ ∃ before x, before ++ [x] <+: xs ∧
      P.Kept before x b ∧ p b = true ∧ (∀ c ∈ P.shapes before, p c = false) ∧
      P.Gets before x a := by
  induction xs using reverseRecOn with
  | nil => exact iff_of_false (by simp [result, run]) not_exists_prefix_nil
  | append_singleton xs y ih =>
    rw [exists_prefix_snoc, ← ih]
    by_cases kept : ∃ c, P.Kept xs y c
    · obtain ⟨c, kept⟩ := kept
      rw [result_kept kept, find?_append, Option.or_eq_some_iff]
      refine or_congr_right ?_
      have none : (P.result xs).find? (fun k => p k.2) = none ↔
          ∀ c ∈ P.shapes xs, p c = false := by
        rw [← shapes_of_kept kept, find?_eq_none]
        simp only [mem_map, forall_exists_index, and_imp, forall_apply_eq_imp_iff₂,
          Bool.not_eq_true]
      rw [none]
      constructor
      · rintro ⟨others, found⟩
        have same := mem_singleton.mp (mem_of_find?_eq_some found)
        cases same
        have holds := find?_some found
        exact ⟨kept, holds, others, gets_nameOf xs y⟩
      · rintro ⟨other, holds, others, gets⟩
        obtain rfl := Option.some.inj (other.1.1.symm.trans kept.1.1)
        refine ⟨others, ?_⟩
        rw [gets_iff.mp gets]
        exact find?_cons_of_pos holds
    · rw [result_dropped (not_exists.mp kept)]
      exact (or_iff_left fun other => kept ⟨b, other.1⟩).symm

end Names

/-- How a kept item is read again: with its shape, and asking for its name, where a name of
the scheme may be read as another one. -/
structure Renewal (P : Pass ι α β) where
  back : ι → β → α
  echo : Nat → Nat → ι
  shape_back : ∀ {x : α} {b : β} (n : ι), P.shape x = some b → P.shape (back n b) = some b
  wish_back : ∀ {x y : α} {b : β} {w : ι}, P.shape x = some b → P.wish y = some w →
    P.wish (back w b) = some w
  name_back : ∀ (i s : Nat) (b : β), P.wish (back (P.scheme.name i s) b) = some (echo i s)

namespace Renewal
variable {P} (R : P.Renewal)

def renew (xs : List α) : List α :=
  (P.result xs).map (fun k => R.back k.1 k.2)

/-- No name of the scheme is read as itself or as another one of the scheme. -/
def Astray : Prop :=
  ∀ i s j t, R.echo i s ≠ P.scheme.name j t

/-- Every item that is kept has the name it asks for, or nothing was left out before it and
what its name is read as belongs to an earlier item. -/
def Settled (xs : List α) : Prop :=
  ∀ before x b, before ++ [x] <+: xs → P.Kept before x b →
    ¬ P.Displaced before x ∨
      ((P.shapes before).length = before.length ∧ P.Wished before (R.echo before.length 0))

section Renewed
variable {R} {xs : List α} {x : α} {b : β}

lemma renew_kept (kept : P.Kept xs x b) :
    R.renew (xs ++ [x]) = R.renew xs ++ [R.back (P.nameOf xs x) b] := by
  rw [renew, result_kept kept, map_append]
  rfl

lemma renew_dropped (dropped : ∀ b, ¬ P.Kept xs x b) : R.renew (xs ++ [x]) = R.renew xs := by
  rw [renew, result_dropped dropped, renew]

lemma shapes_renew (xs : List α) : P.shapes (R.renew xs) = (P.result xs).map snd := by
  induction xs using reverseRecOn with
  | nil => simp [renew, result, run, shapes]
  | append_singleton xs x ih =>
    by_cases kept : ∃ b, P.Kept xs x b
    · obtain ⟨b, kept⟩ := kept
      have keeps : P.Keeps (R.renew xs) (R.back (P.nameOf xs x) b) b := by
        refine ⟨R.shape_back _ kept.1.1, ?_⟩
        rw [ih, shapes_of_kept kept]
        exact kept.1.2
      rw [renew_kept kept, shapes_keeps keeps, ih, result_kept kept, map_append]
      rfl
    · rw [renew_dropped (not_exists.mp kept), result_dropped (not_exists.mp kept), ih]

lemma keeps_renew (kept : P.Kept xs x b) : P.Keeps (R.renew xs) (R.back (P.nameOf xs x) b) b := by
  refine ⟨R.shape_back _ kept.1.1, ?_⟩
  rw [shapes_renew, shapes_of_kept kept]
  exact kept.1.2

lemma result_renew (xs : List α) : P.result (R.renew xs) = (P.run (R.renew xs)).out := by
  refine take_of_length_le ?_
  rw [length_out, shapes_renew, length_map]
  exact length_result_le xs

lemma result_renew_kept (kept : P.Kept xs x b) : P.result (R.renew (xs ++ [x])) =
    P.result (R.renew xs) ++ [(P.nameOf (R.renew xs) (R.back (P.nameOf xs x) b), b)] := by
  rw [result_renew, result_renew, renew_kept kept, out_keeps (keeps_renew kept)]

lemma seen_renew (xs : List α) :
    (P.run (R.renew xs)).seen = (P.result (R.renew xs)).map fst := by
  rw [result_renew]
  induction xs using reverseRecOn with
  | nil => simp [renew, result, run]
  | append_singleton xs x ih =>
    by_cases kept : ∃ b, P.Kept xs x b
    · obtain ⟨b, kept⟩ := kept
      rw [renew_kept kept, seen_asks (keeps_renew kept).asks, out_keeps (keeps_renew kept), ih,
        map_append]
      rfl
    · rw [renew_dropped (not_exists.mp kept), ih]

lemma renewed_kept (kept : P.Kept xs x b) :
    P.result (R.renew (xs ++ [x])) = P.result (xs ++ [x]) ↔
      P.result (R.renew xs) = P.result xs ∧
        P.nameOf (R.renew xs) (R.back (P.nameOf xs x) b) = P.nameOf xs x := by
  rw [result_renew_kept kept, result_kept kept]
  constructor
  · intro same
    obtain ⟨front, last⟩ := append_inj' same rfl
    exact ⟨front, congrArg fst (singleton_inj.mp last)⟩
  · rintro ⟨front, last⟩
    rw [front, last]

lemma renewed_dropped (dropped : ∀ b, ¬ P.Kept xs x b) :
    P.result (R.renew (xs ++ [x])) = P.result (xs ++ [x]) ↔
      P.result (R.renew xs) = P.result xs := by
  rw [renew_dropped dropped, result_dropped dropped]

omit [DecidableEq ι] in
lemma settled_snoc : R.Settled (xs ++ [x]) ↔ R.Settled xs ∧ ∀ b, P.Kept xs x b →
    ¬ P.Displaced xs x ∨
      ((P.shapes xs).length = xs.length ∧ P.Wished xs (R.echo xs.length 0)) := by
  constructor
  · intro settled
    refine ⟨fun before y c within => ?_, fun b => settled xs x b prefix_rfl⟩
    exact settled before y c (prefix_snoc_iff.mpr (.inl within))
  · rintro ⟨settled, last⟩ before y c within kept
    rcases prefix_snoc_iff.mp within with within | ⟨rfl, rfl⟩
    · exact settled before y c within kept
    · exact last c kept

lemma renewed_of_names (names : (P.result (R.renew xs)).map fst =
    (P.result xs).map fst) : P.result (R.renew xs) = P.result xs := by
  have shapes : (P.result (R.renew xs)).map snd = (P.result xs).map snd := by
    rw [result_renew, map_out, shapes_renew]
  rw [← zip_unzip (P.result (R.renew xs)), ← zip_unzip (P.result xs),
    unzip_fst, unzip_snd, unzip_fst, unzip_snd, names, shapes]

/-- In a second pass that changed nothing so far, an item that got the name it asks for
gets it again. -/
lemma again_of_wish (kept : P.Kept xs x b) (same : P.result (R.renew xs) = P.result xs)
    (asked : P.wish (R.back (P.nameOf xs x) b) = some (P.nameOf xs x)) :
    P.nameOf (R.renew xs) (R.back (P.nameOf xs x) b) = P.nameOf xs x := by
  have fresh : P.nameOf xs x ∉ (P.run (R.renew xs)).seen := by
    have distinct : ((P.result xs).map fst ++ [P.nameOf xs x]).Nodup := by
      have whole := names_nodup (P := P) (xs ++ [x])
      rwa [result_kept kept, map_append] at whole
    rw [seen_renew, same]
    exact fun member => (nodup_append.mp distinct).2.2 _ member _ mem_cons_self rfl
  rw [nameOf, asked, P.scheme.give_of_free fresh]

lemma again_of_gets (kept : P.Kept xs x b) (same : P.result (R.renew xs) = P.result xs)
    (own : ¬ P.Displaced xs x) :
    P.nameOf (R.renew xs) (R.back (P.nameOf xs x) b) = P.nameOf xs x := by
  refine again_of_wish kept same ?_
  have gets : P.Gets xs x (P.nameOf xs x) := gets_nameOf xs x
  rcases gets with ⟨wish, -⟩ | ⟨displaced, -⟩
  · exact R.wish_back kept.1.1 wish
  · exact absurd displaced own

lemma renewed_of_plain (plain : ∀ i s, R.echo i s = P.scheme.name i s) (xs : List α) :
    P.result (R.renew xs) = P.result xs := by
  induction xs using reverseRecOn with
  | nil => simp [renew, result, run]
  | append_singleton xs x ih =>
    by_cases kept : ∃ b, P.Kept xs x b
    · obtain ⟨b, kept⟩ := kept
      have gets : P.Gets xs x (P.nameOf xs x) := gets_nameOf xs x
      refine (renewed_kept kept).mpr ⟨ih, ?_⟩
      rcases gets with ⟨-, own⟩ | ⟨displaced, s, name, -⟩
      · exact again_of_gets kept ih own
      · refine again_of_wish kept ih ?_
        rw [name, R.name_back, plain]
    · exact (renewed_dropped (not_exists.mp kept)).mpr ih

omit [DecidableEq ι] in
lemma Astray.not_wished (astray : R.Astray) (kept : P.Kept xs x b) (i s : Nat) :
    ¬ P.Wished xs (P.scheme.name i s) := by
  rintro ⟨before, y, -, -, wish⟩
  have asked := R.wish_back kept.1.1 wish
  rw [R.name_back] at asked
  exact astray i s i s (Option.some.inj asked)

lemma length_renew (kept : P.Kept xs x b) : (R.renew xs).length = (P.shapes xs).length := by
  rw [renew, length_map, ← shapes_of_kept kept, length_map]

lemma again_iff_of_displaced (astray : R.Astray) (kept : P.Kept xs x b)
    (same : P.result (R.renew xs) = P.result xs) (displaced : P.Displaced xs x) :
    P.nameOf (R.renew xs) (R.back (P.nameOf xs x) b) = P.nameOf xs x ↔
      (P.shapes xs).length = xs.length ∧ P.Wished xs (R.echo xs.length 0) := by
  have seen : (P.run (R.renew xs)).seen = (P.run xs).out.map fst := by
    have all : P.result xs = (P.run xs).out := by
      refine take_of_length_le ?_
      rw [length_out]
      exact Nat.le_of_lt kept.2
    rw [seen_renew, same, all]
  have first : P.nameOf xs x = P.scheme.name xs.length 0 := by
    have gets : P.Gets xs x (P.nameOf xs x) := gets_nameOf xs x
    rcases gets with ⟨-, own⟩ | ⟨-, s, name, -, least⟩
    · exact absurd displaced own
    · cases s with
      | zero => exact name
      | succ s => exact absurd (least 0 (Nat.succ_pos s)) (astray.not_wished kept _ _)
  have fresh : P.scheme.name xs.length 0 ∉ (P.run xs).out.map fst := by
    rw [← first]
    exact fun member => nameOf_fresh xs x ((out_sublist xs).subset member)
  rw [nameOf, seen, length_renew kept, first, R.name_back]
  constructor
  · intro again
    by_cases taken : R.echo xs.length 0 ∈ (P.run xs).out.map fst
    · rw [P.scheme.give_of_taken taken] at again
      obtain ⟨t, found, -⟩ := P.scheme.free_spec ((P.run xs).out.map fst) (P.shapes xs).length
      refine ⟨(P.scheme.injective (found.symm.trans again)).1, ?_⟩
      rcases (mem_seen_iff xs _).mp ((out_sublist xs).subset taken) with wished | spared
      · exact wished
      · obtain ⟨i, -, s, name⟩ := spared.index
        exact absurd name (astray _ _ _ _)
    · rw [P.scheme.give_of_free taken] at again
      exact absurd again (astray _ _ _ _)
  · rintro ⟨whole, wished⟩
    have taken : R.echo xs.length 0 ∈ (P.run xs).out.map fst := by
      rw [← seen_of_whole whole]
      exact (mem_seen_iff xs _).mpr (.inl wished)
    rw [P.scheme.give_of_taken taken, whole]
    exact P.scheme.free_unique fresh (fun r low => absurd low (Nat.not_lt_zero r))

/-- Giving names again changes nothing if and only if the items are settled. -/
lemma renewed_iff_settled (astray : R.Astray) (xs : List α) :
    P.result (R.renew xs) = P.result xs ↔ R.Settled xs := by
  induction xs using reverseRecOn with
  | nil =>
    refine iff_of_true (by simp [renew, result, run]) ?_
    intro before x b within
    exact absurd (prefix_nil.mp within) (by simp)
  | append_singleton xs x ih =>
    rw [settled_snoc, ← ih]
    by_cases kept : ∃ b, P.Kept xs x b
    · obtain ⟨b, kept⟩ := kept
      rw [renewed_kept kept]
      refine and_congr_right fun same => ?_
      constructor
      · intro again c _
        by_cases displaced : P.Displaced xs x
        · exact .inr ((again_iff_of_displaced astray kept same displaced).mp again)
        · exact .inl displaced
      · intro settled
        rcases settled b kept with own | held
        · exact again_of_gets kept same own
        · by_cases displaced : P.Displaced xs x
          · exact (again_iff_of_displaced astray kept same displaced).mpr held
          · exact again_of_gets kept same displaced
    · rw [renewed_dropped (not_exists.mp kept)]
      exact (and_iff_left fun b other => absurd ⟨b, other⟩ kept).symm

end Renewed

end Renewal

end Pass

end Naming
