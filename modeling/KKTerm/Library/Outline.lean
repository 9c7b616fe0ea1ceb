import KKTerm.Library.Loops

/-!
# Outlines

Items that name a parent are listed from the top down, each with its depth. An item
whose chain of parents ends is found below its parent; an item on a cycle is met from
outside the walk. Items that were met are not met again.
-/

namespace Outline

open List hiding IsChain

universe u v
variable {α : Type u} {κ : Type v}

structure Row (α : Type u) where
  item : α
  depth : Nat
  deriving DecidableEq

/-- The rows so far, and the keys that have been met. -/
structure Listing (α : Type u) (κ : Type v) where
  visited : List κ
  rows : List (Row α)

def Listing.start : Listing α κ :=
  ⟨[], []⟩

section Walk
variable [DecidableEq κ] (key : α → κ) (children : κ → List α)

def Listing.enter (s : Listing α κ) (x : α) (depth : Nat) : Listing α κ :=
  ⟨s.visited ++ [key x], s.rows ++ [⟨x, depth⟩]⟩

def walk : Nat → Nat → Listing α κ → α → Option (Listing α κ)
  | 0, _, _, _ => none
  | fuel + 1, depth, s, x =>
    if key x ∈ s.visited then some s
    else (children (key x)).foldlM (walk fuel (depth + 1)) (s.enter key x depth)

end Walk

section Ending
variable {key : α → κ} {children : κ → List α} {nodes : List α} {s s' : Listing α κ} {x : α}

structure Sound (key : α → κ) (nodes : List α) (s : Listing α κ) : Prop where
  visited : s.visited = s.rows.map fun row => key row.item
  distinct : s.visited.Nodup
  known : ∀ row ∈ s.rows, row.item ∈ nodes

/-- What a walk does to a listing: rows are added at its end. -/
structure Later (key : α → κ) (nodes : List α) (s s' : Listing α κ) : Prop where
  sound : Sound key nodes s'
  rows : s.rows <+: s'.rows
  visited : s.visited ⊆ s'.visited

/-- How many of the items have not been met. -/
def unmet [DecidableEq κ] (key : α → κ) (nodes : List α) (s : Listing α κ) : Nat :=
  (nodes.filter fun x => key x ∉ s.visited).length

lemma sound_start : Sound key nodes .start where
  visited := rfl
  distinct := nodup_nil
  known _ member := absurd member not_mem_nil

lemma Later.refl (sound : Sound key nodes s) : Later key nodes s s :=
  ⟨sound, prefix_rfl, Subset.refl _⟩

lemma Later.trans {t : Listing α κ} (first : Later key nodes s s')
    (second : Later key nodes s' t) : Later key nodes s t where
  sound := second.sound
  rows := first.rows.trans second.rows
  visited := Subset.trans first.visited second.visited

lemma Sound.enter (sound : Sound key nodes s) (known : x ∈ nodes) (fresh : key x ∉ s.visited)
    (depth : Nat) : Later key nodes s (s.enter key x depth) where
  sound :=
    { visited := by simp [Listing.enter, sound.visited]
      distinct := by
        apply nodup_append.mpr
        refine ⟨sound.distinct, nodup_singleton _, ?_⟩
        rintro a member b single rfl
        rw [mem_singleton.mp single] at member
        exact fresh member
      known := by
        intro row member
        rcases mem_append.mp member with old | new
        · exact sound.known row old
        · rw [mem_singleton.mp new]
          exact known }
  rows := prefix_append _ _
  visited := subset_append_left _ _

lemma mem_enter (s : Listing α κ) (x : α) (depth : Nat) :
    key x ∈ (s.enter key x depth).visited := by
  simp [Listing.enter]

lemma foldlM_returns {f : Listing α κ → α → Option (Listing α κ)} {xs : List α}
    (sound : Sound key nodes s)
    (each : ∀ x ∈ xs, ∀ t, Later key nodes s t →
      ∃ t', f t x = some t' ∧ Later key nodes t t' ∧ key x ∈ t'.visited) :
    ∃ s', xs.foldlM f s = some s' ∧ Later key nodes s s' ∧ ∀ x ∈ xs, key x ∈ s'.visited := by
  induction xs generalizing s with
  | nil => exact ⟨s, rfl, .refl sound, fun x member => absurd member not_mem_nil⟩
  | cons x xs ih =>
    obtain ⟨t, first, later, met⟩ := each x mem_cons_self s (.refl sound)
    obtain ⟨s', rest, later', all⟩ := ih later.sound fun y member t' after =>
      each y (mem_cons_of_mem x member) t' (later.trans after)
    refine ⟨s', ?_, later.trans later', ?_⟩
    · rw [foldlM_cons, first]
      exact rest
    · intro y member
      rcases mem_cons.mp member with rfl | member
      · exact later'.visited met
      · exact all y member

variable [DecidableEq κ]

lemma Later.unmet_le (later : Later key nodes s s') : unmet key nodes s' ≤ unmet key nodes s := by
  apply Sublist.length_le
  apply monotone_filter_right
  intro y fresh
  simp only [decide_eq_true_eq] at fresh ⊢
  exact fun old => fresh (later.visited old)

lemma Later.unmet_lt (later : Later key nodes s s') (known : x ∈ nodes)
    (fresh : key x ∉ s.visited) (met : key x ∈ s'.visited) :
    unmet key nodes s' < unmet key nodes s := by
  apply Loops.length_filter_lt ?_ known (by simpa using fresh) (by simpa using met)
  intro y stays
  simp only [decide_eq_true_eq] at stays ⊢
  exact fun old => stays (later.visited old)

lemma walk_returns (inside : ∀ k, ∀ child ∈ children k, child ∈ nodes) {fuel : Nat}
    (depth : Nat) (sound : Sound key nodes s) (known : x ∈ nodes)
    (enough : unmet key nodes s < fuel) :
    ∃ s', walk key children fuel depth s x = some s' ∧ Later key nodes s s' ∧
      key x ∈ s'.visited := by
  induction fuel generalizing depth s x with
  | zero => omega
  | succ fuel ih =>
    rw [walk]
    by_cases old : key x ∈ s.visited
    · rw [if_pos old]
      exact ⟨s, rfl, .refl sound, old⟩
    · rw [if_neg old]
      have entered := sound.enter known old depth
      have met : key x ∈ (s.enter key x depth).visited := mem_enter s x depth
      have fewer := entered.unmet_lt known old met
      obtain ⟨s', ran, later, -⟩ := foldlM_returns entered.sound fun child member t after => by
        have bound := after.unmet_le
        exact ih (depth + 1) after.sound (inside (key x) child member) (by omega)
      exact ⟨s', ran, entered.trans later, later.visited met⟩

end Ending

/-- The parents from an item up to one that has none. -/
def IsChain (parent : α → Option α) : α → List α → Prop
  | x, [] => parent x = none
  | x, p :: chain => parent x = some p ∧ IsChain parent p chain

section Chains
variable {parent : α → Option α} {x y : α} {chain other : List α}

lemma IsChain.unique (first : IsChain parent x chain) (second : IsChain parent x other) :
    chain = other := by
  induction chain generalizing x other with
  | nil =>
    cases other with
    | nil => rfl
    | cons q other => cases first.symm.trans second.1
  | cons p chain ih =>
    cases other with
    | nil => cases second.symm.trans first.1
    | cons q other =>
      have same : p = q := Option.some.inj (first.1.symm.trans second.1)
      subst same
      rw [ih first.2 second.2]

lemma IsChain.suffix (up : IsChain parent x chain) {front rest : List α}
    (split : chain = front ++ y :: rest) : IsChain parent y rest := by
  induction front generalizing x chain with
  | nil =>
    subst split
    exact up.2
  | cons p front ih =>
    subst split
    exact ih up.2 rfl

/-- The parents are different items, none of which is the item itself. -/
lemma IsChain.nodup (up : IsChain parent x chain) : (x :: chain).Nodup := by
  induction chain generalizing x with
  | nil => exact nodup_singleton x
  | cons p chain ih =>
    refine nodup_cons.mpr ⟨fun member => ?_, ih up.2⟩
    obtain ⟨front, rest, split⟩ := append_of_mem member
    have shorter := congrArg length split
    rw [(up.suffix split).unique up] at shorter
    simp at shorter
    omega

/-- The way up from an item leads through another one, whose chain is given. -/
def Below (parent : α → Option α) (x : α) (chain : List α) (y : α) : Prop :=
  ∃ other, IsChain parent y other ∧ x :: chain <:+ y :: other

lemma IsChain.below (up : IsChain parent x chain) : Below parent x chain x :=
  ⟨chain, up, suffix_rfl⟩

lemma Below.up {p : α} (under : Below parent x (p :: chain) y) : Below parent p chain y := by
  obtain ⟨other, up, suffix⟩ := under
  exact ⟨other, up, (suffix_cons x (p :: chain)).trans suffix⟩

lemma Below.unique {x' : α} (first : Below parent x chain y) (second : Below parent x' chain y) :
    x = x' := by
  obtain ⟨other, up, suffix⟩ := first
  obtain ⟨other', up', suffix'⟩ := second
  rw [up'.unique up] at suffix'
  have nested := suffix_of_suffix_length_le suffix suffix' (by simp)
  have same := nested.eq_of_length (by simp)
  exact (List.cons.inj same).1

lemma not_below_child {p : α} (up : IsChain parent p chain) :
    ¬ Below parent x (p :: chain) p := by
  rintro ⟨other, up', suffix⟩
  rw [up'.unique up] at suffix
  have shorter := suffix.length_le
  simp only [length_cons] at shorter
  omega

end Chains

/-- The rows of items at one depth, each followed by the rows of its children. -/
inductive Shape (key : α → κ) (children : κ → List α) : Nat → List α → List (Row α) → Prop
  | nil (depth : Nat) : Shape key children depth [] []
  | cons {depth : Nat} {x : α} {xs : List α} {inner rest : List (Row α)}
      (under : Shape key children (depth + 1) (children (key x)) inner)
      (after : Shape key children depth xs rest) :
      Shape key children depth (x :: xs) (⟨x, depth⟩ :: inner ++ rest)

section Shapes
variable {key : α → κ} {children : κ → List α} {depth : Nat} {x : α} {xs : List α}
  {rows : List (Row α)}

section
variable (shape : Shape key children depth xs rows)
include shape

lemma Shape.depth_le : ∀ row ∈ rows, depth ≤ row.depth := by
  induction shape with
  | nil => simp
  | cons under after deeper later =>
    intro row member
    rcases mem_append.mp member with here | rest
    · rcases mem_cons.mp here with rfl | inner
      · exact Nat.le_refl _
      · have bound := deeper row inner
        omega
    · exact later row rest

/-- The rows around an item and the rows of its children. -/
lemma Shape.split (member : x ∈ xs) :
    ∃ front inner back, rows = front ++ ⟨x, depth⟩ :: inner ++ back ∧
      Shape key children (depth + 1) (children (key x)) inner := by
  induction shape with
  | nil => cases member
  | @cons depth y xs inner rest under after deeper later =>
    rcases mem_cons.mp member with rfl | member
    · exact ⟨[], inner, rest, rfl, under⟩
    · obtain ⟨front, inner', back, split, shape⟩ := later member
      refine ⟨⟨y, depth⟩ :: inner ++ front, inner', back, ?_, shape⟩
      rw [split]
      simp

lemma Shape.sublist : (xs.map fun x => ⟨x, depth⟩).Sublist rows := by
  induction shape with
  | nil => exact nil_sublist _
  | cons under after deeper later =>
    apply Sublist.cons_cons
    exact later.trans (sublist_append_right _ _)

end

variable {parent : α → Option α} {nodes roots : List α} {chain : List α}

/-- Where the chain of an item ends, the item has a row at the depth of the chain. -/
lemma Shape.locate (shape : Shape key children 0 roots rows)
    (tops : ∀ y, y ∈ roots ↔ y ∈ nodes ∧ parent y = none)
    (kids : ∀ p ∈ nodes, ∀ y, y ∈ children (key p) ↔ y ∈ nodes ∧ parent y = some p)
    (parents : ∀ y p, parent y = some p → p ∈ nodes) (known : x ∈ nodes)
    (up : IsChain parent x chain) :
    ∃ front inner back, rows = front ++ ⟨x, chain.length⟩ :: inner ++ back ∧
      Shape key children (chain.length + 1) (children (key x)) inner := by
  induction chain generalizing x with
  | nil => exact shape.split ((tops x).mpr ⟨known, up⟩)
  | cons p chain ih =>
    have home := parents x p up.1
    obtain ⟨front, inner, back, split, under⟩ := ih home up.2
    obtain ⟨front', inner', back', split', under'⟩ :=
      under.split ((kids p home x).mpr ⟨known, up.1⟩)
    refine ⟨front ++ ⟨p, chain.length⟩ :: front', inner', back' ++ back, ?_, under'⟩
    rw [split, split']
    simp

end Shapes

section Outlines
variable [DecidableEq κ] {key : α → κ} {children : κ → List α} {nodes : List α}
  {parent : α → Option α} {s s' : Listing α κ} {x : α} {chain xs : List α} {depth : Nat}

/-- What a walk leaves when nothing below its items had been met. -/
structure Outlined (key : α → κ) (children : κ → List α) (nodes : List α) (parent : α → Option α)
    (depth : Nat) (xs chain : List α) (s s' : Listing α κ) : Prop where
  rows : ∃ more, s'.rows = s.rows ++ more ∧ Shape key children depth xs more
  visited : ∀ y ∈ nodes, key y ∈ s'.visited →
    key y ∈ s.visited ∨ ∃ x ∈ xs, Below parent x chain y

omit [DecidableEq κ] in
/-- The walk over the first item and the walks over the others. -/
lemma Outlined.cons {t : Listing α κ}
    (here : Outlined key children nodes parent depth [x] chain s t)
    (rest : Outlined key children nodes parent depth xs chain t s') :
    Outlined key children nodes parent depth (x :: xs) chain s s' where
  rows := by
    obtain ⟨first, rows, shape⟩ := here.rows
    obtain ⟨second, rows', shape'⟩ := rest.rows
    refine ⟨first ++ second, by rw [rows', rows, append_assoc], ?_⟩
    cases shape with
    | cons under none_ =>
      cases none_
      rw [append_nil]
      exact .cons under shape'
  visited := by
    intro y known met
    rcases rest.visited y known met with before | ⟨x', member, under⟩
    · rcases here.visited y known before with old | ⟨x', member, under⟩
      · exact .inl old
      · exact .inr ⟨x', mem_cons.mpr (.inl (mem_singleton.mp member)), under⟩
    · exact .inr ⟨x', mem_cons_of_mem x member, under⟩

omit [DecidableEq κ] in
lemma foldlM_outlined {f : Listing α κ → α → Option (Listing α κ)}
    (fresh : ∀ y ∈ nodes, (∃ x ∈ xs, Below parent x chain y) → key y ∉ s.visited)
    (distinct : xs.Nodup)
    (each : ∀ x ∈ xs, ∀ t t', (∀ y ∈ nodes, Below parent x chain y → key y ∉ t.visited) →
      f t x = some t' → Outlined key children nodes parent depth [x] chain t t')
    (ran : xs.foldlM f s = some s') :
    Outlined key children nodes parent depth xs chain s s' := by
  induction xs generalizing s with
  | nil =>
    cases ran
    exact ⟨⟨[], (append_nil _).symm, .nil depth⟩, fun y _ met => .inl met⟩
  | cons x xs ih =>
    rw [foldlM_cons] at ran
    obtain ⟨t, first, rest⟩ := Option.bind_eq_some_iff.mp ran
    have here := each x mem_cons_self s t
      (fun y known under => fresh y known ⟨x, mem_cons_self, under⟩) first
    obtain ⟨other, distinct'⟩ := nodup_cons.mp distinct
    refine here.cons (ih ?_ distinct' (fun y member => each y (mem_cons_of_mem x member)) rest)
    rintro y known ⟨x', member, under⟩ met
    rcases here.visited y known met with old | ⟨x₁, single, under₁⟩
    · exact fresh y known ⟨x', mem_cons_of_mem x member, under⟩ old
    · rw [mem_singleton.mp single] at under₁
      rw [under.unique under₁] at member
      exact other member

lemma walk_outlined (keys : (nodes.map key).Nodup)
    (kids : ∀ p ∈ nodes, ∀ y, y ∈ children (key p) ↔ y ∈ nodes ∧ parent y = some p)
    (apart : ∀ k, (children k).Nodup) {fuel : Nat} (known : x ∈ nodes)
    (up : IsChain parent x chain)
    (fresh : ∀ y ∈ nodes, Below parent x chain y → key y ∉ s.visited)
    (ran : walk key children fuel depth s x = some s') :
    Outlined key children nodes parent depth [x] chain s s' := by
  induction fuel generalizing depth s s' x chain with
  | zero => cases ran
  | succ fuel ih =>
    rw [walk, if_neg (fresh x known up.below)] at ran
    have inner : Outlined key children nodes parent (depth + 1) (children (key x)) (x :: chain)
        (s.enter key x depth) s' := by
      refine foldlM_outlined ?_ (apart (key x)) ?_ ran
      · rintro y home ⟨child, -, under⟩ met
        rcases mem_append.mp met with old | new
        · exact fresh y home under.up old
        · have same : y = x := inj_on_of_nodup_map keys home known (mem_singleton.mp new)
          subst same
          exact not_below_child up under
      · intro child member t t' fresh' ran'
        obtain ⟨home, named⟩ := (kids x known child).mp member
        exact ih home ⟨named, up⟩ fresh' ran'
    obtain ⟨more, rows, shape⟩ := inner.rows
    refine ⟨⟨⟨x, depth⟩ :: more ++ [], ?_, .cons shape (.nil depth)⟩, ?_⟩
    · rw [rows]
      simp [Listing.enter]
    · intro y home met
      rcases inner.visited y home met with entered | ⟨child, -, under⟩
      · rcases mem_append.mp entered with old | new
        · exact .inl old
        · have same : y = x := inj_on_of_nodup_map keys home known (mem_singleton.mp new)
          exact .inr ⟨x, mem_singleton_self x, same ▸ up.below⟩
      · exact .inr ⟨x, mem_singleton_self x, under.up⟩

end Outlines

end Outline
