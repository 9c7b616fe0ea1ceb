import KKTerm.Library.ParentTree
import Mathlib.Data.List.Chain

/-!
# Work that is left on a stack

A loop pops the last piece of work from a stack. Doing it changes the state and may push
more work. `Clears` says what a stack comes to, piece by piece, without counting turns;
the loop with its bound on the turns comes to the same.
-/

namespace Worklist

universe u v
variable {W : Type u} {S : Type v} (act : W → S → List W × S)

/-- The loop, for so many turns at most. The first piece is on top of the stack. -/
def drain : Nat → List W → S → Option S
  | _, [], s => some s
  | 0, _ :: _, _ => none
  | turns + 1, w :: pending, s => drain turns ((act w s).1 ++ pending) (act w s).2

/-- The stack is emptied, with these states before and after. -/
inductive Clears : List W → S → S → Prop where
  | done (s : S) : Clears [] s s
  | turn {w : W} {pending : List W} {s t u : S} (inner : Clears (act w s).1 (act w s).2 t)
      (later : Clears pending t u) : Clears (w :: pending) s u

variable {act} {first second pending : List W} {s t u : S}

lemma Clears.append (front : Clears act first s t) (back : Clears act second t u) :
    Clears act (first ++ second) s u := by
  induction front with
  | done => exact back
  | turn inner _ _ ih => exact .turn inner (ih back)

lemma Clears.single {w : W} (inner : Clears act (act w s).1 (act w s).2 t) : Clears act [w] s t :=
  .turn inner (.done t)

lemma drain_nil (turns : Nat) : drain act turns [] s = some s := by
  cases turns with
  | zero => rfl
  | succ turns => rfl

/-- A stack that is emptied is emptied in some number of turns, whatever lies below it. -/
lemma Clears.drain_append (cleared : Clears act first s t) :
    ∃ used, ∀ turns pending,
      drain act (used + turns) (first ++ pending) s = drain act turns pending t := by
  induction cleared with
  | done =>
    refine ⟨0, fun turns pending => ?_⟩
    simp
  | @turn w rest s t u inner later ihInner ihLater =>
    obtain ⟨inside, inner⟩ := ihInner
    obtain ⟨after, later⟩ := ihLater
    refine ⟨inside + after + 1, fun turns pending => ?_⟩
    have split : inside + after + 1 + turns = (inside + (after + turns)) + 1 := by omega
    rw [split, List.cons_append, drain, inner, later]

lemma Clears.drain (cleared : Clears act pending s t) :
    ∃ used, ∀ turns, used ≤ turns → drain act turns pending s = some t := by
  obtain ⟨used, clears⟩ := cleared.drain_append
  refine ⟨used, fun turns enough => ?_⟩
  have whole := clears (turns - used) []
  rw [List.append_nil, drain_nil] at whole
  rw [← whole]
  congr 1
  omega

end Worklist

/-!
# Depth-first search

A graph gives the successors of a node. One search paints nodes while they are on the
stack and when they are done, and stops at a cycle; the other lists each node after what
it depends on. Both need no more fuel than there are nodes.
-/

namespace DepthFirst

open ParentLinks Relation List Function

universe u
variable {α : Type u}

def Edge (succ : α → List α) (a b : α) : Prop :=
  b ∈ succ a

/-- A path along edges that ends where it begins. -/
def IsCycle (succ : α → List α) (path : List α) : Prop :=
  path.IsChain (Edge succ) ∧ ∃ x mid, path = x :: mid ++ [x]

variable {succ : α → List α}

lemma IsCycle.not_acyclic {path : List α} (cycle : IsCycle succ path) :
    ¬ Acyclic (Edge succ) := by
  obtain ⟨chain, x, mid, rfl⟩ := cycle
  intro acyclic
  cases mid with
  | nil => exact acyclic x (.single (isChain_pair.mp chain))
  | cons y mid =>
    obtain ⟨first, rest⟩ := isChain_cons_cons.mp chain
    refine acyclic x (.head' first ?_)
    refine relationReflTransGen_of_exists_isChain_cons (mid ++ [x]) rest ?_
    simp

/-- The nodes that lead to no cycle when all successors of a node are known. -/
lemma Closed.reaches {P : α → Prop} (closed : ∀ x, P x → ∀ y ∈ succ x, P y) {x y : α}
    (start : P x) (path : ReflTransGen (Edge succ) x y) : P y := by
  induction path with
  | refl => exact start
  | tail _ edge ih => exact closed _ ih _ edge

inductive Color where
  | white
  | gray
  | black
  deriving DecidableEq

structure Search (α : Type u) where
  color : α → Color
  stack : List α

open Search

inductive Stop (α : Type u) where
  | cycle (path : List α)
  | outOfFuel
  deriving DecidableEq

section Painting
variable {succ : α → List α}

def Search.start : Search α :=
  ⟨fun _ => .white, []⟩

/-- Gray nodes are a path, and what is done leads to no cycle. -/
structure Ordered (succ : α → List α) (s : Search α) : Prop where
  gray : ∀ x, s.color x = .gray ↔ x ∈ s.stack
  distinct : s.stack.Nodup
  chain : s.stack.IsChain (Edge succ)
  closed : ∀ x, s.color x = .black → ∀ y ∈ succ x, s.color y = .black
  acyclic : ∀ x, s.color x = .black → ¬ TransGen (Edge succ) x x

/-- What a search changes: white nodes become black. -/
structure Later (succ : α → List α) (s s' : Search α) : Prop where
  ordered : Ordered succ s'
  stack : s'.stack = s.stack
  black : ∀ x, s.color x = .black → s'.color x = .black
  white : ∀ x, s'.color x = .white → s.color x = .white

def whites (nodes : Finset α) (s : Search α) : Nat :=
  (nodes.filter (fun x => s.color x = .white)).card

/-- A search ends with the given nodes done, or at a cycle. -/
def Outcome (succ : α → List α) (s : Search α) (done : List α) :
    Except (Stop α) (Search α) → Prop
  | .ok s' => Later succ s s' ∧ ∀ x ∈ done, s'.color x = .black
  | .error (.cycle path) => IsCycle succ path
  | .error .outOfFuel => False

variable {s s' : Search α} {nodes : Finset α} {x y : α}

lemma ordered_start : Ordered succ (Search.start : Search α) where
  gray _ := ⟨nofun, fun member => absurd member not_mem_nil⟩
  distinct := .nil
  chain := .nil
  closed _ black := nomatch black
  acyclic _ black := nomatch black

lemma Later.refl (ordered : Ordered succ s) : Later succ s s :=
  ⟨ordered, rfl, fun _ h => h, fun _ h => h⟩

lemma Later.trans {s'' : Search α} (first : Later succ s s') (second : Later succ s' s'') :
    Later succ s s'' where
  ordered := second.ordered
  stack := second.stack.trans first.stack
  black x h := second.black x (first.black x h)
  white x h := first.white x (second.white x h)

lemma Later.whites_le (later : Later succ s s') : whites nodes s' ≤ whites nodes s := by
  refine Finset.card_le_card (fun x member => ?_)
  obtain ⟨inside, white⟩ := Finset.mem_filter.mp member
  exact Finset.mem_filter.mpr ⟨inside, later.white x white⟩

/-- The loop over successors, when every search from one of them ends as it should. -/
lemma foldlM_outcome {f : Search α → α → Except (Stop α) (Search α)} {xs : List α} (s : Search α)
    (ordered : Ordered succ s)
    (each : ∀ x ∈ xs, ∀ s', Later succ s s' → Outcome succ s' [x] (f s' x)) :
    Outcome succ s xs (xs.foldlM f s) := by
  induction xs generalizing s with
  | nil => exact ⟨.refl ordered, fun x member => absurd member not_mem_nil⟩
  | cons x xs ih =>
    have first := each x mem_cons_self s (.refl ordered)
    rw [foldlM_cons]
    cases result : f s x with
    | error stop =>
      rw [result] at first
      cases stop with
      | cycle path => exact first
      | outOfFuel => exact first
    | ok s₁ =>
      rw [result] at first
      obtain ⟨later, done⟩ := first
      have rest := ih s₁ later.ordered (fun y member s' after =>
        each y (mem_cons_of_mem x member) s' (later.trans after))
      change Outcome succ s (x :: xs) (xs.foldlM f s₁)
      cases ended : xs.foldlM f s₁ with
      | error stop =>
        rw [ended] at rest
        cases stop with
        | cycle path => exact rest
        | outOfFuel => exact rest
      | ok s₂ =>
        rw [ended] at rest
        refine ⟨later.trans rest.1, forall_mem_cons.mpr ⟨?_, rest.2⟩⟩
        exact rest.1.black x (done x (mem_singleton.mpr rfl))

variable [DecidableEq α]

def Search.enter (s : Search α) (x : α) : Search α :=
  ⟨Function.update s.color x .gray, s.stack ++ [x]⟩

def Search.leave (s : Search α) (x : α) : Search α :=
  ⟨Function.update s.color x .black, s.stack.dropLast⟩

/-- The stack from a node on, and that node again. -/
def Search.cut (s : Search α) (x : α) : List α :=
  s.stack.drop ((s.stack.idxOf? x).getD 0) ++ [x]

def search (succ : α → List α) : Nat → Search α → α → Except (Stop α) (Search α)
  | 0, _, _ => .error .outOfFuel
  | fuel + 1, s, x =>
    match s.color x with
    | .black => .ok s
    | .gray => .error (.cycle (s.cut x))
    | .white => do
      let s ← (succ x).foldlM (search succ fuel) (s.enter x)
      .ok (s.leave x)

/-- The search from every root, each with a stack of its own. -/
def searchAll (succ : α → List α) (fuel : Nat) (roots : List α) : Except (Stop α) (Search α) :=
  roots.foldlM (fun s x => search succ fuel ⟨s.color, []⟩ x) .start

@[simp] lemma enter_self : (s.enter x).color x = .gray :=
  update_self ..

@[simp] lemma enter_of_ne (other : y ≠ x) : (s.enter x).color y = s.color y :=
  update_of_ne other ..

@[simp] lemma leave_self : (s.leave x).color x = .black :=
  update_self ..

@[simp] lemma leave_of_ne (other : y ≠ x) : (s.leave x).color y = s.color y :=
  update_of_ne other ..

lemma cut_isCycle (ordered : Ordered succ s) (gray : s.color x = .gray)
    (chain : (s.stack ++ [x]).IsChain (Edge succ)) : IsCycle succ (s.cut x) := by
  have member := (ordered.gray x).mp gray
  obtain ⟨i, found⟩ : ∃ i, s.stack.idxOf? x = some i := by
    refine Option.isSome_iff_exists.mp ?_
    rw [isSome_idxOf?]
    exact member
  obtain ⟨bound, at_i, -⟩ := idxOf?_eq_some_iff.mp found
  rw [cut, found, Option.getD_some]
  have split : s.stack.drop i = x :: s.stack.drop (i + 1) := by
    rw [drop_eq_getElem_cons bound, at_i]
  refine ⟨?_, x, s.stack.drop (i + 1), by rw [split]⟩
  rw [← drop_append_of_le_length bound.le]
  exact chain.drop i

lemma ordered_enter (ordered : Ordered succ s) (white : s.color x = .white)
    (chain : (s.stack ++ [x]).IsChain (Edge succ)) : Ordered succ (s.enter x) := by
  have fresh : x ∉ s.stack := by
    intro member
    cases white.symm.trans ((ordered.gray x).mpr member)
  have old : ∀ y, (s.enter x).color y = .black → s.color y = .black := by
    intro y black
    by_cases same : y = x
    · subst same
      rw [enter_self] at black
      cases black
    · rw [enter_of_ne same] at black
      exact black
  refine ⟨fun y => ?_, ?_, chain, fun y black z edge => ?_, fun y black => ?_⟩
  · by_cases same : y = x
    · subst same
      simp [enter]
    · rw [enter_of_ne same, ordered.gray y]
      simp [enter, same]
  · refine nodup_append.mpr ⟨ordered.distinct, nodup_singleton x, ?_⟩
    rintro a member b single rfl
    exact fresh (mem_singleton.mp single ▸ member)
  · have done := ordered.closed y (old y black) z edge
    have other : z ≠ x := by
      rintro rfl
      cases white.symm.trans done
    rw [enter_of_ne other]
    exact done
  · exact ordered.acyclic y (old y black)

/-- A node whose successors are all done is done, and lies on no cycle. -/
lemma later_leave (white : s.color x = .white) (later : Later succ (s.enter x) s')
    (done : ∀ y ∈ succ x, s'.color y = .black) (ordered : Ordered succ s) :
    Later succ s (s'.leave x) := by
  have stack : s'.stack = s.stack ++ [x] := later.stack
  have fresh : x ∉ s.stack := by
    intro member
    cases white.symm.trans ((ordered.gray x).mpr member)
  have gray : s'.color x = .gray := (later.ordered.gray x).mpr (by simp [stack])
  have black : ∀ y, s'.color y = .black → (s'.leave x).color y = .black := by
    intro y h
    by_cases same : y = x
    · rw [same, leave_self]
    · rw [leave_of_ne same]
      exact h
  have back : ∀ y, (s'.leave x).color y = .black → y = x ∨ s'.color y = .black := by
    intro y h
    by_cases same : y = x
    · exact .inl same
    · rw [leave_of_ne same] at h
      exact .inr h
  refine ⟨⟨fun y => ?_, ?_, ?_, fun y h z edge => ?_, fun y h cycle => ?_⟩, ?_, fun y h => ?_,
    fun y h => ?_⟩
  · have popped : (s'.leave x).stack = s.stack := by simp [leave, stack]
    rw [popped]
    by_cases same : y = x
    · subst same
      rw [leave_self]
      exact ⟨nofun, fun member => absurd member fresh⟩
    · rw [leave_of_ne same, later.ordered.gray y, stack]
      simp [same]
  · simp only [leave, stack, dropLast_concat]
    exact ordered.distinct
  · simp only [leave, stack, dropLast_concat]
    exact ordered.chain
  · rcases back y h with rfl | h
    · exact black z (done z edge)
    · exact black z (later.ordered.closed y h z edge)
  · rcases back y h with rfl | h
    · -- from its successors on, everything was black while the node was gray
      obtain ⟨z, edge, path⟩ := TransGen.head'_iff.mp cycle
      have reached := Closed.reaches later.ordered.closed (done z edge) path
      cases gray.symm.trans reached
    · exact later.ordered.acyclic y h cycle
  · simp [leave, stack]
  · have other : y ≠ x := by
      rintro rfl
      cases white.symm.trans h
    exact black y (later.black y (by rwa [enter_of_ne other]))
  · have other : y ≠ x := by
      rintro rfl
      rw [leave_self] at h
      cases h
    rw [leave_of_ne other] at h
    have before := later.white y h
    rwa [enter_of_ne other] at before

lemma whites_enter (inside : x ∈ nodes) (white : s.color x = .white) :
    whites nodes (s.enter x) < whites nodes s := by
  refine Finset.card_lt_card (Finset.ssubset_iff_of_subset ?_ |>.mpr ?_)
  · intro y member
    obtain ⟨known, still⟩ := Finset.mem_filter.mp member
    have other : y ≠ x := by
      rintro rfl
      rw [enter_self] at still
      cases still
    rw [enter_of_ne other] at still
    exact Finset.mem_filter.mpr ⟨known, still⟩
  · refine ⟨x, Finset.mem_filter.mpr ⟨inside, white⟩, fun member => ?_⟩
    have still := (Finset.mem_filter.mp member).2
    rw [enter_self] at still
    cases still

lemma search_outcome (inside : ∀ x ∈ nodes, ∀ y ∈ succ x, y ∈ nodes) (fuel : Nat) (s : Search α)
    (x : α) (known : x ∈ nodes) (ordered : Ordered succ s)
    (chain : (s.stack ++ [x]).IsChain (Edge succ)) (enough : whites nodes s < fuel) :
    Outcome succ s [x] (search succ fuel s x) := by
  induction fuel generalizing s x with
  | zero => exact absurd enough (Nat.not_lt_zero _)
  | succ fuel ih =>
    rw [search]
    cases color : s.color x with
    | black =>
      refine ⟨.refl ordered, fun y member => ?_⟩
      rw [mem_singleton.mp member, color]
    | gray => exact cut_isCycle ordered color chain
    | white =>
      have entered := ordered_enter ordered color chain
      have fewer := whites_enter known color
      have each : ∀ y ∈ succ x, ∀ s', Later succ (s.enter x) s' →
          Outcome succ s' [y] (search succ fuel s' y) := by
        intro y edge s' later
        refine ih s' y (inside x known y edge) later.ordered ?_ ?_
        · rw [later.stack]
          refine chain.append (.singleton y) ?_
          intro a last b first
          simp only [getLast?_concat, Option.mem_def, Option.some.injEq, head?_cons] at last first
          rw [← last, ← first]
          exact edge
        · have fewer' : whites nodes s' ≤ whites nodes (s.enter x) := later.whites_le
          omega
      have loop := foldlM_outcome (s.enter x) entered each
      simp only
      cases ended : (succ x).foldlM (search succ fuel) (s.enter x) with
      | error stop =>
        rw [ended] at loop
        cases stop with
        | cycle path => exact loop
        | outOfFuel => exact loop
      | ok s' =>
        rw [ended] at loop
        refine ⟨later_leave color loop.1 loop.2 ordered, fun y member => ?_⟩
        rw [mem_singleton.mp member]
        exact leave_self

variable {fuel : Nat} {roots : List α}

lemma searchAll_outcome (inside : ∀ x, ∀ y ∈ succ x, y ∈ roots)
    (enough : roots.toFinset.card < fuel) :
    Outcome succ .start roots (searchAll succ fuel roots) := by
  refine foldlM_outcome .start ordered_start (fun x root s later => ?_)
  have empty : s.stack = [] := later.stack
  have same : (⟨s.color, []⟩ : Search α) = s := by rw [← empty]
  have few : whites roots.toFinset s ≤ roots.toFinset.card := Finset.card_filter_le _ _
  simp only [same]
  refine search_outcome (fun y _ z edge => ?_) fuel s x
    (mem_toFinset.mpr root) later.ordered ?_ (by omega)
  · exact mem_toFinset.mpr (inside y z edge)
  · rw [empty]
    exact .singleton x

/-- The search succeeds when there is no cycle, and otherwise shows one. -/
lemma searchAll_ok_iff (inside : ∀ x, ∀ y ∈ succ x, y ∈ roots)
    (outside : ∀ x, x ∉ roots → succ x = []) (enough : roots.toFinset.card < fuel) :
    (∃ s, searchAll succ fuel roots = .ok s) ↔ Acyclic (Edge succ) := by
  have outcome : Outcome succ .start roots _ := searchAll_outcome inside enough
  cases result : searchAll succ fuel roots with
  | error stop =>
    rw [result] at outcome
    refine ⟨nofun, fun acyclic => ?_⟩
    cases stop with
    | cycle path => exact absurd acyclic outcome.not_acyclic
    | outOfFuel => exact outcome.elim
  | ok s =>
    rw [result] at outcome
    refine ⟨fun _ x cycle => ?_, fun _ => ⟨s, rfl⟩⟩
    by_cases root : x ∈ roots
    · exact outcome.1.ordered.acyclic x (outcome.2 x root) cycle
    · obtain ⟨y, edge, -⟩ := TransGen.head'_iff.mp cycle
      rw [Edge, outside x root] at edge
      exact absurd edge not_mem_nil

end Painting

structure Listing (α : Type u) where
  seen : List α
  order : List α

section Listing
variable [DecidableEq α]

/-- A node that is not in the graph is not listed. -/
def visit (next : α → Option (List α)) : Nat → Listing α → α → Option (Listing α)
  | 0, _, _ => none
  | fuel + 1, s, x =>
    if x ∈ s.seen then some s
    else
      match next x with
      | none => some ⟨x :: s.seen, s.order⟩
      | some ys => do
        let s ← ys.foldlM (visit next fuel) ⟨x :: s.seen, s.order⟩
        some ⟨s.seen, s.order ++ [x]⟩

end Listing

def Leads (next : α → Option (List α)) (a b : α) : Prop :=
  ∃ ys, next a = some ys ∧ b ∈ ys

lemma Leads.ne_none {next : α → Option (List α)} {a b : α} (leads : Leads next a b) :
    next a ≠ none := by
  obtain ⟨ys, at_a, -⟩ := leads
  rw [at_a]
  exact nofun

lemma ne_none_of_path {next : α → Option (List α)} {a b : α}
    (path : ReflTransGen (Leads next) a b) (inside : next b ≠ none) : next a ≠ none := by
  rcases ReflTransGen.cases_head path with same | ⟨c, leads, -⟩
  · exact same ▸ inside
  · exact leads.ne_none

def Before (order : List α) (y x : α) : Prop :=
  ∃ front back, order = front ++ x :: back ∧ y ∈ front

variable {order : List α} {y : α} {nodes : Finset α}

lemma Before.append {x : α} (before : Before order y x) (more : List α) :
    Before (order ++ more) y x := by
  obtain ⟨front, back, rfl, member⟩ := before
  exact ⟨front, back ++ more, by simp, member⟩

lemma before_concat (member : y ∈ order) (x : α) : Before (order ++ [x]) y x :=
  ⟨order, [], rfl, member⟩

/-- Nodes are seen before they are listed; the others that are seen are being visited. -/
structure Listed (next : α → Option (List α)) (visiting : List α) (s : Listing α) : Prop where
  seen : ∀ x ∈ s.order, x ∈ s.seen
  known : ∀ x ∈ s.order, next x ≠ none
  distinct : s.order.Nodup
  done : ∀ x ∈ s.seen, next x ≠ none → x ∈ s.order ∨ x ∈ visiting
  apart : ∀ x ∈ visiting, x ∈ s.seen ∧ x ∉ s.order
  closed : ∀ x ∈ s.order, ∀ y, Leads next x y → y ∈ s.seen
  ordered : ∀ x ∈ s.order, ∀ y, Leads next x y → next y ≠ none →
    Before s.order y x ∨ ReflTransGen (Leads next) y x

/-- What visits from nodes that a given one leads to change. -/
structure Grown (next : α → Option (List α)) (visiting : List α) (x : α) (s s' : Listing α) :
    Prop where
  listed : Listed next visiting s'
  seen : s.seen ⊆ s'.seen
  order : s.order <+: s'.order
  reached : ∀ y ∈ s'.seen, y ∈ s.seen ∨ ReflTransGen (Leads next) x y

variable {next : α → Option (List α)} {visiting : List α} {s s' : Listing α} {x : α}

lemma Grown.refl (listed : Listed next visiting s) (x : α) : Grown next visiting x s s :=
  ⟨listed, Subset.refl _, prefix_rfl, fun _ member => Or.inl member⟩

lemma Grown.trans {s'' : Listing α} (first : Grown next visiting x s s')
    (second : Grown next visiting x s' s'') : Grown next visiting x s s'' where
  listed := second.listed
  seen := Subset.trans first.seen second.seen
  order := first.order.trans second.order
  reached y member := by
    rcases second.reached y member with before | new
    · exact first.reached y before
    · exact .inr new

lemma Grown.from_ {z : α} (grown : Grown next visiting x s s')
    (leads : ReflTransGen (Leads next) z x) : Grown next visiting z s s' :=
  ⟨grown.listed, grown.seen, grown.order, fun y member => (grown.reached y member).imp id leads.trans⟩

lemma foldlM_grown {f : Listing α → α → Option (Listing α)} {xs : List α} (x : α)
    (listed : Listed next visiting s)
    (each : ∀ y ∈ xs, ∀ s', Grown next visiting x s s' →
      ∃ s'', f s' y = some s'' ∧ Grown next visiting x s' s'' ∧ y ∈ s''.seen) :
    ∃ s', xs.foldlM f s = some s' ∧ Grown next visiting x s s' ∧ ∀ y ∈ xs, y ∈ s'.seen := by
  induction xs generalizing s with
  | nil => exact ⟨s, rfl, .refl listed x, fun y member => absurd member not_mem_nil⟩
  | cons y xs ih =>
    obtain ⟨s₁, ran, grown, seen⟩ := each y mem_cons_self s (.refl listed x)
    obtain ⟨s₂, ran₂, grown₂, seen₂⟩ := ih grown.listed (fun z member s' later =>
      each z (mem_cons_of_mem y member) s' (grown.trans later))
    refine ⟨s₂, ?_, grown.trans grown₂, forall_mem_cons.mpr ⟨grown₂.seen seen, seen₂⟩⟩
    rw [foldlM_cons, ran]
    exact ran₂

lemma listed_enter (listed : Listed next visiting s) (fresh : x ∉ s.seen) :
    Listed next (x :: visiting) ⟨x :: s.seen, s.order⟩ where
  seen y member := mem_cons_of_mem x (listed.seen y member)
  known := listed.known
  distinct := listed.distinct
  done y member inside := by
    rcases mem_cons.mp member with rfl | before
    · exact .inr mem_cons_self
    · exact (listed.done y before inside).imp id (mem_cons_of_mem x)
  apart y member := by
    rcases mem_cons.mp member with rfl | before
    · exact ⟨mem_cons_self, fun listed_ => fresh (listed.seen y listed_)⟩
    · exact ⟨mem_cons_of_mem x (listed.apart y before).1, (listed.apart y before).2⟩
  closed y member z leads := mem_cons_of_mem x (listed.closed y member z leads)
  ordered := listed.ordered

lemma listed_leave (listed : Listed next (x :: visiting) s') (fresh : x ∉ visiting)
    (inside : next x ≠ none) (all : ∀ y, Leads next x y → y ∈ s'.seen)
    (ancestors : ∀ a ∈ visiting, ReflTransGen (Leads next) a x) :
    Listed next visiting ⟨s'.seen, s'.order ++ [x]⟩ where
  seen y member := by
    rcases mem_append.mp member with before | last
    · exact listed.seen y before
    · rw [mem_singleton.mp last]
      exact (listed.apart x mem_cons_self).1
  known y member := by
    rcases mem_append.mp member with before | last
    · exact listed.known y before
    · rw [mem_singleton.mp last]
      exact inside
  distinct := by
    refine nodup_append.mpr ⟨listed.distinct, nodup_singleton x, ?_⟩
    rintro a member b single rfl
    exact (listed.apart x mem_cons_self).2 (mem_singleton.mp single ▸ member)
  done y member in_graph := by
    rcases listed.done y member in_graph with before | visited
    · exact .inl (mem_append_left _ before)
    · rcases mem_cons.mp visited with rfl | above
      · exact .inl (mem_append_right _ (mem_singleton.mpr rfl))
      · exact .inr above
  apart y member := by
    obtain ⟨seen, unlisted⟩ := listed.apart y (mem_cons_of_mem x member)
    refine ⟨seen, fun listed_ => ?_⟩
    rcases mem_append.mp listed_ with before | last
    · exact unlisted before
    · exact fresh (mem_singleton.mp last ▸ member)
  closed y member z leads := by
    rcases mem_append.mp member with before | last
    · exact listed.closed y before z leads
    · rw [mem_singleton.mp last] at leads
      exact all z leads
  ordered y member z leads in_graph := by
    rcases mem_append.mp member with before | last
    · exact (listed.ordered y before z leads in_graph).imp (fun h => h.append [x]) id
    · rw [mem_singleton.mp last] at leads ⊢
      -- what is seen and not listed yet is the node itself or above it
      rcases listed.done z (all z leads) in_graph with before | visited
      · exact .inl (before_concat before x)
      · rcases mem_cons.mp visited with rfl | above
        · exact .inr .refl
        · exact .inr (ancestors z above)

lemma visit_grown [DecidableEq α] (inside : ∀ x ∈ nodes, ∀ y, Leads next x y → y ∈ nodes)
    (fuel : Nat) {s : Listing α} {x : α} {visiting : List α} (known : x ∈ nodes)
    (listed : Listed next visiting s) (ancestors : ∀ a ∈ visiting, ReflTransGen (Leads next) a x)
    (enough : (nodes \ s.seen.toFinset).card < fuel) :
    ∃ s', visit next fuel s x = some s' ∧ Grown next visiting x s s' ∧ x ∈ s'.seen ∧
      (x ∉ s.seen → next x ≠ none → ∃ front, s'.order = front ++ [x]) := by
  induction fuel generalizing s x visiting with
  | zero => exact absurd enough (Nat.not_lt_zero _)
  | succ fuel ih =>
    rw [visit]
    by_cases seen : x ∈ s.seen
    · rw [if_pos seen]
      exact ⟨s, rfl, .refl listed x, seen, fun fresh => absurd seen fresh⟩
    · rw [if_neg seen]
      have entered := listed_enter listed seen
      have unvisited : x ∉ visiting := fun above => seen (listed.apart x above).1
      cases at_x : next x with
      | none =>
        refine ⟨_, rfl, ⟨⟨entered.seen, entered.known, entered.distinct, ?_, ?_, entered.closed,
          entered.ordered⟩, subset_cons_self x _, prefix_rfl, ?_⟩, mem_cons_self,
          fun _ in_graph => absurd rfl in_graph⟩
        · intro y member in_graph
          rcases mem_cons.mp member with rfl | before
          · exact absurd at_x in_graph
          · exact listed.done y before in_graph
        · exact fun y member => entered.apart y (mem_cons_of_mem x member)
        · intro y member
          rcases mem_cons.mp member with rfl | before
          · exact .inr .refl
          · exact .inl before
      | some ys =>
        have fewer : (nodes \ (x :: s.seen).toFinset).card < fuel := by
          have less : (nodes \ (x :: s.seen).toFinset).card < (nodes \ s.seen.toFinset).card := by
            refine Finset.card_lt_card (Finset.ssubset_iff_of_subset ?_ |>.mpr ?_)
            · intro y member
              obtain ⟨node, fresh⟩ := Finset.mem_sdiff.mp member
              refine Finset.mem_sdiff.mpr ⟨node, fun old => fresh ?_⟩
              rw [toFinset_cons]
              exact Finset.mem_insert_of_mem old
            · refine ⟨x, Finset.mem_sdiff.mpr ⟨known, fun old => seen (mem_toFinset.mp old)⟩, ?_⟩
              intro member
              refine (Finset.mem_sdiff.mp member).2 ?_
              rw [toFinset_cons]
              exact Finset.mem_insert_self _ _
          omega
        have each : ∀ y ∈ ys, ∀ s₁, Grown next (x :: visiting) x ⟨x :: s.seen, s.order⟩ s₁ →
            ∃ s₂, visit next fuel s₁ y = some s₂ ∧ Grown next (x :: visiting) x s₁ s₂ ∧
              y ∈ s₂.seen := by
          intro y edge s₁ later
          have leads : Leads next x y := ⟨ys, at_x, edge⟩
          have above : ∀ a ∈ x :: visiting, ReflTransGen (Leads next) a y := by
            refine forall_mem_cons.mpr ⟨.single leads, fun a member => ?_⟩
            exact (ancestors a member).tail leads
          have left : (nodes \ s₁.seen.toFinset).card < fuel := by
            refine Nat.lt_of_le_of_lt (Finset.card_le_card ?_) fewer
            refine Finset.sdiff_subset_sdiff (Finset.Subset.refl _) (fun z member => ?_)
            exact mem_toFinset.mpr (later.seen (mem_toFinset.mp member))
          obtain ⟨s₂, ran, grown, seen₂, -⟩ := ih (inside x known y leads) later.listed above left
          exact ⟨s₂, ran, grown.from_ (.single leads), seen₂⟩
        obtain ⟨s', ran, grown, all⟩ := foldlM_grown x entered each
        have all' : ∀ y, Leads next x y → y ∈ s'.seen := by
          rintro y ⟨ys', same, edge⟩
          cases at_x.symm.trans same
          exact all y edge
        have in_graph : next x ≠ none := by
          rw [at_x]
          exact nofun
        refine ⟨⟨s'.seen, s'.order ++ [x]⟩, ?_, ⟨listed_leave grown.listed unvisited in_graph all'
          ancestors, ?_, grown.order.trans (prefix_append _ _), ?_⟩,
          grown.seen mem_cons_self, fun _ _ => ⟨s'.order, rfl⟩⟩
        · simp only [ran]
          rfl
        · exact Subset.trans (subset_cons_self x s.seen) grown.seen
        · intro y member
          rcases grown.reached y member with before | new
          · rcases mem_cons.mp before with rfl | before
            · exact .inr .refl
            · exact .inl before
          · exact .inr new

/-- An order of all that a node leads to, each node after what it leads to unless that leads
back to it. -/
structure Plan (next : α → Option (List α)) (root : α) (order : List α) : Prop where
  distinct : order.Nodup
  last : next root ≠ none → ∃ front, order = front ++ [root]
  mem : ∀ x, x ∈ order ↔ next x ≠ none ∧ ReflTransGen (Leads next) root x
  ordered : ∀ x ∈ order, ∀ y, Leads next x y → next y ≠ none →
    Before order y x ∨ ReflTransGen (Leads next) y x

variable {root : α}

lemma listed_start : Listed next [] ⟨[], []⟩ where
  seen _ member := absurd member not_mem_nil
  known _ member := absurd member not_mem_nil
  distinct := .nil
  done _ member := absurd member not_mem_nil
  apart _ member := absurd member not_mem_nil
  closed _ member := absurd member not_mem_nil
  ordered _ member := absurd member not_mem_nil

lemma visit_plan [DecidableEq α] (inside : ∀ x ∈ nodes, ∀ y, Leads next x y → y ∈ nodes)
    (known : root ∈ nodes) {fuel : Nat} (enough : nodes.card < fuel) :
    ∃ s, visit next fuel ⟨[], []⟩ root = some s ∧ Plan next root s.order := by
  have few : (nodes \ ([] : List α).toFinset).card < fuel := by
    rw [toFinset_nil, Finset.sdiff_empty]
    exact enough
  obtain ⟨s, ran, grown, seen, last⟩ := visit_grown inside fuel known listed_start
    (fun a above => absurd above not_mem_nil) few
  have listed := grown.listed
  have in_order : ∀ x ∈ s.seen, next x ≠ none → x ∈ s.order := fun x member in_graph =>
    (listed.done x member in_graph).resolve_right not_mem_nil
  refine ⟨s, ran, listed.distinct, last not_mem_nil, fun x => ⟨fun member => ?_, ?_⟩,
    listed.ordered⟩
  · refine ⟨listed.known x member, ?_⟩
    exact (grown.reached x (listed.seen x member)).resolve_left not_mem_nil
  · rintro ⟨in_graph, path⟩
    refine in_order x ?_ in_graph
    clear in_graph
    induction path with
    | refl => exact seen
    | @tail a b path leads ih => exact listed.closed a (in_order a ih leads.ne_none) b leads

/-- Each node after all that it leads to. -/
def DependencyFirst (next : α → Option (List α)) (order : List α) : Prop :=
  ∀ x ∈ order, ∀ y, Leads next x y → next y ≠ none → Before order y x

lemma Before.idxOf_lt [DecidableEq α] (distinct : order.Nodup) (before : Before order y x) :
    order.idxOf y < order.idxOf x := by
  obtain ⟨front, back, rfl, member⟩ := before
  have fresh : x ∉ front := by
    intro old
    exact (nodup_append.mp distinct).2.2 x old x mem_cons_self rfl
  rw [idxOf_append_of_mem member, idxOf_append_of_notMem fresh, idxOf_cons_self, Nat.add_zero]
  exact idxOf_lt_length_of_mem member

/-- A plan is dependency-first when nothing in it leads back to what it is needed by. -/
lemma Plan.dependencyFirst_iff [DecidableEq α] (plan : Plan next root order) :
    DependencyFirst next order ↔
      ∀ x ∈ order, ∀ y, Leads next x y → ¬ ReflTransGen (Leads next) y x := by
  constructor
  · intro first x member y leads back
    have in_graph := ((plan.mem x).mp member).1
    -- positions only fall along a path
    have falls : ∀ z, ReflTransGen (Leads next) z x → ReflTransGen (Leads next) root z →
        order.idxOf x ≤ order.idxOf z := by
      intro z path
      induction path using ReflTransGen.head_induction_on with
      | refl => exact fun _ => Nat.le_refl _
      | head leads rest ih =>
        intro from_root
        have here := (plan.mem _).mpr ⟨leads.ne_none, from_root⟩
        have there := ih (from_root.tail leads)
        have less := (first _ here _ leads (ne_none_of_path rest in_graph)).idxOf_lt plan.distinct
        omega
    have out := ne_none_of_path back in_graph
    have less := (first x member y leads out).idxOf_lt plan.distinct
    have more := falls y back (((plan.mem x).mp member).2.tail leads)
    omega
  · intro apart x member y leads in_graph
    exact (plan.ordered x member y leads in_graph).resolve_right (apart x member y leads)

end DepthFirst
