import KKTerm.Library.Fallible
import Mathlib.Data.Finset.Card

/-!
# Links from children to parents

Rows that name their parent have no cycle as long as a row gets a new parent only
when it is not above that parent already. Rows may be taken out when their
children go to the parent of the row.
-/

namespace ParentLinks

open Relation

universe u
variable {ι : Type u} {R R' : ι → ι → Prop}

def Acyclic (R : ι → ι → Prop) : Prop :=
  ∀ a, ¬ TransGen R a a

lemma Acyclic.mono (acyclic : Acyclic R) (h : ∀ a b, R' a b → TransGen R a b) : Acyclic R' := by
  intro a cycle
  exact acyclic a (TransGen.closed (fun a b step => h a b step) a a cycle)

lemma acyclic_of_empty (h : ∀ a b, ¬ R a b) : Acyclic R := by
  intro a cycle
  obtain ⟨b, step, -⟩ := TransGen.head'_iff.mp cycle
  exact h a b step

section Redirect

variable (id target : ι)
  (links : ∀ a b, R' a b → (a ≠ id ∧ R a b) ∨ (a = id ∧ b = target))
include links

/-- A path over the new link reaches its start and goes on from its target. -/
lemma path_redirect {a b : ι} (path : TransGen R' a b) :
    TransGen R a b ∨ (ReflTransGen R a id ∧ ReflTransGen R target b) := by
  induction path with
  | single step =>
    rcases links _ _ step with ⟨-, old⟩ | ⟨rfl, rfl⟩
    · exact .inl (.single old)
    · exact .inr ⟨.refl, .refl⟩
  | tail path step ih =>
    rcases links _ _ step with ⟨-, old⟩ | ⟨rfl, rfl⟩
    · rcases ih with before | ⟨toId, fromTarget⟩
      · exact .inl (before.tail old)
      · exact .inr ⟨toId, fromTarget.tail old⟩
    · rcases ih with before | ⟨toId, -⟩
      · exact .inr ⟨before.to_reflTransGen, .refl⟩
      · exact .inr ⟨toId, .refl⟩

lemma Acyclic.redirect (acyclic : Acyclic R) (off : ¬ ReflTransGen R target id) : Acyclic R' := by
  intro a cycle
  rcases path_redirect id target links cycle with old | ⟨toId, fromTarget⟩
  · exact acyclic a old
  · exact off (fromTarget.trans toId)

end Redirect

lemma Acyclic.splice (id : ι) (acyclic : Acyclic R)
    (links : ∀ a b, R' a b → R a b ∨ (R a id ∧ R id b)) : Acyclic R' := by
  refine acyclic.mono ?_
  intro a b step
  rcases links a b step with old | ⟨toId, fromId⟩
  · exact .single old
  · exact (TransGen.single toId).tail fromId

end ParentLinks

/-!
# Trees of rows that name their parent

Rows that name their parent are read from the top down: the rows under a row are
listed, and each of them is read in turn. Over finitely many rows without a cycle
such a reading comes to an end, meets every row below its start once, and no row
twice.
-/

namespace ParentTree

open ParentLinks Relation List

universe u v
variable {ι : Type u} {τ : Type v} {R : ι → ι → Prop} {nodes : List ι}

/-- Every link starts at one of the rows. -/
def LinksFrom (R : ι → ι → Prop) (nodes : List ι) : Prop :=
  ∀ a b, R a b → a ∈ nodes

/-- Without a cycle rows have a height, which is less than their number. -/
lemma exists_height (acyclic : Acyclic R) (links : LinksFrom R nodes) :
    ∃ height : ι → Nat, (∀ a b, R a b → height a < height b) ∧
      ∀ a ∈ nodes, height a < nodes.length := by
  classical
  let below (a : ι) : Finset ι := nodes.toFinset.filter (fun x => TransGen R x a)
  refine ⟨fun a => (below a).card, ?_, ?_⟩
  · intro a b link
    apply Finset.card_lt_card
    refine (Finset.ssubset_iff_of_subset ?_).mpr ⟨a, ?_, ?_⟩
    · intro x member
      obtain ⟨row, path⟩ := Finset.mem_filter.mp member
      exact Finset.mem_filter.mpr ⟨row, path.tail link⟩
    · exact Finset.mem_filter.mpr ⟨mem_toFinset.mpr (links a b link), .single link⟩
    · intro member
      exact acyclic a (Finset.mem_filter.mp member).2
  · intro a row
    have fewer : (below a).card < nodes.toFinset.card := by
      apply Finset.card_lt_card
      refine (Finset.ssubset_iff_of_subset (Finset.filter_subset _ _)).mpr ⟨a, ?_, ?_⟩
      · exact mem_toFinset.mpr row
      · intro member
        exact acyclic a (Finset.mem_filter.mp member).2
    exact fewer.trans_le (toFinset_card_le nodes)

lemma exists_top (acyclic : Acyclic R) (links : LinksFrom R nodes)
    (parents : ∀ a b, R a b → b ∈ nodes) {a : ι} (row : a ∈ nodes) :
    ∃ top ∈ nodes, ReflTransGen R a top ∧ ∀ b, ¬ R top b := by
  obtain ⟨height, rises, bounded⟩ := exists_height acyclic links
  induction left : nodes.length - height a using Nat.strong_induction_on generalizing a with
  | _ left' ih =>
    subst left
    by_cases last : ∃ b, R a b
    · obtain ⟨b, link⟩ := last
      have parent := parents a b link
      have higher := rises a b link
      have bound := bounded a row
      obtain ⟨top, home, path, free⟩ := ih _ (by omega) parent rfl
      exact ⟨top, home, path.head link, free⟩
    · exact ⟨a, row, .refl, fun b link => last ⟨b, link⟩⟩

/-- Children of one row have nothing below them in common. -/
lemma siblings_apart (acyclic : Acyclic R) (single : Relator.RightUnique R) {x a b p : ι}
    (ha : R a p) (hb : R b p) (toA : ReflTransGen R x a) (toB : ReflTransGen R x b) : a = b := by
  have upward : ∀ {c d : ι}, R c p → R d p → ReflTransGen R c d → c = d := by
    intro c d hc hd path
    rcases ReflTransGen.cases_head path with same | ⟨next, link, rest⟩
    · exact same
    · cases single link hc
      exact absurd (TransGen.tail' rest hd) (acyclic p)
  rcases ReflTransGen.total_of_right_unique single toA toB with path | path
  · exact upward ha hb path
  · exact (upward hb ha path).symm

/-- Rows without a parent have nothing below them in common. -/
lemma tops_apart (single : Relator.RightUnique R) {x a b : ι} (ha : ∀ p, ¬ R a p)
    (hb : ∀ p, ¬ R b p) (toA : ReflTransGen R x a) (toB : ReflTransGen R x b) : a = b := by
  have upward : ∀ {c d : ι}, (∀ p, ¬ R c p) → ReflTransGen R c d → c = d := by
    intro c d free path
    rcases ReflTransGen.cases_head path with same | ⟨next, link, -⟩
    · exact same
    · exact absurd link (free next)
  rcases ReflTransGen.total_of_right_unique single toA toB with path | path
  · exact upward ha path
  · exact (upward hb path).symm

/-- What is made of a row and of what was made of the rows under it. The number
bounds how deep rows may be nested. -/
def build (children : ι → List ι) (make : ι → List τ → τ) : Nat → ι → Option τ
  | 0, _ => none
  | depth + 1, a => ((children a).mapM (build children make depth)).map (make a)

/-- Whether a row is below another one. -/
def isBelow [DecidableEq ι] (children : ι → List ι) (x : ι) : Nat → ι → Option Bool
  | 0, _ => none
  | depth + 1, a =>
    (children a).anyM (fun child => if child = x then some true else isBelow children x depth child)

section Reading

variable {children : ι → List ι} {height : ι → Nat}
  (falls : ∀ a, ∀ b ∈ children a, height b < height a)
include falls

/-- A reading comes to an end, and what holds of each row when it holds of the rows
under it holds of the whole. -/
lemma build_returns {make : ι → List τ → τ} {P : ι → τ → Prop}
    (step : ∀ a ts, Forall₂ P (children a) ts → P a (make a ts)) {depth : Nat} {a : ι}
    (deep : height a < depth) : ∃ t, build children make depth a = some t ∧ P a t := by
  induction depth generalizing a with
  | zero => exact absurd deep (Nat.not_lt_zero _)
  | succ depth ih =>
    have each : ∀ b ∈ children a, ∃ t, build children make depth b = some t ∧ P b t := by
      intro b member
      have lower := falls a b member
      exact ih (by omega)
    obtain ⟨ts, all, held⟩ := Fallible.mapM_returns.mpr each
    refine ⟨make a ts, ?_, step a ts held⟩
    rw [build, all]
    rfl

lemma isBelow_returns [DecidableEq ι] {x : ι} {depth : Nat} {a : ι} (deep : height a < depth) :
    ∃ found, isBelow children x depth a = some found ∧
      (found = true ↔ TransGen (fun b c => b ∈ children c) x a) := by
  induction depth generalizing a with
  | zero => exact absurd deep (Nat.not_lt_zero _)
  | succ depth ih =>
    have split : TransGen (fun b c => b ∈ children c) x a ↔
        ∃ b ∈ children a, b = x ∨ TransGen (fun b c => b ∈ children c) x b := by
      rw [TransGen.tail'_iff]
      constructor
      · rintro ⟨b, path, link⟩
        rcases ReflTransGen.cases_tail path with rfl | ⟨c, before, last⟩
        · exact ⟨b, link, .inl rfl⟩
        · exact ⟨b, link, .inr (TransGen.tail' before last)⟩
      · rintro ⟨b, link, rfl | path⟩
        · exact ⟨b, .refl, link⟩
        · exact ⟨b, path.to_reflTransGen, link⟩
    rw [isBelow, split]
    have each : ∀ b ∈ children a, height b < depth := by
      intro b member
      have lower := falls a b member
      omega
    generalize children a = bs at each
    induction bs with
    | nil => exact ⟨false, rfl, by simp⟩
    | cons b bs inner =>
      obtain ⟨later, rest, restIff⟩ := inner (fun c member => each c (mem_cons_of_mem b member))
      rw [anyM]
      by_cases same : b = x
      · exact ⟨true, by simp [same], by simp [same]⟩
      · obtain ⟨found, here, hereIff⟩ := ih (a := b) (each b mem_cons_self)
        cases found with
        | true => exact ⟨true, by simp [same, here], by simp [hereIff.mp rfl]⟩
        | false =>
          refine ⟨later, by simp [same, here, rest], ?_⟩
          have off : ¬ TransGen (fun b c => b ∈ children c) x b := fun path => by
            simpa using hereIff.mpr path
          rw [restIff]
          simp [same, off]

end Reading

end ParentTree
