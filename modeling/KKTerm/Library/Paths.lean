import Mathlib.Data.List.DropRight
import Mathlib.Data.List.Infix

/-!
# Paths and what a platform makes of them

A path is the list of its names from the root on. Different names may stand for one
entry: platforms differ in whether letter case counts, and one of them ignores dots
and spaces at the end of a name. Case is folded for ASCII letters only.
-/

namespace Paths

open List

abbrev Path := List (List Char)

inductive Platform where
  | windows
  | macos
  | linux
  deriving DecidableEq

def foldCase (c : Char) : Char :=
  if 0x41 ≤ c.toNat ∧ c.toNat ≤ 0x5a then Char.ofNat (c.toNat + 0x20) else c

def isDotOrSpace (c : Char) : Bool :=
  c = '.' || c = ' '

/-- The name of the entry that a name stands for. -/
def Platform.resolveName : Platform → List Char → List Char
  | .windows, name => (name.rdropWhile isDotOrSpace).map foldCase
  | .macos, name => name.map foldCase
  | .linux, name => name

def Platform.resolve (platform : Platform) (path : Path) : Path :=
  path.map platform.resolveName

/-- Neither is the other, and neither is inside the other. -/
def Apart (p q : Path) : Prop :=
  ¬ p <+: q ∧ ¬ q <+: p

variable {p q : Path}

lemma Apart.symm (apart : Apart p q) : Apart q p :=
  ⟨apart.2, apart.1⟩

lemma not_apart_self (p : Path) : ¬ Apart p p :=
  fun apart => apart.1 prefix_rfl

lemma apart_of_ne {base : Path} {a b : List Char} {p q : Path} (different : a ≠ b) :
    Apart (base ++ a :: p) (base ++ b :: q) := by
  constructor
  · intro inside
    rw [prefix_append_right_inj, cons_prefix_cons] at inside
    exact different inside.1
  · intro inside
    rw [prefix_append_right_inj, cons_prefix_cons] at inside
    exact different inside.1.symm

/-- What is inside of one of them is not inside of the other. -/
lemma Apart.not_both (apart : Apart p q) {x : Path} (inside : p <+: x) : ¬ q <+: x := by
  intro other
  rcases prefix_or_prefix_of_prefix inside other with below | below
  · exact apart.1 below
  · exact apart.2 below

lemma map_foldCase_of_plain {name : List Char}
    (plain : ∀ c ∈ name, ¬ (0x41 ≤ c.toNat ∧ c.toNat ≤ 0x5a)) : name.map foldCase = name := by
  induction name with
  | nil => rfl
  | cons c name ih =>
    rw [forall_mem_cons] at plain
    rw [map_cons, ih plain.2, foldCase, if_neg plain.1]

lemma rdropWhile_congr {f g : Char → Bool} {name : List Char}
    (agree : ∀ c ∈ name, f c = g c) : name.rdropWhile f = name.rdropWhile g := by
  induction name using reverseRecOn with
  | nil => rfl
  | append_singleton name c ih =>
    have last := agree c (mem_append_right name mem_cons_self)
    rw [rdropWhile_concat, rdropWhile_concat, last,
      ih (fun d member => agree d (mem_append_left [c] member))]

end Paths
