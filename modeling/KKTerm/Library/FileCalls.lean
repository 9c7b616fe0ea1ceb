import KKTerm.Library.Fallible
import KKTerm.Library.FileTree

/-!
# Calls on a tree of files

What the calls of an operating system answer for a path and do to the tree. A copy follows
links at both ends and empties its target before it reads; a rename follows none at the end
of a path. A removal that fails may have removed any part that leaves a tree.
-/

namespace FileTree

open Paths

section Calls
variable (t : Tree) (links : Nat) (path : Path)

def canonicalize : Except Failure Path := do
  match ← walk t links [] path with
  | .found place => .ok place
  | .vacant _ => .error .notFound

def pathExists : Bool :=
  (canonicalize t links path).isOk

def isDir : Bool :=
  match canonicalize t links path with
  | .ok place => entry t place = some .dir
  | .error _ => false

/-- A file that is there, or the place of a new one. -/
def openTarget : Except Failure Path := do
  match ← walk t links [] path with
  | .vacant place => .ok place
  | .found place =>
    match entry t place with
    | some (.file _) => .ok place
    | _ => .error .other

def content (place : Path) : List UInt8 :=
  match entry t place with
  | some (.file content) => content
  | _ => []

end Calls

variable {t t' : Tree} {links : Nat} {path place target : Path}

lemma entry_insert {e : Entry} (inside : place ≠ []) (p : Path) :
    entry (t.insert place e) p = if p = place then some e else entry t p := by
  by_cases same : p = place
  · subst same
    rw [if_pos rfl, entry, if_neg inside, AList.lookup_insert]
  · rw [if_neg same]
    by_cases root : p = []
    · rw [root]
      rfl
    · rw [entry, entry, if_neg root, if_neg root, AList.lookup_insert_ne same]

lemma ne_nil_of_absent (absent : entry t place = none) : place ≠ [] := by
  rintro rfl
  cases absent

def FilePlace (t : Tree) (place : Path) : Prop :=
  entry t place = none ∨ ∃ content, entry t place = some (.file content)

lemma FilePlace.ne_nil (spot : FilePlace t place) : place ≠ [] := by
  rintro rfl
  rcases spot with absent | ⟨_, file⟩
  · cases absent
  · cases file

lemma Grown.insert_file (spot : FilePlace t place) (bytes : List UInt8) :
    Grown t (t.insert place (.file bytes)) where
  kept p e present := by
    rw [entry_insert spot.ne_nil]
    split
    · rename_i same
      subst same
      rcases spot with absent | ⟨_, file⟩
      · cases absent.symm.trans present
      · cases file.symm.trans present
        exact ⟨_, rfl, bytes, rfl⟩
    · exact ⟨e, present, .refl e⟩
  links p absolute target present := by
    rw [entry_insert spot.ne_nil] at present
    split at present
    · cases present
    · exact present

lemma Leads.absent {base : Path} (leads : Leads t links base path (.vacant place)) :
    entry t place = none := by
  generalize same : Place.vacant place = end_ at leads
  induction leads with
  | here => cases same
  | up _ ih => exact ih same
  | missing _ absent =>
    cases same
    exact absent
  | into _ _ _ ih => exact ih same
  | file => cases same
  | follow _ _ _ ih => exact ih same

lemma locate_vacant (located : locate t links path = .ok (.vacant place)) :
    entry t place = none ∧ landing t links [] path = some place := by
  rcases locate_eq_ok located with
    ⟨-, leads⟩ | ⟨front, name, base, rfl, ordinary, leads, -, same⟩
  · exact ⟨leads.absent, leads.landing⟩
  · split at same
    · rename_i absent
      cases same
      refine ⟨absent, landing_append leads.landing ⟨ordinary, ?_, trivial⟩⟩
      exact fun _ _ linked => nomatch absent.symm.trans linked
    · cases same

lemma entry_erase {p : Path} (differ : p ≠ place) : entry (t.erase place) p = entry t p := by
  have kept : (t.erase place).lookup p = t.lookup p := AList.lookup_erase_ne differ
  rw [entry, entry, kept]

end FileTree
