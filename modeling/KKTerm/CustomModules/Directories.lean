import KKTerm.Library.Fallible
import KKTerm.Library.Paths
import KKTerm.Library.Text

/-!
# The directories of the Custom Modules

Each module has a directory of its own below the packages, documents, blobs and
WebView data directories, which is named by the id of the module alone. Files are
found by the resolved path. The roots themselves are regular directories.
-/

namespace CustomModules

open Fallible Paths List Text

structure InvalidIdentifier where
  field : List Char
  deriving DecidableEq

def isIdentifierChar (c : Char) : Bool :=
  isAsciiLowercase c || isAsciiDigit c || c = '.' || c = '-'

def validateIdentifier (value field : List Char) : Except InvalidIdentifier Unit :=
  reject (value = [] ∨ 128 < byteLength value ∨ value.all isIdentifierChar = false ∨
    value.head?.any isAsciiLowercase = false) { field }

section Layout
variable (dataDir : Path) (moduleId : List Char)

def modulesRoot : Path :=
  dataDir ++ ["custom-modules".toList]

def packageStorageRoot : Path :=
  modulesRoot dataDir ++ ["packages".toList]

def webviewDataRoot : Path :=
  modulesRoot dataDir ++ ["webview-data".toList]

def documentStorageRoot : Path :=
  modulesRoot dataDir ++ ["documents".toList]

def blobStorageRoot : Path :=
  modulesRoot dataDir ++ ["blobs".toList]

def documentContentPath (sha256 : List Char) : Path :=
  documentStorageRoot dataDir ++ [moduleId] ++ [sha256 ++ ".json".toList]

def blobContentPath (sha256 : List Char) : Path :=
  blobStorageRoot dataDir ++ [moduleId] ++ [sha256 ++ ".blob".toList]

/-- The roots that have a directory for each module. -/
def moduleRoots : List Path :=
  [packageStorageRoot dataDir, webviewDataRoot dataDir, documentStorageRoot dataDir,
    blobStorageRoot dataDir]

end Layout

inductive Entry where
  | directory
  | file (content : List UInt8)
  | link

abbrev FileTree := Path → Option Entry

inductive RemoveError where
  | outsideOwnedDirectory
  | failed
  deriving DecidableEq

def FileTree.remove (t : FileTree) (path : Path) : FileTree :=
  fun p => if p = path then none else t p

def FileTree.removeAll (t : FileTree) (path : Path) : FileTree :=
  fun p => if path <+: p then none else t p

def removeOwnedDirectory (base target : Path) (t : FileTree) : Except RemoveError FileTree :=
  match t target with
  | none => .ok t
  | some .link => .ok (t.remove target)
  | some (.file _) => .error .failed
  | some .directory =>
    if target = base ∨ ¬ base <+: target then .error .outsideOwnedDirectory
    else .ok (t.removeAll target)

def removeModuleDirectory (platform : Platform) (moduleId : List Char) (t : FileTree)
    (root : Path) : Except RemoveError FileTree :=
  removeOwnedDirectory (platform.resolve root) (platform.resolve (root ++ [moduleId])) t

/-- The files of `uninstall_custom_module`. -/
def uninstallFiles (platform : Platform) (dataDir : Path) (moduleId : List Char)
    (deleteData : Bool) (t : FileTree) : Except RemoveError FileTree := do
  let t ← removeModuleDirectory platform moduleId t (packageStorageRoot dataDir)
  if deleteData then
    [webviewDataRoot dataDir, documentStorageRoot dataDir, blobStorageRoot dataDir].foldlM
      (removeModuleDirectory platform moduleId) t
  else pure t

/-- The files of `clear_custom_module_data`. -/
def clearFiles (platform : Platform) (dataDir : Path) (moduleId : List Char) (t : FileTree) :
    Except RemoveError FileTree :=
  [webviewDataRoot dataDir, documentStorageRoot dataDir, blobStorageRoot dataDir].foldlM
    (removeModuleDirectory platform moduleId) t

def FileTree.read (t : FileTree) (platform : Platform) (path : Path) : Option Entry :=
  t (platform.resolve path)

/-- The resolved paths inside the directories of a module. -/
def Owned (platform : Platform) (dataDir : Path) (moduleId : List Char) (p : Path) : Prop :=
  ∃ root ∈ moduleRoots dataDir, platform.resolve (root ++ [moduleId]) <+: p

/-- Two modules have nothing to do with the files of each other. -/
structure Isolated (platform : Platform) (dataDir : Path) (a b : List Char) : Prop where
  apart : ∀ root ∈ moduleRoots dataDir, ∀ other ∈ moduleRoots dataDir,
    Apart (platform.resolve (root ++ [a])) (platform.resolve (other ++ [b]))
  uninstall : ∀ deleteData t t', uninstallFiles platform dataDir a deleteData t = .ok t' →
    ∀ p, Owned platform dataDir b p → t' p = t p
  clear : ∀ t t', clearFiles platform dataDir a t = .ok t' →
    ∀ p, Owned platform dataDir b p → t' p = t p
  read : ∀ (t t' : FileTree), (∀ p, ¬ Owned platform dataDir b p → t p = t' p) → ∀ sha256,
    t.read platform (documentContentPath dataDir a sha256) =
        t'.read platform (documentContentPath dataDir a sha256) ∧
      t.read platform (blobContentPath dataDir a sha256) =
        t'.read platform (blobContentPath dataDir a sha256)

section Files
variable {platform : Platform} {dataDir : Path} {a b : List Char}

variable {t t' : FileTree} {p : Path}

lemma removeOwnedDirectory_outside {base target : Path}
    (done : removeOwnedDirectory base target t = .ok t') (outside : ¬ target <+: p) :
    t' p = t p := by
  rw [removeOwnedDirectory] at done
  split at done
  next =>
    cases done
    rfl
  next =>
    cases done
    refine if_neg (fun same => outside ?_)
    rw [same]
  next => cases done
  next =>
    split at done
    next => cases done
    next =>
      cases done
      exact if_neg outside

lemma removeModuleDirectory_outside {root : Path}
    (done : removeModuleDirectory platform a t root = .ok t') (listed : root ∈ moduleRoots dataDir)
    (apart : ∀ root ∈ moduleRoots dataDir, ∀ other ∈ moduleRoots dataDir,
      Apart (platform.resolve (root ++ [a])) (platform.resolve (other ++ [b])))
    (owned : Owned platform dataDir b p) : t' p = t p := by
  obtain ⟨other, member, inside⟩ := owned
  exact removeOwnedDirectory_outside done ((apart root listed other member).symm.not_both inside)

/-- Directories that lie apart are all that isolation takes. -/
lemma isolated_of_apart (apart : ∀ root ∈ moduleRoots dataDir, ∀ other ∈ moduleRoots dataDir,
    Apart (platform.resolve (root ++ [a])) (platform.resolve (other ++ [b]))) :
    Isolated platform dataDir a b := by
  have each : ∀ roots : List Path, (∀ root ∈ roots, root ∈ moduleRoots dataDir) → ∀ t t',
      roots.foldlM (removeModuleDirectory platform a) t = .ok t' →
      ∀ p, Owned platform dataDir b p → t' p = t p := by
    intro roots listed t t' done p owned
    refine foldlM_invariant (P := fun t₁ => t₁ p = t p) ?_ done rfl
    intro t₁ root t₂ member round held
    exact (removeModuleDirectory_outside round (listed root member) apart owned).trans held
  have data : ∀ root ∈ [webviewDataRoot dataDir, documentStorageRoot dataDir,
      blobStorageRoot dataDir], root ∈ moduleRoots dataDir :=
    fun root member => mem_cons_of_mem _ member
  constructor
  · exact apart
  · intro deleteData t t' done p owned
    obtain ⟨t₁, packages, done⟩ := bind_eq_ok.mp done
    have first := removeModuleDirectory_outside packages mem_cons_self apart owned
    cases deleteData with
    | true => exact (each _ data t₁ t' done p owned).trans first
    | false =>
      cases done
      exact first
  · intro t t' done
    exact each _ data t t' done
  · intro t t' agree sha256
    have foreign : ∀ root ∈ moduleRoots dataDir, ∀ name,
        ¬ Owned platform dataDir b (platform.resolve (root ++ [a] ++ [name])) := by
      rintro root listed name ⟨other, member, inside⟩
      refine (apart root listed other member).not_both ?_ inside
      exact IsPrefix.map platform.resolveName (prefix_append (root ++ [a]) [name])
    constructor
    · exact agree _ (foreign _ (by simp [moduleRoots]) _)
    · exact agree _ (foreign _ (by simp [moduleRoots]) _)

end Files

/-- An accepted id is a nonempty run of lower case letters, digits, dots and hyphens. -/
lemma validateIdentifier_eq_ok {value field : List Char}
    (accepted : validateIdentifier value field = .ok ()) :
    value ≠ [] ∧ ∀ c ∈ value, isIdentifierChar c = true := by
  have checked := reject_eq_ok.mp accepted
  simp only [not_or, Bool.not_eq_false] at checked
  exact ⟨checked.1, all_eq_true.mp checked.2.2.1⟩

lemma isIdentifierChar_plain {c : Char} (listed : isIdentifierChar c = true) :
    c ≠ ' ' ∧ ¬ (0x41 ≤ c.toNat ∧ c.toNat ≤ 0x5a) := by
  simp only [isIdentifierChar, isAsciiLowercase, isAsciiDigit, Bool.or_eq_true,
    Bool.and_eq_true, decide_eq_true_eq] at listed
  constructor
  · rintro rfl
    revert listed
    decide
  · intro upper
    rcases listed with ((letter | digit) | rfl) | rfl
    · omega
    · omega
    · exact absurd upper (by decide)
    · exact absurd upper (by decide)

variable (platform : Platform)

/-- The name of an id on each platform: only dots at its end may be lost. -/
lemma resolveName_identifier {id : List Char} (plain : ∀ c ∈ id, isIdentifierChar c = true) :
    platform.resolveName id = if platform = .windows then id.rdropWhile (· = '.') else id := by
  have lower : ∀ name : List Char, (∀ c ∈ name, c ∈ id) → name.map foldCase = name :=
    fun name within => map_foldCase_of_plain
      (fun c member => (isIdentifierChar_plain (plain c (within c member))).2)
  cases platform with
  | windows =>
    have trimmed : id.rdropWhile isDotOrSpace = id.rdropWhile (· = '.') := by
      refine rdropWhile_congr (fun c member => ?_)
      simp [isDotOrSpace, (isIdentifierChar_plain (plain c member)).1]
    rw [if_pos rfl, Platform.resolveName, trimmed]
    exact lower _ (fun c member => (List.rdropWhile_prefix _ id).subset member)
  | macos => exact lower id (fun c member => member)
  | linux => rfl

lemma mem_moduleRoots {dataDir root : Path} (listed : root ∈ moduleRoots dataDir) :
    ∃ name ∈ ["packages".toList, "webview-data".toList, "documents".toList, "blobs".toList],
      root = modulesRoot dataDir ++ [name] := by
  simp only [moduleRoots, mem_cons, not_mem_nil, or_false] at listed
  rcases listed with rfl | rfl | rfl | rfl
  · exact ⟨_, by simp, rfl⟩
  · exact ⟨_, by simp, rfl⟩
  · exact ⟨_, by simp, rfl⟩
  · exact ⟨_, by simp, rfl⟩

/-- Roots of different names are apart on every platform. -/
lemma rootNames_apart :
    ∀ x ∈ ["packages".toList, "webview-data".toList, "documents".toList, "blobs".toList],
      ∀ y ∈ ["packages".toList, "webview-data".toList, "documents".toList, "blobs".toList],
        x ≠ y → platform.resolveName x ≠ platform.resolveName y := by
  cases platform <;> decide

/-- Modules are isolated on disk exactly if their ids do not differ, on Windows, in dots
at the end alone. -/
theorem modules_isolated (platform : Platform) (dataDir : Path) (a b field : List Char)
    (acceptedA : validateIdentifier a field = .ok ())
    (acceptedB : validateIdentifier b field = .ok ()) (different : a ≠ b) :
    Isolated platform dataDir a b ↔
      (platform = .windows → a.rdropWhile (· = '.') ≠ b.rdropWhile (· = '.')) := by
  have nameA := resolveName_identifier platform (validateIdentifier_eq_ok acceptedA).2
  have nameB := resolveName_identifier platform (validateIdentifier_eq_ok acceptedB).2
  constructor
  · rintro isolated rfl same
    have listed : packageStorageRoot dataDir ∈ moduleRoots dataDir := mem_cons_self
    have apart := isolated.apart _ listed _ listed
    rw [Platform.resolve, Platform.resolve, map_append, map_append, map_singleton,
      map_singleton, nameA, nameB, if_pos rfl, if_pos rfl, same] at apart
    exact not_apart_self _ apart
  · intro distinct
    refine isolated_of_apart ?_
    intro root listed other member
    obtain ⟨x, knownX, rfl⟩ := mem_moduleRoots listed
    obtain ⟨y, knownY, rfl⟩ := mem_moduleRoots member
    simp only [Platform.resolve, map_append, map_singleton]
    by_cases same : x = y
    · rw [same]
      refine apart_of_ne ?_
      rw [nameA, nameB]
      by_cases windows : platform = .windows
      · rw [if_pos windows, if_pos windows]
        exact distinct windows
      · rw [if_neg windows, if_neg windows]
        exact different
    · rw [append_assoc, append_assoc]
      exact apart_of_ne (rootNames_apart platform x knownX y knownY same)

theorem notes_and_tasks_isolated :
    Isolated .windows ["data".toList] "com.example.notes".toList "com.example.tasks".toList :=
  (modules_isolated .windows ["data".toList] "com.example.notes".toList "com.example.tasks".toList
    [] rfl rfl (by decide)).mpr (fun _ => by decide)

/-- Both ids are accepted, and both name one directory on Windows. -/
theorem dotted_id_shares_directories :
    validateIdentifier "com.example".toList [] = .ok () ∧
      validateIdentifier "com.example.".toList [] = .ok () ∧
      "com.example".toList ≠ "com.example.".toList ∧
      ¬ Isolated .windows ["data".toList] "com.example".toList "com.example.".toList := by
  refine ⟨rfl, rfl, by decide, ?_⟩
  intro isolated
  have listed : packageStorageRoot ["data".toList] ∈ moduleRoots ["data".toList] := mem_cons_self
  exact not_apart_self _ (isolated.apart _ listed _ listed)

end CustomModules
