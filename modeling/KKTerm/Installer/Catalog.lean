import KKTerm.Library.DepthFirst
import KKTerm.Library.Text

/-!
# The catalog of the Install Helper

A recipe names what must be installed before it, and a bundle the recipes it installs.
A catalog is accepted when these names are known and lead to no cycle.
-/

namespace Installer

open DepthFirst Fallible ParentLinks Relation List

inductive GithubReleaseLayout where
  | zip
  | exeInstaller
  | msi
  deriving DecidableEq

inductive Provider where
  | winget (id : List Char)
  | chocolatey (id : List Char)
  | npm (pkg : List Char)
  | uvPip (package : List Char)
  | downloadInstaller (url fileName : List Char)
  | githubRelease (repo assetPattern : List Char) (layout : GithubReleaseLayout)
  | windowsFeature (feature : List Char) (reboot : Bool)
  | wslDistro (distro : List Char)
  | bundle (steps : List (List Char))
  deriving DecidableEq

structure Recipe where
  id : List Char
  needs : List (List Char)
  provider : Provider
  downloadProvider : Option Provider
  chocolateyProvider : Option Provider
  npmProvider : Option Provider
  deriving DecidableEq

structure Catalog where
  schemaVersion : Nat
  recipes : List Recipe
  deriving DecidableEq

inductive SchemaError where
  | unsupportedVersion (found maxSupported : Nat)
  | duplicateId (id : List Char)
  | unknownNeedsTarget (recipe missing : List Char)
  | unknownBundleStep (bundle missing : List Char)
  | dependencyCycle (path : List (List Char))
  deriving DecidableEq

inductive Stop where
  | rejected (error : SchemaError)
  | outOfFuel
  deriving DecidableEq

def appSupportedCatalogSchema : Nat :=
  2

def Provider.bundleSteps : Provider → List (List Char)
  | .bundle steps => steps
  | _ => []

namespace Catalog

def ids (c : Catalog) : List (List Char) :=
  c.recipes.map Recipe.id

/-- A map from ids to recipes; a later recipe replaces an earlier one of its id. -/
def byId (c : Catalog) (id : List Char) : Option Recipe :=
  c.recipes.reverse.find? (fun r => r.id = id)

def edges (c : Catalog) (id : List Char) : List (List Char) :=
  match c.byId id with
  | some r => r.needs ++ r.provider.bundleSteps
  | none => []

def collectIds (recipes : List Recipe) : Except Stop (List (List Char)) :=
  recipes.foldlM (fun seen r => do
    reject (r.id ∈ seen) (.rejected (.duplicateId r.id))
    pure (r.id :: seen)) []

def checkTargets (ids : List (List Char)) (r : Recipe) : Except Stop Unit := do
  r.needs.forM (fun need =>
    reject (need ∉ ids) (.rejected (.unknownNeedsTarget r.id need)))
  r.provider.bundleSteps.forM (fun step =>
    reject (step ∉ ids) (.rejected (.unknownBundleStep r.id step)))

def checkCycles (fuel : Nat) (c : Catalog) : Except Stop Unit :=
  match searchAll c.edges fuel c.ids with
  | .ok _ => .ok ()
  | .error (.cycle path) => .error (.rejected (.dependencyCycle path))
  | .error .outOfFuel => .error .outOfFuel

def validate (fuel : Nat) (c : Catalog) : Except Stop Unit := do
  reject (appSupportedCatalogSchema < c.schemaVersion)
    (.rejected (.unsupportedVersion c.schemaVersion appSupportedCatalogSchema))
  let ids ← collectIds c.recipes
  c.recipes.forM (checkTargets ids)
  checkCycles fuel c

/-- A recipe needs another, or has it as a step. -/
def LeadsTo (c : Catalog) (a b : List Char) : Prop :=
  ∃ r ∈ c.recipes, r.id = a ∧ b ∈ r.needs ++ r.provider.bundleSteps

def TargetsKnown (c : Catalog) : Prop :=
  ∀ r ∈ c.recipes, ∀ target ∈ r.needs ++ r.provider.bundleSteps, target ∈ c.ids

variable {c : Catalog} {id : List Char} {r : Recipe} {fuel : Nat}

lemma byId_mem (found : c.byId id = some r) : r ∈ c.recipes ∧ r.id = id := by
  have member := mem_of_find?_eq_some found
  have same := find?_some found
  exact ⟨mem_reverse.mp member, of_decide_eq_true same⟩

lemma byId_eq_none : c.byId id = none ↔ id ∉ c.ids := by
  rw [byId, find?_eq_none, ids, mem_map]
  constructor
  · rintro absent ⟨r, member, same⟩
    exact absent r (mem_reverse.mpr member) (decide_eq_true same)
  · intro absent r member same
    exact absent ⟨r, mem_reverse.mp member, of_decide_eq_true same⟩

lemma exists_byId (known : id ∈ c.ids) : ∃ r, c.byId id = some r := by
  refine Option.ne_none_iff_exists'.mp (fun absent => ?_)
  exact byId_eq_none.mp absent known

lemma byId_of_mem (distinct : c.ids.Nodup) (member : r ∈ c.recipes) : c.byId r.id = some r := by
  obtain ⟨r', found⟩ := exists_byId (mem_map_of_mem (f := Recipe.id) member)
  obtain ⟨member', same⟩ := byId_mem found
  rw [found, inj_on_of_nodup_map distinct member' member same]

lemma edge_iff (distinct : c.ids.Nodup) {a b : List Char} : Edge c.edges a b ↔ c.LeadsTo a b := by
  rw [Edge, edges]
  constructor
  · intro edge
    cases found : c.byId a with
    | none =>
      rw [found] at edge
      exact absurd edge not_mem_nil
    | some r =>
      rw [found] at edge
      obtain ⟨member, same⟩ := byId_mem found
      exact ⟨r, member, same, edge⟩
  · rintro ⟨r, member, rfl, edge⟩
    rw [byId_of_mem distinct member]
    exact edge

lemma collectIds_from {recipes : List Recipe} {seen all : List (List Char)} :
    recipes.foldlM (fun seen r => do
      reject (r.id ∈ seen) (Stop.rejected (.duplicateId r.id))
      pure (r.id :: seen)) seen = .ok all ↔
    (recipes.map Recipe.id).Nodup ∧ (∀ r ∈ recipes, r.id ∉ seen) ∧
      all = (recipes.map Recipe.id).reverse ++ seen := by
  induction recipes generalizing seen with
  | nil =>
    rw [foldlM_nil]
    constructor
    · rintro ⟨⟩
      exact ⟨.nil, fun r member => absurd member not_mem_nil, rfl⟩
    · rintro ⟨-, -, rfl⟩
      rfl
  | cons r recipes ih =>
    rw [foldlM_cons, bind_eq_ok]
    constructor
    · rintro ⟨next, first, rest⟩
      obtain ⟨fresh, same⟩ := reject_bind_ok.mp first
      cases same
      obtain ⟨distinct, new, rfl⟩ := ih.mp rest
      refine ⟨nodup_cons.mpr ⟨fun member => ?_, distinct⟩, ?_, by simp⟩
      · obtain ⟨r', member', same⟩ := mem_map.mp member
        exact new r' member' (same ▸ mem_cons_self)
      · exact forall_mem_cons.mpr ⟨fresh, fun r' member old =>
          new r' member (mem_cons_of_mem _ old)⟩
    · rintro ⟨distinct, new, rfl⟩
      obtain ⟨alone, distinct⟩ := nodup_cons.mp distinct
      obtain ⟨fresh, new⟩ := forall_mem_cons.mp new
      refine ⟨r.id :: seen, reject_bind_ok.mpr ⟨fresh, rfl⟩, ih.mpr ⟨distinct, ?_, by simp⟩⟩
      intro r' member old
      rcases mem_cons.mp old with same | before
      · exact alone (same ▸ mem_map_of_mem member)
      · exact new r' member before

lemma collectIds_eq_ok {all : List (List Char)} :
    collectIds c.recipes = .ok all ↔ c.ids.Nodup ∧ all = c.ids.reverse := by
  rw [collectIds, collectIds_from, append_nil]
  constructor
  · rintro ⟨distinct, -, same⟩
    exact ⟨distinct, same⟩
  · rintro ⟨distinct, same⟩
    exact ⟨distinct, fun r _ => not_mem_nil, same⟩

lemma checkTargets_eq_ok {known : List (List Char)} :
    checkTargets known r = .ok () ↔
      ∀ target ∈ r.needs ++ r.provider.bundleSteps, target ∈ known := by
  rw [checkTargets, bind_eq_ok, forall_mem_append]
  have each : ∀ {ids : List (List Char)} {error : List Char → Stop},
      ids.forM (fun id => reject (id ∉ known) (error id)) = .ok () ↔ ∀ id ∈ ids, id ∈ known := by
    intro ids error
    rw [forM_eq_forM, forM_eq_ok]
    simp only [reject_eq_ok, not_not]
  constructor
  · rintro ⟨⟨⟩, needs, steps⟩
    exact ⟨each.mp needs, each.mp steps⟩
  · rintro ⟨needs, steps⟩
    exact ⟨⟨⟩, each.mpr needs, each.mpr steps⟩

lemma checkAll_eq_ok : c.recipes.forM (checkTargets c.ids.reverse) = .ok () ↔ c.TargetsKnown := by
  simp only [forM_eq_forM, forM_eq_ok, checkTargets_eq_ok, mem_reverse]
  rfl

lemma edges_inside (known : c.TargetsKnown) (a b : List Char) (edge : b ∈ c.edges a) :
    b ∈ c.ids := by
  rw [edges] at edge
  cases found : c.byId a with
  | none =>
    rw [found] at edge
    exact absurd edge not_mem_nil
  | some r =>
    rw [found] at edge
    exact known r (byId_mem found).1 b edge

lemma edges_outside (a : List Char) (absent : a ∉ c.ids) : c.edges a = [] := by
  rw [edges, byId_eq_none.mpr absent]

lemma ids_card (enough : c.recipes.length < fuel) : c.ids.toFinset.card < fuel := by
  refine Nat.lt_of_le_of_lt (toFinset_card_le c.ids) ?_
  rw [ids, length_map]
  exact enough

lemma checkCycles_eq_ok (known : c.TargetsKnown) (enough : c.recipes.length < fuel) :
    checkCycles fuel c = .ok () ↔ Acyclic (Edge c.edges) := by
  rw [← searchAll_ok_iff (edges_inside known) edges_outside (ids_card enough), checkCycles]
  cases searchAll c.edges fuel c.ids with
  | ok s => exact ⟨fun _ => ⟨s, rfl⟩, fun _ => rfl⟩
  | error stop =>
    cases stop with
    | cycle path => exact ⟨nofun, nofun⟩
    | outOfFuel => exact ⟨nofun, nofun⟩

lemma checkCycles_error (known : c.TargetsKnown) (enough : c.recipes.length < fuel) {stop : Stop}
    (stopped : checkCycles fuel c = .error stop) :
    ∃ path, stop = .rejected (.dependencyCycle path) ∧ IsCycle c.edges path := by
  have outcome : Outcome c.edges .start c.ids _ :=
    searchAll_outcome (edges_inside known) (ids_card enough)
  rw [checkCycles] at stopped
  cases result : searchAll c.edges fuel c.ids with
  | ok s =>
    rw [result] at stopped
    cases stopped
  | error found =>
    rw [result] at stopped outcome
    cases found with
    | cycle path =>
      cases stopped
      exact ⟨path, rfl, outcome⟩
    | outOfFuel => exact outcome.elim

lemma acyclic_edges_iff (distinct : c.ids.Nodup) :
    Acyclic (Edge c.edges) ↔ Acyclic c.LeadsTo := by
  have same : Edge c.edges = c.LeadsTo := by
    funext a b
    exact propext (edge_iff distinct)
  rw [same]

lemma validate_eq_ok (supported : c.schemaVersion ≤ appSupportedCatalogSchema)
    (enough : c.recipes.length < fuel) :
    validate fuel c = .ok () ↔ c.ids.Nodup ∧ c.TargetsKnown ∧ Acyclic c.LeadsTo := by
  rw [validate, reject_bind_ok, bind_eq_ok]
  simp only [collectIds_eq_ok]
  constructor
  · rintro ⟨-, all, ⟨distinct, rfl⟩, rest⟩
    obtain ⟨⟨⟩, targets, cycles⟩ := bind_eq_ok.mp rest
    have known := checkAll_eq_ok.mp targets
    exact ⟨distinct, known,
      (acyclic_edges_iff distinct).mp ((checkCycles_eq_ok known enough).mp cycles)⟩
  · rintro ⟨distinct, known, acyclic⟩
    refine ⟨Nat.not_lt.mpr supported, _, ⟨distinct, rfl⟩, bind_eq_ok.mpr ⟨⟨⟩, ?_, ?_⟩⟩
    · exact checkAll_eq_ok.mpr known
    · exact (checkCycles_eq_ok known enough).mpr ((acyclic_edges_iff distinct).mpr acyclic)

lemma of_validate (enough : c.recipes.length < fuel) (accepted : validate fuel c = .ok ()) :
    c.ids.Nodup ∧ c.TargetsKnown ∧ Acyclic c.LeadsTo := by
  have supported := (reject_bind_ok.mp accepted).1
  exact (validate_eq_ok (Nat.not_lt.mp supported) enough).mp accepted

/-- The rules before the search for cycles have errors of their own. -/
def IsEarly (stop : Stop) : Prop :=
  stop ≠ .outOfFuel ∧ ∀ path, stop ≠ .rejected (.dependencyCycle path)

lemma collectIds_errors (recipes : List Recipe) : ErrorsSatisfy IsEarly (collectIds recipes) := by
  refine errorsSatisfy_foldlM (fun seen r _ => errorsSatisfy_bind (errorsSatisfy_reject ?_) ?_)
  · exact ⟨nofun, nofun⟩
  · exact fun _ => errorsSatisfy_ok _

lemma checkTargets_errors (known : List (List Char)) (r : Recipe) :
    ErrorsSatisfy IsEarly (checkTargets known r) := by
  refine errorsSatisfy_bind (errorsSatisfy_forM (fun need _ => errorsSatisfy_reject ?_))
    (fun _ => errorsSatisfy_forM (fun step _ => errorsSatisfy_reject ?_))
  · exact ⟨nofun, nofun⟩
  · exact ⟨nofun, nofun⟩

lemma validate_cycle {stop : Stop} (enough : c.recipes.length < fuel)
    (stopped : validate fuel c = .error stop) (late : ¬ IsEarly stop) :
    ∃ path, stop = .rejected (.dependencyCycle path) ∧ path.IsChain c.LeadsTo ∧
      ∃ id between, path = id :: between ++ [id] := by
  have version : ErrorsSatisfy IsEarly (reject (appSupportedCatalogSchema < c.schemaVersion)
      (Stop.rejected (.unsupportedVersion c.schemaVersion appSupportedCatalogSchema))) :=
    errorsSatisfy_reject ⟨nofun, nofun⟩
  obtain ⟨-, -, stopped⟩ := (error_of_bind stopped).resolve_left (fun e => late (version _ e))
  obtain ⟨all, collected, stopped⟩ :=
    (error_of_bind stopped).resolve_left (fun e => late (collectIds_errors _ _ e))
  obtain ⟨distinct, rfl⟩ := collectIds_eq_ok.mp collected
  have targets : ErrorsSatisfy IsEarly (c.recipes.forM (checkTargets c.ids.reverse)) :=
    errorsSatisfy_forM (fun r _ => checkTargets_errors _ r)
  obtain ⟨⟨⟩, checked, stopped⟩ :=
    (error_of_bind stopped).resolve_left (fun e => late (targets _ e))
  obtain ⟨path, rfl, chain, closed⟩ := checkCycles_error (checkAll_eq_ok.mp checked) enough stopped
  exact ⟨path, rfl, chain.imp (fun a b edge => (edge_iff distinct).mp edge), closed⟩

/-- Validation ends, accepts exactly the catalogs that can be installed from, and shows the
cycle that it finds. -/
theorem validate_decides (c : Catalog) (fuel : Nat)
    (supported : c.schemaVersion ≤ appSupportedCatalogSchema)
    (enough : c.recipes.length < fuel) :
    validate fuel c ≠ .error .outOfFuel ∧
    (validate fuel c = .ok () ↔ c.ids.Nodup ∧ c.TargetsKnown ∧ Acyclic c.LeadsTo) ∧
    ∀ path, validate fuel c = .error (.rejected (.dependencyCycle path)) →
      path.IsChain c.LeadsTo ∧ ∃ id between, path = id :: between ++ [id] := by
  refine ⟨fun stopped => ?_, validate_eq_ok supported enough, fun path stopped => ?_⟩
  · obtain ⟨path, same, -⟩ := validate_cycle enough stopped (fun early => early.1 rfl)
    cases same
  · obtain ⟨path', same, closed⟩ := validate_cycle enough stopped (fun early => early.2 path rfl)
    cases same
    exact closed

def mutualNeeds : Catalog :=
  ⟨2, [⟨"a".toList, ["b".toList], .wslDistro "d".toList, none, none, none⟩,
    ⟨"b".toList, ["a".toList], .bundle ["b".toList], none, none, none⟩]⟩

theorem validate_decides_mutualNeeds :
    (validate 3 mutualNeeds = .ok () ↔ mutualNeeds.ids.Nodup ∧ mutualNeeds.TargetsKnown ∧
      Acyclic mutualNeeds.LeadsTo) ∧
    ["a".toList, "b".toList, "a".toList].IsChain mutualNeeds.LeadsTo := by
  obtain ⟨-, decides, shows⟩ := validate_decides mutualNeeds 3 (by decide) (by decide)
  exact ⟨decides, (shows ["a".toList, "b".toList, "a".toList] (by rfl)).1⟩

end Catalog

end Installer
