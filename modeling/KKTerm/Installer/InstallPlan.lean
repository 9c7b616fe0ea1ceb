import KKTerm.Installer.Catalog

/-!
# Install plans

A plan lists what a recipe needs before the recipe. The needs that it follows are those of
the catalog changed by the provider that is selected, and nothing looks for cycles in them.
-/

namespace Installer

open DepthFirst Fallible ParentLinks Relation List Catalog

inductive Scope where
  | user
  | machine
  deriving DecidableEq

inductive ProviderChoice where
  | default
  | download
  | chocolatey
  | npm
  deriving DecidableEq

structure InstallOptions where
  scope : Option Scope
  provider : Option ProviderChoice
  deriving DecidableEq

structure PlanStep where
  recipe : Recipe
  isPrerequisite : Bool
  deriving DecidableEq

structure InstallPlan where
  steps : List PlanStep
  actionable : List PlanStep
  uacPromptEstimate : Nat
  deriving DecidableEq

namespace Provider

def isDownload : Provider → Bool
  | .downloadInstaller .. => true
  | .githubRelease .. => true
  | _ => false

def isChocolatey : Provider → Bool
  | .chocolatey _ => true
  | _ => false

def isNpm : Provider → Bool
  | .npm _ => true
  | _ => false

def isWinget : Provider → Bool
  | .winget _ => true
  | _ => false

end Provider

def wingetId : List Char :=
  "winget".toList

def chocolateyId : List Char :=
  "chocolatey".toList

def nodeBundleId : List Char :=
  "node-bundle".toList

def selectedProviderForOptions (r : Recipe) (options : Option InstallOptions) : Provider :=
  match options.bind InstallOptions.provider with
  | some .download => (r.downloadProvider.filter Provider.isDownload).getD r.provider
  | some .chocolatey => (r.chocolateyProvider.filter Provider.isChocolatey).getD r.provider
  | some .npm => (r.npmProvider.filter Provider.isNpm).getD r.provider
  | _ => r.provider

def effectiveNeedsFor (r : Recipe) (options : Option InstallOptions) : List (List Char) :=
  let selected := selectedProviderForOptions r options
  if selected.isChocolatey then
    (r.needs.filter (· ≠ wingetId) ++ [chocolateyId]).eraseDups
  else if selected.isNpm then
    (r.needs.filter (· ≠ wingetId) ++ [nodeBundleId]).eraseDups
  else if r.provider.isWinget ∧ selected ≠ r.provider then
    r.needs.filter (· ≠ wingetId)
  else r.needs

def machineOnly : List (List Char) :=
  ["7zip.7zip", "blenderfoundation.blender", "bruno.bruno", "chocolatey.chocolatey", "ditto.ditto",
    "docker.dockerdesktop", "github.cli", "jgraph.draw", "kde.krita", "microsoft.coreutils",
    "microsoft.powershell", "notepad++.notepad++", "tailscale.tailscale", "voidtools.everything",
    "inkscape.inkscape", "marha.vcxsrv"].map String.toList

def selfElevating : List (List Char) :=
  ["coreybutler.nvmforwindows", "docker.dockerdesktop", "git.git", "microsoft.coreutils",
    "oracle.virtualbox", "vmware.workstationpro"].map String.toList

section Prompts
variable (toLowerCase : List Char → List Char)

def wingetIdIncludes (needles : List (List Char)) : Provider → Bool
  | .winget id => needles.any (fun needle => decide (needle <:+: toLowerCase id))
  | _ => false

def isKnownMachineOnlyWingetRecipe (r : Recipe) : Bool :=
  wingetIdIncludes toLowerCase machineOnly r.provider

def isKnownSelfElevatingWingetRecipe (r : Recipe) : Bool :=
  wingetIdIncludes toLowerCase selfElevating r.provider

/-- A bundle counts the steps that are neither installed nor steps of the plan themselves. -/
def estimateUacPromptsFor (byId : List Char → Option Recipe) (detected : List Char → Bool)
    (actionableIds : List (List Char)) : Nat → Recipe → Option InstallOptions → Option Nat
  | 0, _, _ => none
  | fuel + 1, r, options =>
    match selectedProviderForOptions r options with
    | .winget _ =>
      if options.bind InstallOptions.scope = some .machine then some 1
      else if isKnownMachineOnlyWingetRecipe toLowerCase r then some 1
      else some (if isKnownSelfElevatingWingetRecipe toLowerCase r then 1 else 0)
    | .chocolatey _ => some 1
    | .windowsFeature .. => some 1
    | .wslDistro _ => some 0
    | .githubRelease _ _ layout => some (if layout = .zip then 0 else 1)
    | .npm _ => some 0
    | .uvPip _ => some 0
    | .downloadInstaller .. => some (if r.id = "antigravity-cli".toList then 0 else 1)
    | .bundle steps =>
      steps.foldlM (fun sum stepId =>
        if stepId ∈ actionableIds then some sum
        else if detected stepId then some sum
        else
          match byId stepId with
          | none => some sum
          | some stepRecipe =>
            (estimateUacPromptsFor byId detected actionableIds fuel stepRecipe options).map
              (sum + ·)) 0

end Prompts

section Plan
variable (c : Catalog) (detected : List Char → Bool) (options : Option InstallOptions)
  (target : List Char)

/-- The options are those of the recipe that the user chose. -/
def optionsFor (id : List Char) : Option InstallOptions :=
  if id = target then options else none

/-- What the plan visits from a recipe: nothing when the recipe is installed already. -/
def followed (id : List Char) : Option (List (List Char)) :=
  (c.byId id).map (fun r =>
    if id ≠ target ∧ detected id then [] else effectiveNeedsFor r (optionsFor options target id))

def planSteps (order : List (List Char)) : List PlanStep :=
  (order.filterMap c.byId).map (fun r => ⟨r, decide (r.id ≠ target)⟩)

def actionableSteps (steps : List PlanStep) : List PlanStep :=
  steps.filter (fun step => decide (step.recipe.id = target) || !detected step.recipe.id)

def uacPromptEstimate (toLowerCase : List Char → List Char) (fuel : Nat)
    (actionable : List PlanStep) : Option Nat :=
  let actionableIds := actionable.map (fun step => step.recipe.id)
  actionable.foldlM (fun sum step =>
    (estimateUacPromptsFor toLowerCase c.byId detected actionableIds fuel step.recipe
      (optionsFor options target step.recipe.id)).map (sum + ·)) 0

def resolveInstallPlan (toLowerCase : List Char → List Char) (fuel : Nat) : Option InstallPlan := do
  let listing ← visit (followed c detected options target) fuel ⟨[], []⟩ target
  let steps := planSteps c target listing.order
  let actionable := actionableSteps detected target steps
  let estimate ← uacPromptEstimate c detected options target toLowerCase fuel actionable
  some ⟨steps, actionable, estimate⟩

end Plan

def InstallPlan.ids (plan : InstallPlan) : List (List Char) :=
  plan.steps.map (fun step => step.recipe.id)

section Spec
variable (c : Catalog) (detected : List Char → Bool) (options : Option InstallOptions)
  (target : List Char)

/-- A recipe that is the target or not installed needs another. -/
def NeedsFirst (a b : List Char) : Prop :=
  ∃ r ∈ c.recipes, r.id = a ∧ (a = target ∨ detected a = false) ∧
    b ∈ effectiveNeedsFor r (optionsFor options target a)

/-- No recipe is listed twice, the target is last, and all that is reached is listed. -/
structure Complete (plan : InstallPlan) : Prop where
  distinct : plan.ids.Nodup
  last : plan.ids.getLast? = some target
  recipes : ∀ step ∈ plan.steps, step.recipe ∈ c.recipes
  reached : ∀ id ∈ c.ids, ReflTransGen (NeedsFirst c detected options target) target id →
    id ∈ plan.ids

/-- The needs in the catalog of a step that is the target or not installed come before it. -/
def InOrder (plan : InstallPlan) : Prop :=
  ∀ step ∈ plan.steps, step.recipe.id = target ∨ detected step.recipe.id = false →
    ∀ need ∈ effectiveNeedsFor step.recipe (optionsFor options target step.recipe.id),
      need ∈ c.ids → Before plan.ids need step.recipe.id

/-- A recipe that the plan reaches gets a need from the selected provider, and that need
leads back to the recipe. -/
def AddedNeedLeadsBack : Prop :=
  ∃ r ∈ c.recipes, ReflTransGen (NeedsFirst c detected options target) target r.id ∧
    (r.id = target ∨ detected r.id = false) ∧
    ∃ need ∈ effectiveNeedsFor r (optionsFor options target r.id), need ∉ r.needs ∧
      ReflTransGen (NeedsFirst c detected options target) need r.id

end Spec

lemma bundle_of_selected {r : Recipe} {options : Option InstallOptions}
    {steps : List (List Char)} (selected : selectedProviderForOptions r options = .bundle steps) :
    r.provider = .bundle steps := by
  have own : ∀ {p : Provider → Bool} {alternative : Option Provider},
      p (.bundle steps) = false → (alternative.filter p).getD r.provider = .bundle steps →
      r.provider = .bundle steps := by
    intro p alternative never chosen
    cases found : alternative.filter p with
    | none =>
      rw [found] at chosen
      exact chosen
    | some provider =>
      rw [found] at chosen
      have passes := (Option.filter_eq_some_iff.mp found).2
      rw [show provider = .bundle steps from chosen, never] at passes
      cases passes
  rw [selectedProviderForOptions] at selected
  split at selected
  · exact own rfl selected
  · exact own rfl selected
  · exact own rfl selected
  · exact selected

section Termination
variable {c : Catalog}

open Classical in
/-- The recipes that a recipe leads to. -/
noncomputable def below (c : Catalog) (id : List Char) : Finset (List Char) :=
  c.ids.toFinset.filter (fun other => TransGen c.LeadsTo id other)

lemma mem_below {id other : List Char} :
    other ∈ below c id ↔ other ∈ c.ids ∧ TransGen c.LeadsTo id other := by
  classical
  rw [below, Finset.mem_filter, mem_toFinset]

lemma below_card_le (id : List Char) : (below c id).card ≤ c.recipes.length := by
  classical
  refine (Finset.card_filter_le _ _).trans ((toFinset_card_le c.ids).trans ?_)
  rw [ids, length_map]

lemma below_lt (acyclic : Acyclic c.LeadsTo) (known : c.TargetsKnown) {a b : List Char}
    (leads : c.LeadsTo a b) : (below c b).card < (below c a).card := by
  obtain ⟨r, member, -, edge⟩ := id leads
  refine Finset.card_lt_card (Finset.ssubset_iff_of_subset ?_ |>.mpr ⟨b, ?_, ?_⟩)
  · intro other under
    obtain ⟨inside, path⟩ := mem_below.mp under
    exact mem_below.mpr ⟨inside, path.head leads⟩
  · exact mem_below.mpr ⟨known r member b edge, .single leads⟩
  · intro under
    exact acyclic b (mem_below.mp under).2

/-- The estimate ends, although it visits the steps of a bundle each time it meets it. -/
lemma estimate_ends (acyclic : Acyclic c.LeadsTo) (known : c.TargetsKnown)
    (toLowerCase : List Char → List Char) (detected : List Char → Bool) (actionableIds : List (List Char))
    (options : Option InstallOptions) {fuel : Nat} {r : Recipe} (member : r ∈ c.recipes)
    (enough : (below c r.id).card < fuel) :
    ∃ n, estimateUacPromptsFor toLowerCase c.byId detected actionableIds fuel r options =
      some n := by
  induction fuel generalizing r with
  | zero => exact absurd enough (Nat.not_lt_zero _)
  | succ fuel ih =>
    rw [estimateUacPromptsFor]
    cases selected : selectedProviderForOptions r options with
    | winget id => split_ifs <;> exact ⟨_, rfl⟩
    | chocolatey id => exact ⟨_, rfl⟩
    | npm pkg => exact ⟨_, rfl⟩
    | uvPip package => exact ⟨_, rfl⟩
    | downloadInstaller url fileName => exact ⟨_, rfl⟩
    | githubRelease repo assetPattern layout => exact ⟨_, rfl⟩
    | windowsFeature feature reboot => exact ⟨_, rfl⟩
    | wslDistro distro => exact ⟨_, rfl⟩
    | bundle steps =>
      have bundle := bundle_of_selected selected
      refine exists_foldlM 0 (fun stepId step sum => ?_)
      split_ifs
      · exact ⟨sum, rfl⟩
      · exact ⟨sum, rfl⟩
      · cases found : c.byId stepId with
        | none => exact ⟨sum, rfl⟩
        | some stepRecipe =>
          obtain ⟨inside, same⟩ := byId_mem found
          have leads : c.LeadsTo r.id stepRecipe.id := by
            refine ⟨r, member, rfl, mem_append_right _ ?_⟩
            rw [bundle, same]
            exact step
          have fewer := below_lt acyclic known leads
          obtain ⟨n, ran⟩ := ih inside (by omega)
          exact ⟨sum + n, by simp only [ran, Option.map_some]⟩

end Termination

section Order
variable {c : Catalog} {detected : List Char → Bool} {options : Option InstallOptions}
  {target : List Char}

lemma mem_effectiveNeeds {r : Recipe} {options : Option InstallOptions} {need : List Char}
    (member : need ∈ effectiveNeedsFor r options) :
    need ∈ r.needs ∨ need = chocolateyId ∨ need = nodeBundleId := by
  rw [effectiveNeedsFor] at member
  split_ifs at member
  · rcases mem_append.mp (mem_eraseDups.mp member) with kept | added
    · exact .inl (mem_filter.mp kept).1
    · exact .inr (.inl (mem_singleton.mp added))
  · rcases mem_append.mp (mem_eraseDups.mp member) with kept | added
    · exact .inl (mem_filter.mp kept).1
    · exact .inr (.inr (mem_singleton.mp added))
  · exact .inl (mem_filter.mp member).1
  · exact .inl member

lemma followed_ne_none {id : List Char} :
    followed c detected options target id ≠ none ↔ id ∈ c.ids := by
  rw [followed, Ne, Option.map_eq_none_iff, byId_eq_none, not_not]

variable {a b : List Char} {order : List (List Char)} {fuel : Nat} {plan : InstallPlan}

lemma leads_iff (distinct : c.ids.Nodup) :
    Leads (followed c detected options target) a b ↔ NeedsFirst c detected options target a b := by
  rw [Leads, followed]
  constructor
  · rintro ⟨ys, at_a, member⟩
    obtain ⟨r, found, rfl⟩ := Option.map_eq_some_iff.mp at_a
    obtain ⟨inside, same⟩ := byId_mem found
    split_ifs at member with hidden
    · exact absurd member not_mem_nil
    · refine ⟨r, inside, same, ?_, member⟩
      rw [not_and_or, not_not, Bool.not_eq_true] at hidden
      exact hidden
  · rintro ⟨r, inside, rfl, open_, member⟩
    refine ⟨_, by rw [byId_of_mem distinct inside, Option.map_some], ?_⟩
    rw [if_neg]
    · exact member
    · rintro ⟨other, installed⟩
      rcases open_ with same | absent
      · exact other same
      · rw [absent] at installed
        cases installed

lemma leads_eq (distinct : c.ids.Nodup) :
    Leads (followed c detected options target) = NeedsFirst c detected options target := by
  funext a b
  exact propext (leads_iff distinct)

def nodes (c : Catalog) : Finset (List Char) :=
  insert chocolateyId (insert nodeBundleId c.ids.toFinset)

lemma nodes_card : (nodes c).card ≤ c.recipes.length + 2 := by
  have first := Finset.card_insert_le chocolateyId (insert nodeBundleId c.ids.toFinset)
  have second := Finset.card_insert_le nodeBundleId c.ids.toFinset
  have third := toFinset_card_le c.ids
  have length : c.ids.length = c.recipes.length := length_map _
  rw [nodes]
  omega

lemma nodes_inside (known : c.TargetsKnown) (distinct : c.ids.Nodup) (x y : List Char)
    (leads : Leads (followed c detected options target) x y) : y ∈ nodes c := by
  obtain ⟨r, member, -, -, need⟩ := (leads_iff distinct).mp leads
  rcases mem_effectiveNeeds need with own | rfl | rfl
  · have inside := known r member y (mem_append_left _ own)
    exact Finset.mem_insert_of_mem (Finset.mem_insert_of_mem (mem_toFinset.mpr inside))
  · exact Finset.mem_insert_self _ _
  · exact Finset.mem_insert_of_mem (Finset.mem_insert_self _ _)

/-- A circle of needs that the catalog does not have goes through an added one. -/
lemma addedNeed_of_cycle (acyclic : Acyclic c.LeadsTo)
    (reached : ReflTransGen (NeedsFirst c detected options target) target a)
    (needs : NeedsFirst c detected options target a b)
    (back : ReflTransGen (NeedsFirst c detected options target) b a) :
    AddedNeedLeadsBack c detected options target := by
  by_contra never
  have own : ∀ {x y}, ReflTransGen (NeedsFirst c detected options target) a x →
      NeedsFirst c detected options target x y →
      ReflTransGen (NeedsFirst c detected options target) y a → c.LeadsTo x y := by
    rintro x y there ⟨r, member, rfl, open_, need⟩ return_
    refine ⟨r, member, rfl, mem_append_left _ ?_⟩
    by_contra added
    exact never ⟨r, member, reached.trans there, open_, y, need, added, return_.trans there⟩
  have path : ∀ {z}, ReflTransGen (NeedsFirst c detected options target) z a →
      ReflTransGen (NeedsFirst c detected options target) a z → ReflTransGen c.LeadsTo z a := by
    intro z return_
    induction return_ using ReflTransGen.head_induction_on with
    | refl => exact fun _ => .refl
    | head step rest ih =>
      intro there
      exact (ih (there.tail step)).head (own there step rest)
  exact acyclic a (TransGen.head' (own .refl needs back) (path back (.single needs)))

lemma planSteps_mem {step : PlanStep} (member : step ∈ planSteps c target order) :
    step.recipe ∈ c.recipes := by
  obtain ⟨r, listed, rfl⟩ := mem_map.mp member
  obtain ⟨id, -, found⟩ := mem_filterMap.mp listed
  exact (byId_mem found).1

lemma planSteps_ids (known : ∀ id ∈ order, id ∈ c.ids) :
    (planSteps c target order).map (fun step => step.recipe.id) = order := by
  induction order with
  | nil => rfl
  | cons id order ih =>
    obtain ⟨here, rest⟩ := forall_mem_cons.mp known
    obtain ⟨r, found⟩ := exists_byId here
    rw [planSteps, filterMap_cons_some found, map_cons, map_cons]
    exact congrArg₂ _ (byId_mem found).2 (ih rest)

lemma uacPromptEstimate_ends (detected : List Char → Bool) (options : Option InstallOptions)
    (target : List Char) (acyclic : Acyclic c.LeadsTo) (known : c.TargetsKnown)
    (toLowerCase : List Char → List Char) (enough : c.recipes.length < fuel)
    {actionable : List PlanStep} (recipes : ∀ step ∈ actionable, step.recipe ∈ c.recipes) :
    ∃ n, uacPromptEstimate c detected options target toLowerCase fuel actionable = some n := by
  refine exists_foldlM 0 (fun step member sum => ?_)
  have bound : (below c step.recipe.id).card < fuel :=
    Nat.lt_of_le_of_lt (below_card_le step.recipe.id) enough
  obtain ⟨n, ran⟩ := estimate_ends acyclic known toLowerCase detected
    (actionable.map (fun step => step.recipe.id)) (optionsFor options target step.recipe.id)
    (recipes step member) bound
  exact ⟨sum + n, by rw [ran, Option.map_some]⟩

lemma exists_plan (detected : List Char → Bool) (options : Option InstallOptions)
    (known : c.TargetsKnown) (distinct : c.ids.Nodup) (acyclic : Acyclic c.LeadsTo)
    (inside : target ∈ c.ids) (toLowerCase : List Char → List Char)
    (enough : c.recipes.length + 2 < fuel) :
    ∃ plan, resolveInstallPlan c detected options target toLowerCase fuel = some plan ∧
      (∀ step ∈ plan.steps, step.recipe ∈ c.recipes) ∧
      Plan (followed c detected options target) target plan.ids := by
  have few : (nodes c).card < fuel := Nat.lt_of_le_of_lt nodes_card enough
  have root : target ∈ nodes c :=
    Finset.mem_insert_of_mem (Finset.mem_insert_of_mem (mem_toFinset.mpr inside))
  have visited : ∃ s, visit (followed c detected options target) fuel ⟨[], []⟩ target = some s ∧
      Plan (followed c detected options target) target s.order :=
    visit_plan (fun x _ y leads => nodes_inside known distinct x y leads) root few
  obtain ⟨s, ran, plan⟩ := visited
  have recipes : ∀ step ∈ planSteps c target s.order, step.recipe ∈ c.recipes :=
    fun step => planSteps_mem
  have actionable : ∀ step ∈ actionableSteps detected target (planSteps c target s.order),
      step.recipe ∈ c.recipes := fun step member => recipes step (mem_filter.mp member).1
  obtain ⟨n, estimated⟩ := uacPromptEstimate_ends detected options target acyclic known toLowerCase
    (by omega : c.recipes.length < fuel) actionable
  refine ⟨⟨planSteps c target s.order,
    actionableSteps detected target (planSteps c target s.order), n⟩, ?_, recipes, ?_⟩
  · rw [resolveInstallPlan]
    refine Option.bind_eq_some_iff.mpr ⟨s, ran, ?_⟩
    exact Option.bind_eq_some_iff.mpr ⟨n, estimated, rfl⟩
  · rw [InstallPlan.ids, planSteps_ids (fun id member => followed_ne_none.mp
      ((plan.mem id).mp member).1)]
    exact plan

lemma complete_of_plan (distinct : c.ids.Nodup) (inside : target ∈ c.ids)
    (recipes : ∀ step ∈ plan.steps, step.recipe ∈ c.recipes)
    (listed : Plan (followed c detected options target) target plan.ids) :
    Complete c detected options target plan where
  distinct := listed.distinct
  last := by
    obtain ⟨front, same⟩ := listed.last (followed_ne_none.mpr inside)
    rw [same, getLast?_concat]
  recipes := recipes
  reached id known path := by
    refine (listed.mem id).mpr ⟨followed_ne_none.mpr known, ?_⟩
    rw [leads_eq distinct]
    exact path

lemma inOrder_iff_dependencyFirst (distinct : c.ids.Nodup)
    (recipes : ∀ step ∈ plan.steps, step.recipe ∈ c.recipes) :
    InOrder c detected options target plan ↔
      DependencyFirst (followed c detected options target) plan.ids := by
  constructor
  · intro order x member y leads known
    obtain ⟨r, inside, rfl, unhidden, need⟩ := (leads_iff distinct).mp leads
    obtain ⟨step, listed, same⟩ := mem_map.mp member
    have recipe : step.recipe = r := inj_on_of_nodup_map distinct (recipes step listed) inside same
    subst recipe
    exact order step listed unhidden y need (followed_ne_none.mp known)
  · intro first step listed unhidden need needed known
    refine first step.recipe.id (mem_map_of_mem listed) need ?_ (followed_ne_none.mpr known)
    exact (leads_iff distinct).mpr ⟨step.recipe, recipes step listed, rfl, unhidden, needed⟩

lemma inOrder_iff (distinct : c.ids.Nodup) (acyclic : Acyclic c.LeadsTo)
    (recipes : ∀ step ∈ plan.steps, step.recipe ∈ c.recipes)
    (listed : Plan (followed c detected options target) target plan.ids) :
    InOrder c detected options target plan ↔ ¬ AddedNeedLeadsBack c detected options target := by
  rw [inOrder_iff_dependencyFirst distinct recipes, listed.dependencyFirst_iff, leads_eq distinct]
  have mem := listed.mem
  rw [leads_eq distinct] at mem
  constructor
  · rintro apart ⟨r, member, reached, unhidden, need, needed, -, back⟩
    have inside : r.id ∈ c.ids := mem_map_of_mem member
    exact apart r.id ((mem r.id).mpr ⟨followed_ne_none.mpr inside, reached⟩) need
      ⟨r, member, rfl, unhidden, needed⟩ back
  · intro never x member y needs back
    exact never (addedNeed_of_cycle acyclic ((mem x).mp member).2 needs back)

end Order

/-- A plan is always made, and it lists what it should; it is in order exactly when no need
that a provider adds leads back to the recipe that got it. -/
theorem resolveInstallPlan_inOrder_iff (c : Catalog) (detected : List Char → Bool)
    (options : Option InstallOptions) (target : List Char) (toLowerCase : List Char → List Char)
    (validating fuel : Nat) (bound : c.recipes.length < validating)
    (accepted : c.validate validating = .ok ()) (inside : target ∈ c.ids)
    (enough : c.recipes.length + 2 < fuel) :
    ∃ plan, resolveInstallPlan c detected options target toLowerCase fuel = some plan ∧
      Complete c detected options target plan ∧
      (InOrder c detected options target plan ↔ ¬ AddedNeedLeadsBack c detected options target) ∧
      ∀ r ∈ c.recipes, ∀ options actionableIds, ∃ n, estimateUacPromptsFor toLowerCase c.byId
        detected actionableIds fuel r options = some n := by
  obtain ⟨distinct, known, acyclic⟩ := of_validate bound accepted
  obtain ⟨plan, made, recipes, listed⟩ :=
    exists_plan detected options known distinct acyclic inside toLowerCase enough
  refine ⟨plan, made, complete_of_plan distinct inside recipes listed,
    inOrder_iff distinct acyclic recipes listed, fun r member options actionableIds => ?_⟩
  have bound : (below c r.id).card ≤ c.recipes.length := below_card_le r.id
  exact estimate_ends acyclic known toLowerCase detected actionableIds options member (by omega)

/-- The recipe of the Chocolatey client, which Chocolatey can install as well. -/
def withChocolatey : Catalog :=
  ⟨2, [⟨wingetId, [], .downloadInstaller "https://aka.ms".toList "winget".toList, none, none, none⟩,
    ⟨chocolateyId, [wingetId], .winget "Chocolatey.Chocolatey".toList, none,
      some (.chocolatey chocolateyId), none⟩]⟩

theorem resolveInstallPlan_inOrder_iff_default :
    ∃ plan, resolveInstallPlan withChocolatey (fun _ => false) none chocolateyId
      (List.map Char.toLower) 5 = some plan ∧
      Complete withChocolatey (fun _ => false) none chocolateyId plan ∧
      InOrder withChocolatey (fun _ => false) none chocolateyId plan := by
  obtain ⟨plan, made, complete, inOrder, -⟩ := resolveInstallPlan_inOrder_iff withChocolatey
    (fun _ => false) none chocolateyId (map Char.toLower) 3 5 (by decide) (by rfl) (by decide)
    (by decide)
  have own : ∀ r ∈ withChocolatey.recipes, effectiveNeedsFor r none = r.needs := by decide
  refine ⟨plan, made, complete, inOrder.mpr ?_⟩
  rintro ⟨r, member, -, -, need, needed, added, -⟩
  rw [optionsFor, ite_self, own r member] at needed
  exact added needed

/-- Installing Chocolatey through Chocolatey needs Chocolatey before itself. -/
theorem chocolatey_before_itself :
    withChocolatey.validate 3 = .ok () ∧ chocolateyId ∈ withChocolatey.ids ∧
    ∃ plan, resolveInstallPlan withChocolatey (fun _ => false) (some ⟨none, some .chocolatey⟩)
      chocolateyId (List.map Char.toLower) 5 = some plan ∧
      ¬ InOrder withChocolatey (fun _ => false) (some ⟨none, some .chocolatey⟩) chocolateyId plan := by
  refine ⟨by rfl, by decide, _, rfl, fun order => ?_⟩
  have before := order ⟨_, false⟩ mem_cons_self (.inl rfl) chocolateyId (by decide) (by decide)
  have less := before.idxOf_lt (by decide)
  exact Nat.lt_irrefl _ less

end Installer
