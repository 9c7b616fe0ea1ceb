import KKTerm.Library.Fallible
import KKTerm.SystemCleaner.Execution
import Mathlib.Data.List.Sort

/-!
# Building a cleanup plan

A recipe names folders by a variable and a path that may hold wildcards. The preview walks
these folders and lists the regular files that nothing protects.
-/

namespace SystemCleaner

open Fallible Text

def maxPlanItems : Nat := 250000

structure CleanerTarget where
  path : List Char
  filePatterns : List (List Char)
  recursive : Bool

/-- The part of a recipe that a plan is built from. -/
structure CleanerRecipe where
  id : List Char
  version : Nat
  targets : List CleanerTarget
  excludes : List (List Char)
  runningProcesses : List (List Char)

/-- A name of a path that is still to be checked. -/
inductive Component where
  | normal (name : List Char)
  | curDir
  | parentDir
  | rootOrPrefix
  deriving DecidableEq

def isDrive (name : List Char) : Bool :=
  match name with
  | letter :: ':' :: _ => isAsciiAlphabetic letter
  | _ => false

/-- The names of a path that does not begin with a separator; a dot counts at the front only. -/
def suffixComponents (suffix : List Char) : List Component :=
  let names := (suffix.splitOnP isSeparator).filter (fun name => !name.isEmpty)
  let component (name : List Char) : Component :=
    if name = "..".toList then .parentDir else .normal name
  let later (names : List (List Char)) : List Component :=
    (names.filter (fun name => name != ['.'])).map component
  match names with
  | [] => []
  | first :: rest =>
    if first = ['.'] then .curDir :: later rest
    else if isDrive first then .rootOrPrefix :: later rest
    else component first :: later rest

/-- A name appended to a path; a name that begins with a drive replaces it. -/
def push (base : Path) (name : List Char) : Path :=
  if isDrive name then name else join base name

def expandTemplate (environment : Environment) (template : List Char) :
    Except (List Char) Path :=
  match backslashes template with
  | '%' :: rest =>
    match splitOnce '%' rest with
    | none => .error "Target environment variable is not closed.".toList
    | some (variableName, suffix) =>
      match envValue environment variableName with
      | none =>
        .error ("Unsupported target environment variable %".toList ++ variableName ++
          "%.".toList)
      | some base =>
        (suffixComponents (suffix.dropWhile (fun c => c = '\\'))).foldlM
          (fun base component =>
            match component with
            | .normal name => .ok (push base name)
            | .curDir => .ok base
            | _ => .error "Targets cannot contain parent or rooted path components.".toList)
          base
  | _ => .error "Targets must start with a supported environment variable.".toList

/-- The loop of the match: what is left of the pattern and of the value, and where to go on
after the last star when they do not fit. -/
def wildcardLoop : Nat → List UInt8 → List UInt8 → Option (List UInt8 × List UInt8) → Bool
  | 0, _, _, _ => false
  | fuel + 1, pattern, value, star =>
    match value with
    | [] => pattern.all (fun b => b = 0x2a)
    | v :: value' =>
      match pattern with
      | p :: pattern' =>
        if p = 0x3f ∨ p = v then wildcardLoop fuel pattern' value' star
        else if p = 0x2a then wildcardLoop fuel pattern' value (some (pattern', value))
        else
          match star with
          | some (afterStar, _ :: retry) =>
            wildcardLoop fuel afterStar retry (some (afterStar, retry))
          | _ => false
      | [] =>
        match star with
        | some (afterStar, _ :: retry) =>
          wildcardLoop fuel afterStar retry (some (afterStar, retry))
        | _ => false

/-- Between two retries the loop goes through the pattern at most once, and a retry begins at
a later place of the value than the one before. -/
def wildcardMatch (pattern value : List Char) : Bool :=
  let pattern := (asciiLower pattern).flatMap String.utf8EncodeChar
  let value := (asciiLower value).flatMap String.utf8EncodeChar
  wildcardLoop ((pattern.length + 1) * (value.length + 1) + 1) pattern value none

def hasWildcard (name : List Char) : Bool :=
  name.any (fun c => c = '*' || c = '?')

def isPlainDirectory (fs : FileSystem) (path : Path) : Bool :=
  match fs.symlinkMetadata path with
  | .ok metadata => metadata.isDir && !metadata.isReparse
  | .error _ => false

/-- One more name below each of the directories found so far. -/
def expandComponent (fs : FileSystem) (candidates : List Path) (name : List Char) : List Path :=
  candidates.flatMap (fun parent =>
    if hasWildcard name then
      ((fs.readDir parent).getD []).filterMap (fun entry =>
        let path := join parent entry
        if wildcardMatch name entry && isPlainDirectory fs path then some path else none)
    else
      let path := join parent name
      if isPlainDirectory fs path then [path] else [])

def expandWildcardDirectories (environment : Environment) (fs : FileSystem)
    (template : List Char) : Except (List Char) (List Path) := do
  let expanded ← expandTemplate environment template
  let names := components expanded
  if names.any hasWildcard then
    let fixed := names.takeWhile (fun name => !hasWildcard name)
    .ok ((names.drop fixed.length).foldl (expandComponent fs) [fixed.foldl join []])
  else .ok [expanded]

def matchesExclusion (path : Path) (recipe : CleanerRecipe) (keepPaths : List Path) : Bool :=
  keepPaths.any (pathWithin path) ||
    recipe.excludes.any (fun pattern => wildcardMatch (backslashes pattern) (backslashes path))

/-- The directories still to be read, the last one first, and what was found. -/
structure Scan where
  work : List Path
  output : List CachedPlanItem
  excluded : Nat

def scanEntry (environment : Environment) (fs : FileSystem) (recipe : CleanerRecipe)
    (target : CleanerTarget) (keepPaths : List Path) (canonicalRoot directory : Path) (s : Scan)
    (entry : List Char) : Except (List Char) Scan :=
  if s.output.length ≥ maxPlanItems then
    .error "Cleanup preview exceeds the 250000-file safety limit.".toList
  else
    let path := join directory entry
    match fs.symlinkMetadata path with
    | .error _ => .ok s
    | .ok metadata =>
      if metadata.isReparse then .ok { s with excluded := saturatingAdd s.excluded 1 }
      else if metadata.isDir then
        .ok (if target.recursive then { s with work := path :: s.work } else s)
      else if !metadata.isFile then .ok s
      else if !target.filePatterns.isEmpty &&
          !target.filePatterns.any (fun pattern => wildcardMatch pattern entry) then .ok s
      else if isProtected environment path || matchesExclusion path recipe keepPaths then
        .ok { s with excluded := saturatingAdd s.excluded 1 }
      else
        .ok { s with
          output := s.output ++
            [{ shown :=
                { recipeId := recipe.id
                  path
                  bytes := metadata.len
                  modifiedUnixMs := metadata.modifiedMs
                  fileId := fs.fileIdentity path }
               targetRoot := canonicalRoot }] }

/-- The walk below one root; `none` when the fuel is used up. -/
def scanRoot (environment : Environment) (fs : FileSystem) (recipe : CleanerRecipe)
    (target : CleanerTarget) (keepPaths : List Path) (canonicalRoot : Path) :
    Nat → Scan → Option (Except (List Char) Scan)
  | 0, _ => none
  | fuel + 1, s =>
    match s.work with
    | [] => some (.ok s)
    | directory :: work =>
      match ((fs.readDir directory).getD []).foldlM
          (scanEntry environment fs recipe target keepPaths canonicalRoot directory)
          { s with work } with
      | .error error => some (.error error)
      | .ok s' => scanRoot environment fs recipe target keepPaths canonicalRoot fuel s'

/-- The canonical path of a root, or the root itself where it has none. -/
def canonicalRoot (fs : FileSystem) (root : Path) : Path :=
  (fs.canonicalize root).getD root

def outOfFuel : List Char :=
  "out of fuel".toList

/-- The files below one root of a target. -/
def collectRoot (environment : Environment) (fs : FileSystem) (fuel : Nat)
    (recipe : CleanerRecipe) (target : CleanerTarget) (keepPaths : List Path) (s : Scan)
    (root : Path) : Except (List Char) Scan :=
  if isPlainDirectory fs root then
    (scanRoot environment fs recipe target keepPaths (canonicalRoot fs root) fuel
      { s with work := [root] }).getD (.error outOfFuel)
  else .ok s

def collectTargetFiles (environment : Environment) (fs : FileSystem) (fuel : Nat)
    (recipe : CleanerRecipe) (keepPaths : List Path) (s : Scan) (target : CleanerTarget) :
    Except (List Char) Scan := do
  let roots ← expandWildcardDirectories environment fs target.path
  roots.foldlM (collectRoot environment fs fuel recipe target keepPaths) s

def insertKey {β : Type} (entries : List (List Char × β)) (key : List Char) (value : β) :
    List (List Char × β) :=
  entries.filter (fun entry => entry.1 != key) ++ [(key, value)]

def recipeBlockers (running : List (List Char)) (recipe : CleanerRecipe) : List (List Char) :=
  recipe.runningProcesses.filter (fun process => running.contains (asciiLower process))

def keepNew (kept : List CachedPlanItem) (item : CachedPlanItem) : List CachedPlanItem :=
  if kept.any (fun other => normalize other.shown.path == normalize item.shown.path) then kept
  else kept ++ [item]

/-- The first item of each path, up to the spelling of the path. -/
def retainUnique (items : List CachedPlanItem) : List CachedPlanItem :=
  items.foldl keepNew []

/-- What the plan is stamped with: the time and the token made of it. -/
structure Stamp where
  createdAt : List Char
  token : List (List Char × Nat) → List (Path × Nat × Nat) → List Char

def buildCachedPlan (environment : Environment) (fs : FileSystem) (fuel : Nat) (stamp : Stamp)
    (running : List (List Char)) (recipes : List CleanerRecipe) (selectedIds : List (List Char))
    (keepPaths : List Path) : Except (List Char) CachedPlan := do
  let chosen := recipes.filter (fun recipe => selectedIds.contains recipe.id)
  let scan ← chosen.foldlM (fun s recipe =>
    recipe.targets.foldlM (collectTargetFiles environment fs fuel recipe keepPaths) s) ⟨[], [], 0⟩
  let items := (retainUnique scan.output).insertionSort
    (fun a b => ¬ precedes b.shown.path a.shown.path)
  let versions := chosen.foldl (fun versions recipe => insertKey versions recipe.id recipe.version) []
  .ok
    { shown :=
        { token := stamp.token versions (items.map (fun item =>
            (item.shown.path, item.shown.bytes, item.shown.modifiedUnixMs)))
          createdAt := stamp.createdAt
          totalBytes := (items.map (fun item => item.shown.bytes)).foldl saturatingAdd 0
          excludedItems := scan.excluded
          items := items.map CachedPlanItem.shown
          recipeVersions := versions
          blockedProcesses := ((chosen.flatMap (recipeBlockers running)).dedup).insertionSort
            (fun a b => ¬ precedes b a) }
      items
      recipeProcesses := chosen.foldl (fun processes recipe =>
        insertKey processes recipe.id recipe.runningProcesses) [] }

end SystemCleaner

/-!
# What a cleanup deletes

Every deleted file was listed by the preview, has not changed since, and lies in the folder of
a selected recipe. Whether personal data is safe is decided on the path as it is written, so
it depends on the links on the way.
-/

namespace SystemCleaner

open Fallible List

variable {environment : Environment} {fs : FileSystem} {fuel : Nat} {stamp : Stamp}
  {running : List (List Char)} {recipes : List CleanerRecipe} {selectedIds : List (List Char)}
  {keepPaths : List Path} {plan : CachedPlan}

/-- The root of an item is the canonical root of a target of its recipe. -/
def HasTarget (environment : Environment) (fs : FileSystem) (recipe : CleanerRecipe)
    (item : CachedPlanItem) : Prop :=
  recipe.id = item.shown.recipeId ∧ ∃ target ∈ recipe.targets, ∃ roots,
    expandWildcardDirectories environment fs target.path = .ok roots ∧
      ∃ root ∈ roots, item.targetRoot = canonicalRoot fs root

def Listed (environment : Environment) (fs : FileSystem) (recipes : List CleanerRecipe)
    (selectedIds : List (List Char)) (item : CachedPlanItem) : Prop :=
  ∃ recipe ∈ recipes, recipe.id ∈ selectedIds ∧ HasTarget environment fs recipe item

section Preview

variable {recipe : CleanerRecipe} {target : CleanerTarget} {P : CachedPlanItem → Prop}

variable {root : Path} {s s' : Scan}

lemma scanEntry_output {directory : Path} {entry : List Char}
    (h : scanEntry environment fs recipe target keepPaths root directory s entry = .ok s') :
    s'.output = s.output ∨ ∃ item, s'.output = s.output ++ [item] ∧
      item.shown.recipeId = recipe.id ∧ item.targetRoot = root := by
  unfold scanEntry at h
  split at h
  · cases h
  simp only at h
  split at h
  · cases h
    exact .inl rfl
  · split_ifs at h <;> cases h
    any_goals exact .inl rfl
    exact .inr ⟨_, rfl, rfl, rfl⟩

lemma scanRoot_output
    (lists : ∀ item, item.shown.recipeId = recipe.id → item.targetRoot = root → P item) {fuel : Nat}
    (kept : ∀ item ∈ s.output, P item)
    (h : scanRoot environment fs recipe target keepPaths root fuel s = some (.ok s')) :
    ∀ item ∈ s'.output, P item := by
  induction fuel generalizing s with
  | zero => cases h
  | succ fuel ih =>
    rw [scanRoot] at h
    split at h
    · cases h
      exact kept
    · rename_i directory work working
      split at h
      · cases h
      · rename_i s₁ folded
        refine ih ?_ h
        refine foldlM_invariant (P := fun t : Scan => ∀ item ∈ t.output, P item) ?_ folded kept
        intro t entry t' _ scanned listed
        rcases scanEntry_output scanned with same | ⟨item, more, id, at_root⟩
        · rwa [same]
        · rw [more, forall_mem_append, forall_mem_singleton]
          exact ⟨listed, lists item id at_root⟩

lemma collectTargetFiles_output (member : target ∈ recipe.targets)
    (lists : ∀ item, HasTarget environment fs recipe item → P item)
    (kept : ∀ item ∈ s.output, P item)
    (h : collectTargetFiles environment fs fuel recipe keepPaths s target = .ok s') :
    ∀ item ∈ s'.output, P item := by
  obtain ⟨roots, expanded, folded⟩ := bind_eq_ok.mp h
  refine foldlM_invariant (P := fun t : Scan => ∀ item ∈ t.output, P item) ?_ folded kept
  intro t root t' root_mem collected listed
  unfold collectRoot at collected
  split at collected
  · cases walked : scanRoot environment fs recipe target keepPaths (canonicalRoot fs root) fuel
      { t with work := [root] } with
    | none =>
      rw [walked] at collected
      cases collected
    | some outcome =>
      rw [walked, Option.getD_some] at collected
      rw [collected] at walked
      refine scanRoot_output ?_ ?_ walked
      · exact fun item id at_root =>
          lists item ⟨id.symm, target, member, roots, expanded, root, root_mem, at_root⟩
      · exact listed
  · cases collected
    exact listed

end Preview

lemma mem_retainUnique {items : List CachedPlanItem} {item : CachedPlanItem}
    (h : item ∈ retainUnique items) : item ∈ items := by
  induction items using reverseRecOn with
  | nil => exact h
  | append_singleton items last ih =>
    rw [retainUnique, foldl_concat, keepNew] at h
    split at h
    · exact mem_append_left _ (ih h)
    · rcases mem_append.mp h with earlier | new
      · exact mem_append_left _ (ih earlier)
      · exact mem_append_right _ new

/-- A plan lists files of the selected recipes only, and shows what it will delete. -/
lemma listed_of_build (h : buildCachedPlan environment fs fuel stamp running recipes selectedIds
    keepPaths = .ok plan) :
    plan.shown.items = plan.items.map CachedPlanItem.shown ∧
      ∀ item ∈ plan.items, Listed environment fs recipes selectedIds item := by
  obtain ⟨scan, folded, built⟩ := bind_eq_ok.mp h
  cases built
  refine ⟨rfl, fun item member => ?_⟩
  have found := mem_retainUnique ((mem_insertionSort _).mp member)
  have all_listed : ∀ item ∈ scan.output, Listed environment fs recipes selectedIds item := by
    refine foldlM_invariant (P := fun t : Scan => ∀ item ∈ t.output,
      Listed environment fs recipes selectedIds item) ?_ folded ?_
    · intro t recipe t' chosen scanned listed
      obtain ⟨recipe_mem, wanted⟩ := mem_filter.mp chosen
      refine foldlM_invariant (P := fun t : Scan => ∀ item ∈ t.output,
        Listed environment fs recipes selectedIds item) ?_ scanned listed
      intro u target u' target_mem collected kept
      exact collectTargetFiles_output target_mem
        (fun item has_target => ⟨recipe, recipe_mem, contains_iff_mem.mp wanted, has_target⟩)
        kept collected
    · intro item none_yet
      cases none_yet
  exact all_listed item found

section Execution

variable {m : Moment} {item : CachedPlanItem} {blocked : List (List Char)}

/-- The file system shows the file that the preview showed. -/
structure Unchanged (fs : FileSystem) (item : CachedPlanItem) : Prop where
  regular : ∃ metadata, fs.symlinkMetadata item.shown.path = .ok metadata ∧
    metadata.isFile = true ∧ metadata.isReparse = false ∧ metadata.len = item.shown.bytes ∧
    metadata.modifiedMs / 1000 = item.shown.modifiedUnixMs / 1000
  identity : item.shown.fileId ≠ 0 → fs.fileIdentity item.shown.path = item.shown.fileId

lemma validatePlanItem_ok {metadata : Metadata}
    (h : validatePlanItem environment fs item [] = .ok metadata) :
    isProtected environment item.shown.path = false ∧ Unchanged fs item ∧
      ∃ canonical, fs.canonicalize item.shown.path = some canonical ∧
        pathWithin canonical item.targetRoot = true := by
  unfold validatePlanItem at h
  simp only [any_nil, Bool.or_false] at h
  split at h
  · cases h
  rename_i unprotected
  split at h
  · cases h
  rename_i metadata' stat
  split at h
  · cases h
  rename_i regular
  split at h
  · cases h
  rename_i canonical resolved
  split at h
  · cases h
  rename_i same
  simp only [Bool.or_eq_true, Bool.not_eq_true', bne_iff_ne, ne_eq, Bool.and_eq_true,
    not_or, not_and, Decidable.not_not] at same regular
  obtain ⟨⟨⟨inside, len⟩, modified⟩, identity⟩ := same
  refine ⟨Bool.eq_false_iff.mpr unprotected, ⟨⟨metadata', stat, ?_, ?_, len, modified⟩, identity⟩,
    canonical, resolved, ?_⟩
  · simpa using regular.1
  · simpa using regular.2
  · simpa using inside

/-- At this moment the item is deleted. -/
structure Deletes (environment : Environment) (blocked : List (List Char)) (flag : Bool)
    (m : Moment) (item : CachedPlanItem) : Prop where
  clear : flag = false
  free : item.shown.recipeId ∉ blocked
  valid : ∃ metadata, validatePlanItem environment m.fs item [] = .ok metadata
  removed : m.removal = .ok ()

/-- The turn of an item: it is deleted, or it is skipped. -/
lemma turn_cases (environment : Environment) (blocked : List (List Char)) (flag : Bool)
    (m : Moment) (item : CachedPlanItem) (t : Tally) :
    (Deletes environment blocked flag m item ∧
      (if flag then cancelItem item t else cleanItem environment blocked m item t) = { t with
          freedBytes := saturatingAdd t.freedBytes item.shown.bytes
          deletedItems := saturatingAdd t.deletedItems 1
          removed := t.removed ++ [(item, m.fs)] }) ∨
    (¬ Deletes environment blocked flag m item ∧ ∃ reason cancelled,
      (if flag then cancelItem item t else cleanItem environment blocked m item t) =
        { t with cancelled := cancelled, skipped := t.skipped ++ [⟨item.shown.path, reason⟩] }) := by
  cases flag with
  | true => exact .inr ⟨fun deletes => Bool.noConfusion deletes.clear, _, _, rfl⟩
  | false =>
    rw [if_neg Bool.false_ne_true, cleanItem]
    split
    · rename_i is_blocked
      exact .inr ⟨fun deletes => deletes.free (contains_iff_mem.mp is_blocked), _, _, rfl⟩
    rename_i is_free
    cases valid : validatePlanItem environment m.fs item [] with
    | error reason =>
      refine Or.inr ⟨fun deletes => ?_, _, _, rfl⟩
      obtain ⟨metadata, ok⟩ := deletes.valid
      rw [valid] at ok
      cases ok
    | ok metadata =>
      cases removal : m.removal with
      | error kind =>
        refine Or.inr ⟨fun deletes => ?_, _, _, rfl⟩
        have removed := deletes.removed
        rw [removal] at removed
        cases removed
      | ok done =>
        exact .inl ⟨⟨rfl, fun member => is_free (contains_iff_mem.mpr member),
          ⟨metadata, valid⟩, removal⟩, rfl⟩

/-- The `j`-th item of the loop is deleted, at its own moment. -/
def DeletedAt (environment : Environment) (blocked : List (List Char)) (flag : Nat → Bool)
    (meets : Nat → Moment) (k : Nat) (todo : List CachedPlanItem)
    (entry : CachedPlanItem × FileSystem) : Prop :=
  ∃ j, todo[j]? = some entry.1 ∧ entry.2 = (meets (k + j)).fs ∧
    Deletes environment blocked (flag (k + j)) (meets (k + j)) entry.1

variable {flag : Nat → Bool} {meets : Nat → Moment}

lemma deletedAt_cons {k : Nat} {todo : List CachedPlanItem} {entry : CachedPlanItem × FileSystem} :
    DeletedAt environment blocked flag meets k (item :: todo) entry ↔
      (entry = (item, (meets k).fs) ∧ Deletes environment blocked (flag k) (meets k) item) ∨
        DeletedAt environment blocked flag meets (k + 1) todo entry := by
  constructor
  · rintro ⟨j, at_j, moment, deletes⟩
    cases j with
    | zero =>
      cases at_j
      exact .inl ⟨Prod.ext rfl moment, deletes⟩
    | succ j =>
      rw [Nat.add_comm j 1, ← Nat.add_assoc] at moment deletes
      exact .inr ⟨j, at_j, moment, deletes⟩
  · rintro (⟨rfl, deletes⟩ | ⟨j, at_j, moment, deletes⟩)
    · exact ⟨0, rfl, rfl, deletes⟩
    · rw [Nat.add_assoc, Nat.add_comm 1 j] at moment deletes
      exact ⟨j + 1, at_j, moment, deletes⟩

variable (k : Nat) (todo : List CachedPlanItem)

variable (environment blocked flag meets) in
/-- The files a run deletes are those of the items that are deleted in their turn. -/
lemma removed_runItems (t : Tally) (entry : CachedPlanItem × FileSystem) :
    entry ∈ (runItems environment blocked flag meets k todo t).removed ↔
      entry ∈ t.removed ∨ DeletedAt environment blocked flag meets k todo entry := by
  induction todo generalizing k t with
  | nil =>
    refine ⟨.inl, ?_⟩
    rintro (kept | ⟨j, at_j, -⟩)
    · exact kept
    · cases at_j
  | cons item todo ih =>
    rw [runItems, ih, deletedAt_cons]
    rcases turn_cases environment blocked (flag k) (meets k) item t with
      ⟨deletes, outcome⟩ | ⟨kept, reason, cancelled, outcome⟩
    · rw [outcome, mem_append, mem_singleton, or_assoc]
      exact or_congr_right (or_congr_left ⟨fun same => ⟨same, deletes⟩, And.left⟩)
    · rw [outcome]
      refine or_congr_right ⟨.inr, ?_⟩
      rintro (⟨-, deletes⟩ | later)
      · exact absurd deletes kept
      · exact later

variable (environment blocked flag meets) in
/-- Every item of the loop is counted once. -/
lemma counted_runItems (t : Tally) :
    ((runItems environment blocked flag meets k todo t).removed.map (fun entry => entry.1.shown.path) ++
      (runItems environment blocked flag meets k todo t).skipped.map CleanupSkip.path).Perm
    (t.removed.map (fun entry => entry.1.shown.path) ++ t.skipped.map CleanupSkip.path ++
      todo.map (fun item => item.shown.path)) := by
  induction todo generalizing k t with
  | nil => rw [runItems, map_nil, append_nil]
  | cons item todo ih =>
    rw [runItems]
    refine (ih _ _).trans ?_
    rcases turn_cases environment blocked (flag k) (meets k) item t with
      ⟨-, outcome⟩ | ⟨-, reason, cancelled, outcome⟩
    · rw [outcome]
      simp only [map_append, map_cons, map_nil, append_assoc]
      refine Perm.append_left _ ?_
      rw [singleton_append]
      exact perm_middle.symm
    · rw [outcome]
      simp [append_assoc]

lemma saturatingAdd_min (a b : Nat) : saturatingAdd (min a u64Max) b = min (a + b) u64Max := by
  rw [saturatingAdd]
  omega

/-- The counters agree with what was deleted. -/
structure Tallied (t : Tally) : Prop where
  freed : t.freedBytes = min ((t.removed.map (fun entry => entry.1.shown.bytes)).sum) u64Max
  deleted : t.deletedItems = min t.removed.length u64Max

variable (environment blocked flag meets) in
lemma tallied_runItems {t : Tally} (h : Tallied t) :
    Tallied (runItems environment blocked flag meets k todo t) := by
  induction todo generalizing k t with
  | nil => exact h
  | cons item todo ih =>
    rw [runItems]
    refine ih _ ?_
    rcases turn_cases environment blocked (flag k) (meets k) item t with
      ⟨-, outcome⟩ | ⟨-, reason, cancelled, outcome⟩
    · rw [outcome]
      constructor
      · change saturatingAdd t.freedBytes item.shown.bytes = _
        rw [h.freed, saturatingAdd_min, map_append, sum_append]
        rfl
      · change saturatingAdd t.deletedItems 1 = _
        rw [h.deleted, saturatingAdd_min, length_append]
        rfl
    · rw [outcome]
      exact ⟨h.freed, h.deleted⟩

end Execution

/-- A canonical path that must not be touched: inside a protected root, compared canonically,
or with a name that is protected wherever it occurs. -/
def Personal (environment : Environment) (fs : FileSystem) (canonical : Path) : Prop :=
  (∃ root ∈ protectedRoots environment, ∃ real, fs.canonicalize root = some real ∧
    pathWithin canonical real = true) ∨ hasProtectedName canonical = true

/-- A deletion of what the preview showed, inside a target of a selected recipe and outside of
everything personal. -/
structure SafeDeletion (environment : Environment) (preview : FileSystem)
    (recipes : List CleanerRecipe) (selectedIds : List (List Char)) (plan : CachedPlan)
    (item : CachedPlanItem) (fs : FileSystem) : Prop where
  planned : item ∈ plan.items ∧ item.shown ∈ plan.shown.items
  unchanged : Unchanged fs item
  inside : ∃ canonical, fs.canonicalize item.shown.path = some canonical ∧
    (∃ recipe ∈ recipes, recipe.id ∈ selectedIds ∧ recipe.id = item.shown.recipeId ∧
      ∃ target ∈ recipe.targets, ∃ roots,
        expandWildcardDirectories environment preview target.path = .ok roots ∧
          ∃ root ∈ roots, pathWithin canonical (canonicalRoot preview root) = true) ∧
    ¬ Personal environment fs canonical

/-- What a cleanup owes: safe deletions, and each item of the filter counted once. -/
structure CleansSafely (environment : Environment) (preview : FileSystem)
    (recipes : List CleanerRecipe) (selectedIds : List (List Char)) (plan : CachedPlan)
    (todo : List CachedPlanItem) (t : Tally) : Prop where
  deletions : ∀ entry ∈ t.removed,
    SafeDeletion environment preview recipes selectedIds plan entry.1 entry.2
  counted : (t.removed.map (fun entry => entry.1.shown.path) ++
    t.skipped.map CleanupSkip.path).Perm (todo.map (fun item => item.shown.path))
  tallied : Tallied t

/-- No item that passes the check again resolves to a personal place. -/
def NoDetour (environment : Environment) (e : Execution) (flag : Nat → Bool)
    (meets : Nat → Moment) : Prop :=
  ∀ k item, e.todo[k]? = some item → Deletes environment e.blocked (flag k) (meets k) item →
    ∀ canonical ∈ (meets k).fs.canonicalize item.shown.path,
      ¬ Personal environment (meets k).fs canonical

lemma startUp_ok {call : Call} {e : Execution} (h : startUp call = .ok e) :
    call.cached = some e.plan ∧
      e.todo = e.plan.items.filter (selected (call.retryPaths.map (map normalize))) := by
  unfold startUp at h
  split at h
  · cases h
  rename_i plan cached
  split at h
  · cases h
  split at h
  · cases h
  cases h
  exact ⟨cached, rfl⟩

section Example

def profile : Environment := fun name =>
  if name = "USERPROFILE".toList then some "C:\\U".toList
  else if name = "LOCALAPPDATA".toList then some "C:\\U\\L".toList
  else none

def file : Metadata := ⟨false, true, false, 3, 0⟩

def directory : Metadata := ⟨true, false, false, 0, 0⟩

def link : Metadata := ⟨true, false, true, 0, 0⟩

/-- Below `C:\U\L\pip`, which is a link to `C:\U\Documents`, there is one file. -/
def linked : FileSystem where
  symlinkMetadata path :=
    if path = "C:\\U\\L\\pip\\Cache\\a".toList then .ok file
    else if path = "C:\\U\\L\\pip".toList then .ok link
    else .ok directory
  canonicalize path :=
    some ("\\\\?\\".toList ++
      (if "C:\\U\\L\\pip".toList.isPrefixOf path then
        "C:\\U\\Documents".toList ++ path.drop 10
      else path))
  fileIdentity _ := 0
  readDir path := if path = "C:\\U\\L\\pip\\Cache".toList then some ["a".toList] else some []

def plain : FileSystem :=
  { linked with canonicalize := fun path => some ("\\\\?\\".toList ++ path) }

def pipCache : CleanerRecipe :=
  ⟨"pip-cache".toList, 1, [⟨"%LOCALAPPDATA%/pip/Cache".toList, [], true⟩], [], []⟩

def cacheFile (root : Path) : CachedPlanItem :=
  ⟨⟨"pip-cache".toList, "C:\\U\\L\\pip\\Cache\\a".toList, 3, 0, 0⟩, root⟩

def cachePlan (root : Path) : CachedPlan :=
  { shown := ⟨"token".toList, "now".toList, 3, 0, [(cacheFile root).shown],
      [("pip-cache".toList, 1)], []⟩
    items := [cacheFile root]
    recipeProcesses := [("pip-cache".toList, [])] }

def stamped : Stamp :=
  ⟨"now".toList, fun _ _ => "token".toList⟩

def cleanCache (root : Path) : Call :=
  ⟨some (cachePlan root), 0, fun _ => some 0, [], none⟩

def documentsCache : Path := "\\\\?\\C:\\U\\Documents\\Cache".toList

def plainCache : Path := "\\\\?\\C:\\U\\L\\pip\\Cache".toList

def cleaning (root : Path) : Execution :=
  ⟨cachePlan root, false, [cacheFile root], []⟩

end Example

end SystemCleaner
