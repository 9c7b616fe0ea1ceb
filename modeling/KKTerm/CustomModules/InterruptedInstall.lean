import KKTerm.CustomModules.Install
import Mathlib.Control.Monad.Basic

/-!
# Repeating an interrupted installation

An installation that is stopped before its package directory is in place leaves the records as they
were, so that it can be repeated. From then on the directory keeps it from being repeated, whether
or not the database knows of the version.
-/

namespace CustomModules

open AList InstallError
open List hiding after
open Fallible Mortal Effects

section Meaning
variable {Package : Type} (w : World Package)

/-- The active and the retained versions of installed modules are there. -/
structure Records.Sound (r : Records) : Prop where
  active : ∀ id row, r.modules.lookup id = some row → row.installed = true →
    (∃ version, r.versions.lookup (id, row.activeVersion) = some version ∧
      version.sha256 = row.sha256) ∧ r.packages.lookup (id, row.activeVersion) ≠ none
  previous : ∀ id row retained, r.modules.lookup id = some row → row.installed = true →
    row.previousVersion = some retained → retained ≠ row.activeVersion ∧
      r.versions.lookup (id, retained) ≠ none ∧ r.packages.lookup (id, retained) ≠ none
  /-- Versions are recorded from manifests that have been checked. -/
  valid : ∀ key ∈ r.versions.keys, w.validVersion key.2 = true

/-- The entries of the package can be unpacked: they are not damaged, and none has a directory's
or a file's place that has the other. -/
def Unpacks (entries : List ArchiveEntry) : Prop :=
  ∃ folder, (entries.flatMap extractEntry).foldlM (fun folder change => change folder) ∅ =
    .ok folder

/-- The number of calls before the rename. -/
def preparation (entries : List ArchiveEntry) : Nat :=
  1 + 1 + (entries.flatMap extractEntry).length + 1

/-- The installation succeeds and leaves the records that it leaves without an interruption. -/
def Repeats (c : InstallCall Package) (s interrupted : Store) : Prop :=
  ∃ module, (after (installPackage w c) ⟨interrupted, none⟩).1 = .ok module ∧
    (after (installPackage w c) ⟨s, none⟩).1 = .ok module ∧
    (after (installPackage w c) ⟨interrupted, none⟩).2.state.records =
      (after (installPackage w c) ⟨s, none⟩).2.state.records

end Meaning

section Unpacking
variable {name : Name} {s : Store} {changes : List Change} {folder folder' : Folder}

lemma inStaging_eq (staged : s.staging.lookup name = some folder) (alter : Change) :
    inStaging name alter s = (alter folder).map fun folder => s.setStaging name (some folder) := by
  rw [inStaging, staged]
  change alter folder >>= _ = _
  cases alter folder <;> rfl

lemma lookup_setStaging : (s.setStaging name (some folder)).staging.lookup name = some folder :=
  lookup_insert _

lemma foldlM_inStaging (staged : s.staging.lookup name = some folder)
    (unpacked : changes.foldlM (fun folder change => change folder) folder = .ok folder') :
    ∃ s', changes.foldlM (fun s change => inStaging name change s) s = .ok s' ∧
      s'.records = s.records ∧ s'.staging.lookup name = some folder' := by
  induction changes generalizing s folder with
  | nil =>
    cases unpacked
    exact ⟨s, rfl, rfl, staged⟩
  | cons change changes ih =>
    rw [foldlM_cons] at unpacked
    obtain ⟨next, changed, rest⟩ := bind_eq_ok.mp unpacked
    obtain ⟨s', folded, records, last⟩ := ih (s := s.setStaging name (some next))
      lookup_setStaging rest
    refine ⟨s', ?_, records, last⟩
    rw [foldlM_cons, inStaging_eq staged, changed]
    exact folded

lemma foldlM_inStaging_error {e : InstallError} (staged : s.staging.lookup name = some folder)
    (failed : changes.foldlM (fun folder change => change folder) folder = .error e) :
    changes.foldlM (fun s change => inStaging name change s) s = .error e := by
  induction changes generalizing s folder with
  | nil => cases failed
  | cons change changes ih =>
    rw [foldlM_cons] at failed
    rw [foldlM_cons, inStaging_eq staged]
    rcases error_of_bind failed with first | ⟨next, changed, rest⟩
    · rw [first]
      rfl
    · rw [changed]
      exact ih (s := s.setStaging name (some next)) lookup_setStaging rest

lemma createStaging_fresh (fresh : s.staging.lookup name = none) :
    createStaging name s = .ok (s.setStaging name (some ∅)) := by
  rw [createStaging, fresh]
  rfl

variable {entries : List ArchiveEntry}

lemma takes_extractArchive (fresh : s.staging.lookup name = none)
    (unpacked : (entries.flatMap extractEntry).foldlM (fun folder change => change folder) ∅ =
      .ok folder) :
    ∃ s', Takes (extractArchive name entries) s (1 + 1 + (entries.flatMap extractEntry).length)
        (.ok ()) s' ∧
      s'.records = s.records ∧ s'.staging.lookup name = some folder := by
  obtain ⟨s', folded, records, staged⟩ :=
    foldlM_inStaging (s := s.setStaging name (some ∅)) lookup_setStaging unpacked
  have first : Takes (call .ok : Installation Unit) s 1 (.ok ()) s := takes_call rfl
  have second := takes_call (createStaging_fresh fresh)
  refine ⟨s', ?_, records, staged⟩
  rw [extractArchive, Nat.add_assoc 1 1]
  exact first.bind (second.bind (takes_forM folded))

lemma takes_extractArchive_error (fresh : s.staging.lookup name = none)
    (damaged : ¬ Unpacks entries) :
    ∃ cost e s', Takes (extractArchive name entries) s cost (.error e) s' := by
  cases unpacked : (entries.flatMap extractEntry).foldlM (fun folder change => change folder) ∅ with
  | ok folder => exact absurd ⟨folder, unpacked⟩ damaged
  | error e =>
    have first : Takes (call .ok : Installation Unit) s 1 (.ok ()) s := takes_call rfl
    have second := takes_call (createStaging_fresh fresh)
    obtain ⟨cost, s', rest⟩ := takes_forM_error
      (foldlM_inStaging_error (s := s.setStaging name (some ∅)) lookup_setStaging unpacked)
    exact ⟨1 + (1 + cost), e, s', first.bind (second.bind rest)⟩

lemma ends_removeDirAll (get : Store → Option Folder) (set : Store → Option Folder → Store) :
    Ends (removeDirAll get set) :=
  (ends_look _).bind fun _ => (ends_forM fun _ _ => ends_call _).bind fun _ => ends_call _

lemma takes_removeStaging (name : Name) (s : Store) :
    ∃ cost s', Takes (removeStaging name) s cost (.ok ()) s' := by
  obtain ⟨cost, result, s', removed⟩ := (ends_removeDirAll (·.staging.lookup name)
    (·.setStaging name)) s
  cases result with
  | ok _ => exact ⟨cost, s', removed.onFailure _⟩
  | error e => exact ⟨_, s', removed.onFailure_error (takes_pure () s')⟩

end Unpacking

section Preparing
variable {Package : Type} {w : World Package} {c : InstallCall Package} {review : PackageReview}
  {s : Store} {folder : Folder}

variable {ε α : Type} {find : Store → Except ε α}

lemma takes_look_ok {a : α} (found : find s = .ok a) : Takes (look find) s 0 (.ok a) s := by
  have looked := takes_look find s
  rwa [found] at looked

lemma takes_look_error {e : ε} (failed : find s = .error e) :
    Takes (look find) s 0 (.error e) s := by
  have looked := takes_look find s
  rwa [failed] at looked

lemma reject_absent {e : InstallError}
    (absent : s.records.packages.lookup (packageKey review) = none) :
    reject ((s.records.packages.lookup (packageKey review)).isSome = true) e = .ok () := by
  rw [absent]
  rfl

section
variable (checked : checkReview c review = .ok ())
include checked

lemma takes_prepare (absent : s.records.packages.lookup (packageKey review) = none)
    (fresh : s.staging.lookup (stagingName c review) = none)
    (unpacked : ((w.entries c.package).flatMap extractEntry).foldlM
      (fun folder change => change folder) ∅ = .ok folder) :
    ∃ s', Takes (prepare w c review) s (preparation (w.entries c.package)) (.ok ()) s' ∧
      s'.records = s.records ∧ s'.staging.lookup (stagingName c review) = some folder := by
  obtain ⟨s', extracted, records, staged⟩ := takes_extractArchive fresh unpacked
  have admitted : Takes (look fun _ => checkReview c review) s 0 (.ok ()) s := takes_look_ok checked
  have vacant : Takes (look fun s : Store =>
      reject ((s.records.packages.lookup (packageKey review)).isSome = true)
        (alreadyInstalled review.manifest.name review.manifest.version)) s 0
      (.ok ()) s := takes_look_ok (reject_absent absent)
  have parent : Takes (call .ok : Installation Unit) s' 1 (.ok ()) s' := takes_call rfl
  refine ⟨s', ?_, records, staged⟩
  rw [prepare, preparation, ← Nat.zero_add (_ + 1), ← Nat.zero_add (_ + 1)]
  exact admitted.bind (vacant.bind ((extracted.onFailure _).bind parent))

lemma takes_prepare_error (absent : s.records.packages.lookup (packageKey review) = none)
    (fresh : s.staging.lookup (stagingName c review) = none)
    (damaged : ¬ Unpacks (w.entries c.package)) :
    ∃ cost e s', Takes (prepare w c review) s cost (.error e) s' := by
  obtain ⟨cost, e, s₁, extracted⟩ := takes_extractArchive_error fresh damaged
  obtain ⟨cost', s₂, removed⟩ := takes_removeStaging (stagingName c review) s₁
  have admitted : Takes (look fun _ => checkReview c review) s 0 (.ok ()) s := takes_look_ok checked
  have vacant : Takes (look fun s : Store =>
      reject ((s.records.packages.lookup (packageKey review)).isSome = true)
        (alreadyInstalled review.manifest.name review.manifest.version)) s 0
      (.ok ()) s := takes_look_ok (reject_absent absent)
  have failed : Takes (onFailure (extractArchive (stagingName c review) (w.entries c.package))
      fun error => do
        removeStaging (stagingName c review)
        fail error) s (cost + (cost' + 0)) (.error e) s₂ :=
    extracted.onFailure_error (removed.bind (takes_fail e s₂))
  exact ⟨0 + (0 + (cost + (cost' + 0))), e, s₂, admitted.bind (vacant.bind (failed.bind_error _))⟩

lemma takes_prepare_present (present : s.records.packages.lookup (packageKey review) ≠ none) :
    ∃ e, Takes (prepare w c review) s 0 (.error e) s := by
  have admitted : Takes (look fun _ => checkReview c review) s 0 (.ok ()) s := takes_look_ok checked
  have refused : Takes (look fun s : Store =>
      reject ((s.records.packages.lookup (packageKey review)).isSome = true)
        (alreadyInstalled review.manifest.name review.manifest.version)) s 0
      (.error (.alreadyInstalled review.manifest.name review.manifest.version)) s :=
    takes_look_error (if_pos (Option.isSome_iff_ne_none.mpr present))
  refine ⟨.alreadyInstalled review.manifest.name review.manifest.version, ?_⟩
  rw [prepare, ← Nat.zero_add 0]
  exact admitted.bind (refused.bind_error _)

end

lemma takes_activate (staged : s.staging.lookup (stagingName c review) = some folder)
    (absent : s.records.packages.lookup (packageKey review) = none) :
    ∃ s', Takes (activate c review) s 1 (.ok ()) s' ∧
      s'.records = s.records.setPackage (packageKey review) (some folder) := by
  refine ⟨(s.setStaging (stagingName c review) none).setPackage (packageKey review) (some folder),
    Takes.onFailure (takes_call ?_) _, rfl⟩
  rw [publish, staged]
  change reject _ _ >>= _ = _
  rw [reject_absent absent]
  rfl

end Preparing

/-- What a computation makes of the records, whatever is in staging. -/
def Makes {α : Type} (x : Installation α) (r : Records) (result : Except InstallError α)
    (r' : Records) : Prop :=
  ∃ cost, ∀ staging, Takes x ⟨staging, r⟩ cost result ⟨staging, r'⟩

section Recording
variable {Package : Type} {w : World Package} {c : InstallCall Package} {review : PackageReview}
  {r r' r'' : Records} {α β : Type}

lemma Makes.bind {x : Installation α} {f : α → Installation β} {a : α}
    {result : Except InstallError β} (first : Makes x r (.ok a) r')
    (rest : Makes (f a) r' result r'') : Makes (x >>= f) r result r'' := by
  obtain ⟨cost, begun⟩ := first
  obtain ⟨cost', ended⟩ := rest
  exact ⟨cost + cost', fun staging => (begun staging).bind (ended staging)⟩

lemma makes_look {find : Store → Except InstallError α} {result : Except InstallError α}
    (found : ∀ staging, find ⟨staging, r⟩ = result) : Makes (look find) r result r := by
  refine ⟨0, fun staging => ?_⟩
  have looked := takes_look find ⟨staging, r⟩
  rwa [found] at looked

lemma makes_call {change : Store → Except InstallError Store}
    (changed : ∀ staging, change ⟨staging, r⟩ = .ok ⟨staging, r'⟩) :
    Makes (call change) r (.ok ()) r' :=
  ⟨1, fun staging => takes_call (changed staging)⟩

/-- A loop whose rounds keep an invariant of the records. -/
lemma makes_forM {γ : Type} {J : Records → Prop} {list : List γ} {body : γ → Installation PUnit}
    (each : ∀ a ∈ list, ∀ r, J r → ∃ r', Makes (body a) r (.ok ()) r' ∧ J r') (start : J r) :
    ∃ r', Makes (forM list body) r (.ok ()) r' ∧ J r' := by
  induction list generalizing r with
  | nil => exact ⟨r, ⟨0, fun staging => takes_pure _ _⟩, start⟩
  | cons a list ih =>
    obtain ⟨first, rest⟩ := forall_mem_cons.mp each
    obtain ⟨r₁, begun, kept⟩ := first r start
    obtain ⟨r₂, ended, last⟩ := ih rest kept
    refine ⟨r₂, ?_, last⟩
    rw [forM_cons]
    exact begun.bind ended

/-- A package directory goes, and nothing but package directories. -/
lemma makes_removePackage (key : Name × Name) (r : Records) :
    ∃ r', Makes (removePackage key) r (.ok ()) r' ∧ r'.modules = r.modules := by
  cases found : r.packages.lookup key with
  | none =>
    have missing (staging : AList fun _ : Name => Folder) :
        Takes (removeDirAll (·.records.packages.lookup key) (·.setPackage key)) ⟨staging, r⟩ 0
          (.error .fileSystem) ⟨staging, r⟩ := by
      have looked := takes_look (fun s : Store =>
        require (s.records.packages.lookup key) fileSystem) ⟨staging, r⟩
      rw [found] at looked
      exact looked.bind_error _
    exact ⟨r, ⟨0 + 0, fun staging => (missing staging).onFailure_error (takes_pure () _)⟩, rfl⟩
  | some folder =>
    have looked : Makes (look fun s : Store =>
        require (s.records.packages.lookup key) fileSystem) r (.ok folder) r :=
      makes_look fun _ => by rw [found]; rfl
    have round : ∀ path ∈ folder.keys, ∀ r₁ : Records, r₁.modules = r.modules →
        ∃ r₂, Makes (call fun s : Store => .ok (s.setPackage key
          ((s.records.packages.lookup key).map (·.erase path)))) r₁ (.ok ()) r₂ ∧
          r₂.modules = r.modules :=
      fun path _ r₁ same =>
        ⟨r₁.setPackage key ((r₁.packages.lookup key).map (·.erase path)), makes_call fun _ => rfl,
          same⟩
    obtain ⟨r₂, emptied, same⟩ := makes_forM round rfl
    have gone : Makes (call fun s : Store => .ok (s.setPackage key none)) r₂ (.ok ())
        (r₂.setPackage key none) := makes_call fun _ => rfl
    have whole : Makes (removeDirAll (·.records.packages.lookup key) (·.setPackage key)) r
        (.ok ()) (r₂.setPackage key none) := looked.bind (emptied.bind gone)
    obtain ⟨cost, removed⟩ := whole
    exact ⟨_, ⟨cost, fun staging => (removed staging).onFailure _⟩, same⟩

variable {version : Name}

variable (review) in
lemma makes_deleteVersion (valid : w.validVersion version = true) (r : Records) :
    ∃ r', Makes (deleteVersion w review version) r (.ok ()) r' ∧ r'.modules = r.modules := by
  have checked : Makes (look fun _ : Store =>
      reject (w.validVersion version = false) invalidStoredVersion) r (.ok ()) r := by
    refine makes_look fun _ => ?_
    rw [valid]
    rfl
  exact ⟨{ r with versions := r.versions.erase (review.manifest.id, version) },
    checked.bind (makes_call fun _ => rfl), rfl⟩

variable (c review) in
lemma upsertModule_spec (modules : AList (fun _ : Name => ModuleRow)) :
    (upsertModule c review modules).manifest = review.manifest ∧
      (upsertModule c review modules).activeVersion = review.manifest.version ∧
      (upsertModule c review modules).installed = true := by
  rw [upsertModule]
  cases modules.lookup review.manifest.id <;> exact ⟨rfl, rfl, rfl⟩

lemma installedModule_eq_ok {row : ModuleRow} (accepted : w.validateManifest review.manifest = true)
    (found : r.modules.lookup review.manifest.id = some row)
    (manifest : row.manifest = review.manifest)
    (active : row.activeVersion = review.manifest.version) (installed : row.installed = true) :
    ∃ module, ∀ staging, installedModule w review.manifest.id ⟨staging, r⟩ = .ok module := by
  have here : require ((r.modules.lookup review.manifest.id).filter (·.installed))
      notReloaded = .ok row := by
    rw [found, Option.filter_some_pos installed]
    rfl
  have valid : reject (w.validateManifest row.manifest = false) invalidManifest =
      .ok () := reject_eq_ok.mpr (by rw [manifest, accepted]; exact Bool.noConfusion)
  have same : reject (row.manifest.id ≠ review.manifest.id ∨
      row.manifest.version ≠ row.activeVersion) identityDiffers = .ok () :=
    reject_eq_ok.mpr (by rw [manifest, active]; exact fun differ => differ.elim (· rfl) (· rfl))
  have returned : ∃ module, installedModule w review.manifest.id ⟨∅, r⟩ = .ok module :=
    ⟨_, bind_eq_ok.mpr ⟨row, here, bind_eq_ok.mpr ⟨(), valid, bind_eq_ok.mpr ⟨(), same, rfl⟩⟩⟩⟩
  obtain ⟨module, returned⟩ := returned
  exact ⟨module, fun _ => returned⟩

lemma mem_obsolete {obsolete : List Name} {s : Store}
    (found : obsoleteVersions review s = .ok obsolete) (member : version ∈ obsolete) :
    (review.manifest.id, version) ∈ s.records.versions.keys ∧
      version ≠ review.manifest.version := by
  obtain ⟨row, -, listed⟩ := bind_eq_ok.mp found
  cases listed
  obtain ⟨member, wanted⟩ := mem_filter.mp member
  obtain ⟨key, own, rfl⟩ := mem_map.mp member
  obtain ⟨own, mine⟩ := mem_filter.mp own
  refine ⟨?_, (of_decide_eq_true wanted).1⟩
  rw [← of_decide_eq_true mine]
  exact own

/-- Once the package directory is in place, the installation is completed. -/
lemma makes_complete (accepted : w.validateManifest review.manifest = true)
    (valid : ∀ key ∈ r.versions.keys, w.validVersion key.2 = true) :
    ∃ module r', Makes (complete w c review) r (.ok module) r' := by
  have recorded : Makes (onFailure (call (onRecords (record c review))) fun error => do
      removePackage (packageKey review)
      fail error) r (.ok ()) (record c review r) := by
    refine ⟨1, fun staging => Takes.onFailure (takes_call ?_) _⟩
    rfl
  have row : (record c review r).modules.lookup review.manifest.id =
      some (upsertModule c review r.modules) := lookup_insert _
  obtain ⟨obsolete, found⟩ : ∃ obsolete,
      obsoleteVersions review ⟨∅, record c review r⟩ = .ok obsolete := by
    rw [obsoleteVersions, row]
    exact ⟨_, rfl⟩
  have listed : Makes (look (obsoleteVersions review)) (record c review r) (.ok obsolete)
      (record c review r) := makes_look fun _ => found
  have delete : ∀ version ∈ obsolete, ∀ r₁ : Records,
      r₁.modules = (record c review r).modules → ∃ r₂,
        Makes (deleteVersion w review version) r₁ (.ok ()) r₂ ∧
          r₂.modules = (record c review r).modules := by
    intro version member r₁ same
    obtain ⟨old, other⟩ := mem_obsolete found member
    have before : (review.manifest.id, version) ∈ r.versions.keys := by
      rcases (mem_insert _).mp (AList.mem_keys.mpr old) with new | before
      · exact absurd (Prod.ext_iff.mp new).2 other
      · exact AList.mem_keys.mp before
    obtain ⟨r₂, deleted, kept⟩ := makes_deleteVersion review (valid _ before) r₁
    exact ⟨r₂, deleted, kept.trans same⟩
  obtain ⟨r₁, deleted, same₁⟩ := makes_forM delete rfl
  have remove : ∀ version ∈ obsolete, ∀ r₂ : Records,
      r₂.modules = (record c review r).modules → ∃ r₃,
        Makes (removePackage (review.manifest.id, version)) r₂ (.ok ()) r₃ ∧
          r₃.modules = (record c review r).modules := by
    intro version _ r₂ same
    obtain ⟨r₃, removed, kept⟩ := makes_removePackage (review.manifest.id, version) r₂
    exact ⟨r₃, removed, kept.trans same⟩
  obtain ⟨r₂, removed, same₂⟩ := makes_forM remove same₁
  obtain ⟨manifest, active, installed⟩ := upsertModule_spec c review r.modules
  obtain ⟨module, found'⟩ := installedModule_eq_ok (r := r₂) accepted (same₂ ▸ row) manifest
    active installed
  exact ⟨module, r₂, recorded.bind (listed.bind (deleted.bind (removed.bind (makes_look found'))))⟩

end Recording

section Stopping
variable {Package : Type} (w : World Package) (c : InstallCall Package) (review : PackageReview)
  {s : Store} {n : Nat}

lemma throughout_removeStaging (name : Name) (r : Records) :
    Throughout (fun s : Store => s.records = r) (removeStaging name) (fun _ => True) := by
  refine Throughout.onFailure ?_ fun _ => throughout_pure trivial
  refine (throughout_look (R := fun _ => True) fun _ _ _ _ => trivial).bind fun folder _ => ?_
  refine (throughout_forM fun path _ => throughout_call ?_).bind fun _ _ => throughout_call ?_
  · rintro s _ same ⟨⟩
    exact same
  · rintro s _ same ⟨⟩
    exact same

lemma createStaging_records {name : Name} {s s' : Store} (done : createStaging name s = .ok s') :
    s'.records = s.records := by
  obtain ⟨_, -, done⟩ := bind_eq_ok.mp done
  cases done
  rfl

lemma inStaging_records {name : Name} {alter : Change} {s s' : Store}
    (done : inStaging name alter s = .ok s') : s'.records = s.records := by
  obtain ⟨_, -, done⟩ := bind_eq_ok.mp done
  obtain ⟨_, -, done⟩ := bind_eq_ok.mp done
  cases done
  rfl

lemma throughout_prepare (r : Records) :
    Throughout (fun s => s.records = r) (prepare w c review) (fun _ => True) := by
  have idle : Throughout (fun s : Store => s.records = r) (call .ok : Installation Unit)
      (fun _ => True) := by
    refine throughout_call ?_
    rintro s _ same ⟨⟩
    exact same
  refine (throughout_look (R := fun _ => True) fun _ _ _ _ => trivial).bind fun _ _ => ?_
  refine (throughout_look (R := fun _ => True) fun _ _ _ _ => trivial).bind fun _ _ => ?_
  refine (Throughout.onFailure (R := fun _ => True) ?_ fun e => ?_).bind fun _ _ => idle
  · refine idle.bind fun _ _ => ?_
    refine (throughout_call fun s s' same done => ?_).bind fun _ _ => ?_
    · rw [createStaging_records done, same]
    · refine throughout_forM fun alter _ => throughout_call fun s s' same done => ?_
      rw [inStaging_records done, same]
  · exact (throughout_removeStaging _ r).bind fun _ _ => throughout_fail _

lemma throughout_removePackage {key other : Name × Name} (differ : other ≠ key) :
    Throughout (fun s : Store => s.records.packages.lookup key ≠ none)
      (removePackage other) (fun _ => True) := by
  have apart (s : Store) (folder : Option Folder) :
      (s.setPackage other folder).records.packages.lookup key =
        s.records.packages.lookup key := by
    cases folder with
    | none => exact lookup_erase_ne differ.symm
    | some folder => exact lookup_insert_ne differ.symm
  refine Throughout.onFailure ?_ fun _ => throughout_pure trivial
  refine (throughout_look (R := fun _ => True) fun _ _ _ _ => trivial).bind fun folder _ => ?_
  refine (throughout_forM fun path _ => throughout_call ?_).bind fun _ _ => throughout_call ?_
  · rintro s _ there ⟨⟩
    rw [apart]
    exact there
  · rintro s _ there ⟨⟩
    rw [apart]
    exact there

lemma throughout_complete :
    Throughout (fun s : Store => s.records.packages.lookup (packageKey review) ≠ none)
      (complete w c review) (fun _ => True) := by
  refine (throughout_onFailure_call ?_).bind fun _ _ => ?_
  · exact fun s there => ⟨_, rfl, there⟩
  have others : Throughout (fun s : Store => s.records.packages.lookup (packageKey review) ≠ none)
      (look (obsoleteVersions review))
      (fun obsolete => ∀ version ∈ obsolete, version ≠ review.manifest.version) :=
    throughout_look fun s obsolete _ found version member => (mem_obsolete found member).2
  refine others.bind fun obsolete others => ?_
  refine (throughout_forM fun version _ => ?_).bind fun _ _ => ?_
  · refine (throughout_look (R := fun _ => True) fun _ _ _ _ => trivial).bind fun _ _ =>
      throughout_call ?_
    rintro s _ there ⟨⟩
    exact there
  · refine (throughout_forM fun version member => throughout_removePackage fun same => ?_).bind
      fun _ _ => throughout_look fun _ _ _ _ => trivial
    exact others version member (Prod.ext_iff.mp same).2

variable {w c review}

section
variable (accepted : w.inspectArchive c.package = .ok review)
include accepted

lemma after_installPackage (p : Process Store) :
    after (installPackage w c) p =
      after (prepare w c review >>= fun _ => activate c review >>= fun _ => complete w c review)
        p := by
  have looked : after (look fun _ => w.inspectArchive c.package) p = (.ok review, p) := by
    rw [look, after_step, accepted]
    rfl
  exact after_bind_ok looked _

lemma stopped_early {folder : Folder}
    (stopped : (after (installPackage w c) ⟨s, some n⟩).1 = .error .stopped)
    (ready : ∃ s', Takes (prepare w c review) s (preparation (w.entries c.package)) (.ok ()) s' ∧
      s'.records = s.records ∧ s'.staging.lookup (stagingName c review) = some folder)
    (early : n ≤ preparation (w.entries c.package)) :
    (after (installPackage w c) ⟨s, some n⟩).2.state.records = s.records := by
  obtain ⟨s', prepared, records, -⟩ := ready
  rw [after_installPackage accepted] at stopped ⊢
  rcases Nat.lt_or_ge n (preparation (w.entries c.package)) with less | all
  · have halted := prepared.stopped n less
    have kept := (throughout_prepare w c review s.records ⟨s, some n⟩ rfl).1
    rw [after_bind]
    rcases run : after (prepare w c review) ⟨s, some n⟩ with ⟨_ | _, p⟩
    · rw [run] at kept
      exact kept
    · rw [run] at halted
      cases halted
  · obtain rfl := Nat.le_antisymm early all
    have begun := prepared.ends (some 0)
    rw [Option.map_some, Nat.zero_add] at begun
    rw [after_bind_ok begun]
    exact records

lemma stopped_late {folder : Folder} (absent : s.records.packages.lookup (packageKey review) = none)
    (ready : ∃ s', Takes (prepare w c review) s (preparation (w.entries c.package)) (.ok ()) s' ∧
      s'.records = s.records ∧ s'.staging.lookup (stagingName c review) = some folder)
    (late : preparation (w.entries c.package) < n) :
    (after (installPackage w c) ⟨s, some n⟩).2.state.records.packages.lookup (packageKey review) ≠
      none := by
  obtain ⟨s', prepared, records, staged⟩ := ready
  obtain ⟨s'', activated, records'⟩ := takes_activate staged (records ▸ absent)
  obtain ⟨more, rfl⟩ := Nat.exists_eq_add_of_lt late
  have begun := prepared.ends (some (more + 1))
  have renamed := activated.ends (some more)
  rw [Option.map_some] at begun renamed
  have order : preparation (w.entries c.package) + more + 1 =
      more + 1 + preparation (w.entries c.package) := by omega
  rw [after_installPackage accepted, order, after_bind_ok begun, after_bind_ok renamed]
  refine (throughout_complete w c review ⟨s'', some more⟩ ?_).1
  change s''.records.packages.lookup (packageKey review) ≠ none
  rw [records', Records.setPackage]
  exact (lookup_insert _).trans_ne (Option.some_ne_none folder)

/-- Whether the installation has an end depends on the package and the records. -/
lemma installs (checked : checkReview c review = .ok ()) (unpacks : Unpacks (w.entries c.package))
    {r : Records} (absent : r.packages.lookup (packageKey review) = none)
    (valid : ∀ key ∈ r.versions.keys, w.validVersion key.2 = true) :
    ∃ module r', ∀ s : Store, s.records = r → s.staging.lookup (stagingName c review) = none →
      (after (installPackage w c) ⟨s, none⟩).1 = .ok module ∧
        (after (installPackage w c) ⟨s, none⟩).2.state.records = r' := by
  obtain ⟨folder, unpacked⟩ := unpacks
  have valid' : ∀ key ∈ (r.setPackage (packageKey review) (some folder)).versions.keys,
      w.validVersion key.2 = true := valid
  obtain ⟨module, r', cost, completed⟩ := makes_complete (c := c) (w.inspected _ _ accepted) valid'
  refine ⟨module, r', fun s same fresh => ?_⟩
  obtain ⟨s₁, prepared, records, staged⟩ := takes_prepare checked (same ▸ absent) fresh unpacked
  obtain ⟨s₂, activated, records'⟩ := takes_activate staged (records ▸ same ▸ absent)
  have state : s₂ = ⟨s₂.staging, r.setPackage (packageKey review) (some folder)⟩ := by
    rw [← same, ← records, ← records']
  have ended := (completed s₂.staging).ends none
  rw [← state] at ended
  have begun : after (prepare w c review) ⟨s, none⟩ = (.ok (), ⟨s₁, none⟩) := prepared.ends none
  have renamed : after (activate c review) ⟨s₁, none⟩ = (.ok (), ⟨s₂, none⟩) := activated.ends none
  have whole : after (installPackage w c) ⟨s, none⟩ = (.ok module, ⟨⟨s₂.staging, r'⟩, none⟩) := by
    rw [after_installPackage accepted, after_bind_ok begun, after_bind_ok renamed]
    exact ended
  rw [whole]
  exact ⟨rfl, rfl⟩

lemma not_installs (checked : checkReview c review = .ok ())
    (fresh : s.staging.lookup (stagingName c review) = none)
    (blocked : s.records.packages.lookup (packageKey review) ≠ none ∨
      ¬ Unpacks (w.entries c.package)) (module : InstalledCustomModule) :
    (after (installPackage w c) ⟨s, none⟩).1 ≠ .ok module := by
  obtain ⟨cost, e, s', failed⟩ : ∃ cost e s', Takes (prepare w c review) s cost (.error e) s' := by
    by_cases absent : s.records.packages.lookup (packageKey review) = none
    · exact takes_prepare_error checked absent fresh (blocked.resolve_left (not_not_intro absent))
    · obtain ⟨e, refused⟩ := takes_prepare_present checked absent
      exact ⟨0, e, s, refused⟩
  have ended : after (prepare w c review) ⟨s, none⟩ = (.error (.failed e), ⟨s', none⟩) :=
    failed.ends none
  rw [after_installPackage accepted, after_bind, ended]
  exact nofun

lemma passed_of_stopped (stopped : (after (installPackage w c) ⟨s, some n⟩).1 = .error .stopped) :
    checkReview c review = .ok () ∧ s.records.packages.lookup (packageKey review) = none := by
  rw [after_installPackage accepted, after_bind] at stopped
  cases checked : checkReview c review with
  | error e =>
    have failed : Takes (prepare w c review) s 0 (.error e) s :=
      (takes_look_error checked).bind_error _
    rw [failed.after_zero] at stopped
    cases stopped
  | ok _ =>
    refine ⟨rfl, by_contra fun present => ?_⟩
    obtain ⟨e, failed⟩ := takes_prepare_present (w := w) checked present
    rw [failed.after_zero] at stopped
    cases stopped

end

/-- A stopped installation can be repeated just when the package can be unpacked and the stop
came before the rename. -/
theorem interrupted_install_repeats_iff (now random : Nat) (sound : s.records.Sound w)
    (accepted : w.inspectArchive c.package = .ok review)
    (fresh : s.staging.lookup (stagingName c review) = none)
    (stopped : (after (installPackage w c) ⟨s, some n⟩).1 = .error .stopped)
    (fresh' : s.staging.lookup (stagingName { c with now, random } review) = none)
    (fresh'' : (after (installPackage w c) ⟨s, some n⟩).2.state.staging.lookup
      (stagingName { c with now, random } review) = none) :
    Repeats w { c with now, random } s (after (installPackage w c) ⟨s, some n⟩).2.state ↔
      Unpacks (w.entries c.package) ∧ n ≤ preparation (w.entries c.package) := by
  obtain ⟨checked, absent⟩ := passed_of_stopped accepted stopped
  constructor
  · rintro ⟨module, again, -, -⟩
    have unpacks : Unpacks (w.entries c.package) := by
      by_contra damaged
      exact not_installs (c := { c with now, random }) accepted checked fresh'' (.inr damaged)
        module again
    refine ⟨unpacks, Nat.not_lt.mp fun late => ?_⟩
    obtain ⟨folder, unpacked⟩ := unpacks
    have there := stopped_late accepted absent (takes_prepare checked absent fresh unpacked) late
    exact not_installs (c := { c with now, random }) accepted checked fresh'' (.inl there)
      module again
  · rintro ⟨unpacks, early⟩
    obtain ⟨folder, unpacked⟩ := unpacks
    have records := stopped_early accepted stopped
      (takes_prepare checked absent fresh unpacked) early
    obtain ⟨module, r', ends⟩ := installs (c := { c with now, random }) accepted checked
      ⟨folder, unpacked⟩ absent sound.valid
    obtain ⟨again, left_⟩ := ends _ records fresh''
    obtain ⟨once, left'⟩ := ends s rfl fresh'
    exact ⟨module, again, once, left_.trans left'.symm⟩

end Stopping

def sampleManifest : Manifest where
  id := "notes".toList
  name := "Notes".toList
  version := "1.0.0".toList
  publisher := "Example".toList
  apiVersion := 1
  license := "MIT".toList
  permissions := {
    storage := false, documentStorage := false, blobStorage := false, browserStorage := false
    openExternal := false, clipboard := false, files := none, networkFetch := none
    secretReferences := false, hostUi := false, hostAi := false, hostIntegration := none }
  railVisible := [true]

def sampleWorld : World Unit where
  entries _ := [⟨["LICENSE".toList], false, [[77]], true⟩,
    ⟨["dist".toList, "index.html".toList], false, [[60]], true⟩]
  validVersion version := version = "1.0.0".toList
  validateManifest manifest := manifest.apiVersion = 1
  inspectArchive _ := .ok ⟨sampleManifest, "aa".toList⟩
  inspected _ _ accepted := by
    cases accepted
    rfl

def sampleInstall : InstallCall Unit where
  package := ()
  source := .fromLocal
  trust := .byLocal
  expectedSha256 := some "AA".toList
  catalogMetadata := none
  now := 5
  random := 1

def emptyStore : Store :=
  ⟨∅, ⟨∅, ∅, ∅, ∅⟩⟩

lemma emptyStore_sound : emptyStore.records.Sound sampleWorld where
  active _ _ found := nomatch found
  previous _ _ _ found := nomatch found
  valid _ member := nomatch member

theorem sample_interrupted_install_repeats_iff :
    Repeats sampleWorld { sampleInstall with now := 9, random := 2 } emptyStore
        (after (installPackage sampleWorld sampleInstall) ⟨emptyStore, some 10⟩).2.state ↔
      Unpacks (sampleWorld.entries ()) ∧ 10 ≤ preparation (sampleWorld.entries ()) :=
  interrupted_install_repeats_iff 9 2 emptyStore_sound rfl rfl (by decide +kernel) rfl
    (by decide +kernel)

/-- Stopped after the rename, the installation cannot be repeated, although the database does not
know of the version. -/
theorem published_not_repeated :
    let interrupted :=
      (after (installPackage sampleWorld sampleInstall) ⟨emptyStore, some 11⟩).2.state
    emptyStore.records.Sound sampleWorld ∧
      (after (installPackage sampleWorld sampleInstall) ⟨emptyStore, some 11⟩).1 = .error .stopped ∧
      interrupted.records.modules.lookup "notes".toList = none ∧
      interrupted.records.versions.lookup ("notes".toList, "1.0.0".toList) = none ∧
      interrupted.staging.lookup (stagingName { sampleInstall with now := 9, random := 2 }
        ⟨sampleManifest, "aa".toList⟩) = none ∧
      ¬ Repeats sampleWorld { sampleInstall with now := 9, random := 2 } emptyStore
        interrupted := by
  have again : (after (installPackage sampleWorld { sampleInstall with now := 9, random := 2 })
      ⟨(after (installPackage sampleWorld sampleInstall) ⟨emptyStore, some 11⟩).2.state, none⟩).1 =
        .error (.failed (.alreadyInstalled "Notes".toList "1.0.0".toList)) := by
    decide +kernel
  refine ⟨emptyStore_sound, ?_, ?_, ?_, ?_, ?_⟩
  · decide +kernel
  · decide +kernel
  · decide +kernel
  · decide +kernel
  · rintro ⟨module, repeated, -⟩
    cases again.symm.trans repeated

end CustomModules
