import KKTerm.Dashboard.Storage

/-!
# What a patch leaves alone

A patch changes the columns that it names and no others, unless a column it does not name is
written back differently from how it was read. The files in use are all found, unless a room's
background stands in a map that is read in part only.
-/

namespace Dashboard

open DashboardWidgetInstance hiding id
open Fallible Effects Option AList

/-- The columns that the patch names are changed. -/
def ViewRow.patched (P : Platform) (patch : ViewPatch) (row : ViewRow) : ViewRow where
  title := patch.title.getD row.title
  sortOrder := patch.sortOrder.getD row.sortOrder
  gridDensity := patch.gridDensity.getD row.gridDensity
  backgroundJson := patch.background.elim row.backgroundJson (Option.map P.render)
  tabColor := patch.tabColor.getD row.tabColor

/-- The columns that the patch names are changed, and the title is hidden when the preset becomes
ambient. -/
def InstanceRow.patched (patch : InstancePatch) (row : InstanceRow) : InstanceRow :=
  { row with
    preset := patch.preset.getD row.preset
    accentName := patch.accentName.getD row.accentName
    iconName := patch.iconName.getD row.iconName
    customTitle := patch.customTitle.getD row.customTitle
    glass := patch.glass.elim row.glass asI64OfBool
    hideTitle := patch.hideTitle.elim
      (if isAmbient patch.preset then 1 else row.hideTitle) asI64OfBool
    actionDirection := patch.actionDirection.getD row.actionDirection
    settingsValuesJson := patch.settingsValuesJson.getD row.settingsValuesJson
    bodyOpacity := patch.bodyOpacity.getD row.bodyOpacity
    gridX := patch.gridX.getD row.gridX
    gridY := patch.gridY.getD row.gridY
    gridW := patch.gridW.getD row.gridW
    gridH := patch.gridH.getD row.gridH }

/-- A preset of an older version may also be rewritten. -/
def InstanceRow.Patches (patch : InstancePatch) (row written : InstanceRow) : Prop :=
  written = row.patched patch ∨
    patch.preset = none ∧ oneOf ["mono", "tile", "action"] row.preset = true ∧
      written = { row.patched patch with preset := "panel".toList }

/-- The change is refused and nothing is changed, or only the view has changed, as meant. -/
def ViewChange (P : Platform) (id : List Char) (patch : ViewPatch) (db : Db)
    (outcome : Except DashboardStorageError DashboardView × Db) : Prop :=
  (∃ e, outcome = (.error e, db)) ∨
    ∃ view row, outcome.1 = .ok view ∧ db.views.lookup id = some row ∧
      outcome.2 = { db with views := outcome.2.views } ∧
      outcome.2.views.lookup id = some (row.patched P patch) ∧
      ∀ other ≠ id, outcome.2.views.lookup other = db.views.lookup other

def InstanceChange (id : List Char) (patch : InstancePatch) (db : Db)
    (outcome : Except DashboardStorageError DashboardWidgetInstance × Db) : Prop :=
  (∃ e, outcome = (.error e, db)) ∨
    ∃ changed row written, outcome.1 = .ok changed ∧ db.instances.lookup id = some row ∧
      outcome.2 = { db with instances := outcome.2.instances } ∧
      outcome.2.instances.lookup id = some written ∧ row.Patches patch written ∧
      ∀ other ≠ id, outcome.2.instances.lookup other = db.instances.lookup other

/-- The view passes the checks of a change. -/
structure ViewAllowed (P : Platform) (patch : ViewPatch) (row : ViewRow) : Prop where
  title : ∀ title, patch.title = some title → validateTitle title = .ok ()
  density : ∀ density, patch.gridDensity = some density → validateGridDensity density = .ok ()
  color : ∀ color, patch.tabColor = some (some color) → validateDashboardTabColor color = .ok ()
  background : ∀ background,
    patch.background.getD (backgroundFromJson P row.backgroundJson) = some background →
      background.validate P = .ok ()

/-- The background is missing, or its text is the one that is written for what is read. -/
def Rendered (P : Platform) (row : ViewRow) : Prop :=
  row.backgroundJson = (backgroundFromJson P row.backgroundJson).map P.render

/-- The widget passes the checks of a change. -/
structure InstanceAllowed (P : Platform) (db : Db) (id : List Char) (patch : InstancePatch)
    (row : InstanceRow) : Prop where
  preset : ∀ preset, patch.preset = some preset → validatePreset preset = .ok ()
  accent : ∀ accent, patch.accentName = some accent → validateAccent accent = .ok ()
  icon : ∀ icon, patch.iconName = some icon → validateIcon P.icons icon = .ok ()
  opacity : ∀ value, patch.bodyOpacity = some (some value) → 0 ≤ value ∧ value ≤ 100
  bounds : validateGridBounds (patch.gridX.getD row.gridX) (patch.gridY.getD row.gridY)
    (patch.gridW.getD row.gridW) (patch.gridH.getD row.gridH) = .ok ()
  settings : row.kind = "script".toList → ∀ schema,
    db.settingsSchemas.lookup row.sourceId = some schema →
      validateSettingsValuesForSchemaJson P schema
        (patch.settingsValuesJson.getD row.settingsValuesJson) id = .ok ()

def IsFlag (value : Int) : Prop :=
  value = 0 ∨ value = 1

variable {ε α : Type} {x : Except ε α}

lemma mapError_eq_ok {ε' : Type} {f : ε → ε'} {a : α} : x.mapError f = .ok a ↔ x = .ok a := by
  cases x with
  | error e => exact iff_of_false nofun nofun
  | ok b => exact ⟨fun same => by cases same; rfl, fun same => by cases same; rfl⟩

lemma elim_eq_ok {value : Option α} {validate : α → Except ValidationError Unit} :
    (value.elim (.ok ()) validate).mapError (DashboardStorageError.validation · none) = .ok () ↔
      ∀ a, value = some a → validate a = .ok () := by
  rw [mapError_eq_ok]
  cases value with
  | none => exact iff_of_true rfl nofun
  | some a => exact ⟨fun passed b same => Option.some.inj same ▸ passed, fun all => all a rfl⟩

lemma opacityAllowed_eq_ok {opacity : Option Int} :
    opacityAllowed opacity = .ok () ↔ ∀ value, opacity = some value → 0 ≤ value ∧ value ≤ 100 := by
  cases opacity with
  | none => exact iff_of_true rfl nofun
  | some value =>
    rw [opacityAllowed]
    split_ifs with outside
    · refine iff_of_false nofun fun all => ?_
      have inside := all value rfl
      omega
    · refine iff_of_true rfl ?_
      rintro _ ⟨⟩
      omega

lemma settingsAllowed_eq_ok {P : Platform} {db : Db} {current : DashboardWidgetInstance} :
    settingsAllowed P db current = .ok () ↔
      (current.kind = "script".toList → ∀ schema,
        db.settingsSchemas.lookup current.sourceId = some schema →
          validateSettingsValuesForSchemaJson P schema current.settingsValuesJson current.id =
            .ok ()) := by
  rw [settingsAllowed]
  split_ifs with other
  · exact iff_of_true rfl fun scripted => absurd scripted other
  · rw [not_not] at other
    rw [forall_prop_of_true other]
    cases db.settingsSchemas.lookup current.sourceId with
    | none => exact iff_of_true rfl nofun
    | some schema =>
      exact ⟨fun passed _ same => Option.some.inj same ▸ passed, fun all => all _ rfl⟩

lemma error_ne_ok {e : ε} (failed : x = .error e) (a : α) : x ≠ .ok a := by
  rw [failed]
  nofun

section Views
variable (P : Platform) (id : List Char) (patch : ViewPatch) (db : Db)

def ViewRow.written (row : ViewRow) : ViewRow :=
  let current := (DashboardView.ofRow P id row).merge patch
  { title := current.title, sortOrder := current.sortOrder, gridDensity := current.gridDensity
    backgroundJson := backgroundToJson P current.background, tabColor := current.tabColor }

/-- Only the background is not written back as it was read. -/
lemma view_written (row : ViewRow) :
    row.written P id patch = row.patched P patch ↔
      (patch.background = none → Rendered P row) := by
  have rest (written : Option (List Char)) :
      (⟨patch.title.getD row.title, patch.sortOrder.getD row.sortOrder,
        patch.gridDensity.getD row.gridDensity, written, patch.tabColor.getD row.tabColor⟩ :
          ViewRow) = row.patched P patch ↔
        written = patch.background.elim row.backgroundJson (Option.map P.render) := by
    rw [ViewRow.patched, ViewRow.mk.injEq]
    simp
  refine (rest _).trans ?_
  change (patch.background.getD (backgroundFromJson P row.backgroundJson)).map P.render = _ ↔ _
  cases patch.background with
  | none =>
    rw [getD_none, elim_none, Rendered]
    exact eq_comm.trans ⟨fun kept _ => kept, fun kept => kept rfl⟩
  | some background => exact iff_of_true rfl nofun

lemma after_executeViewUpdate {row : ViewRow} (found : db.views.lookup id = some row) :
    after (executeViewUpdate P ((DashboardView.ofRow P id row).merge patch)) db =
      (.ok (), { db with views := db.views.insert id (row.written P id patch) }) := by
  have current : db.views.lookup ((DashboardView.ofRow P id row).merge patch).id = some row := found
  rw [executeViewUpdate, after_step]
  simp only [current]
  rfl

lemma viewChange_iff :
    ViewChange P id patch db (after (updateView P id patch) db) ↔
      ∀ row, db.views.lookup id = some row → ViewAllowed P patch row →
        patch.background = none → Rendered P row := by
  refine iff_of_look (fun e failed => ⟨.inl ⟨e, rfl⟩, fun row _ allowed => ?_⟩) fun _ title => ?_
  · exact absurd (elim_eq_ok.mpr allowed.title) (error_ne_ok failed ())
  refine iff_of_look (fun e failed => ⟨.inl ⟨e, rfl⟩, fun row _ allowed => ?_⟩) fun _ density => ?_
  · exact absurd (elim_eq_ok.mpr allowed.density) (error_ne_ok failed ())
  refine iff_of_look (fun e failed => ⟨.inl ⟨e, rfl⟩, fun row _ allowed => ?_⟩) fun _ color => ?_
  · refine absurd (elim_eq_ok.mpr fun c named => allowed.color c ?_) (error_ne_ok failed ())
    exact join_eq_some_iff.mp named
  refine iff_of_look (fun e failed => ⟨.inl ⟨e, rfl⟩, fun row found _ => ?_⟩)
    fun view selected => ?_
  · rw [found] at failed
    cases failed
  obtain ⟨row, found, rfl⟩ := map_eq_some_iff.mp (require_eq_ok.mp selected)
  refine iff_of_look (fun e failed => ⟨.inl ⟨e, rfl⟩, fun row' found' allowed => ?_⟩)
    fun _ background => ?_
  · rw [found] at found'
    cases found'
    exact absurd (elim_eq_ok.mpr allowed.background) (error_ne_ok failed ())
  have allowed : ViewAllowed P patch row := by
    refine ⟨elim_eq_ok.mp title, elim_eq_ok.mp density, fun c named => ?_, elim_eq_ok.mp background⟩
    exact elim_eq_ok.mp color c (join_eq_some_iff.mpr named)
  rw [after_bind_ok (after_executeViewUpdate P id patch db found), after_pure]
  constructor
  · rintro (⟨e, failed⟩ | ⟨view, row', -, found', -, own, -⟩)
    · cases failed
    · rw [found] at found'
      cases found'
      rw [lookup_insert] at own
      intro other found'' _
      rw [found] at found''
      cases found''
      exact (view_written P id patch row).mp (Option.some.inj own)
  · intro kept
    have same := (view_written P id patch row).mpr (kept row found allowed)
    refine .inr ⟨_, row, rfl, found, rfl, ?_, fun other differ => ?_⟩
    · rw [lookup_insert, same]
    · exact lookup_insert_ne differ

end Views

section Instances
variable (P : Platform) (id : List Char) (patch : InstancePatch) (db : Db)

def InstanceRow.written (row : InstanceRow) : InstanceRow :=
  let current := (ofRow id row).merge patch
  { row with
    preset := current.preset, accentName := current.accentName, iconName := current.iconName
    customTitle := current.customTitle, glass := asI64OfBool current.glass
    hideTitle := asI64OfBool current.hideTitle, actionDirection := current.actionDirection
    settingsValuesJson := current.settingsValuesJson, bodyOpacity := current.bodyOpacity
    gridX := current.gridX, gridY := current.gridY, gridW := current.gridW
    gridH := current.gridH }

lemma after_executeInstanceUpdate {row : InstanceRow} (found : db.instances.lookup id = some row) :
    after (executeInstanceUpdate ((ofRow id row).merge patch)) db =
      (.ok (), { db with instances := db.instances.insert id (row.written id patch) }) := by
  have current :
      db.instances.lookup ((ofRow id row).merge patch).id = some row :=
    found
  rw [executeInstanceUpdate, after_step]
  simp only [current]
  rfl

lemma flag_written (value : Int) : asI64OfBool (value ≠ 0) = value ↔ IsFlag value := by
  by_cases zero : value = 0
  · rw [zero]
    exact iff_of_true rfl (.inl rfl)
  · rw [decide_eq_true zero, IsFlag, or_iff_right zero]
    exact eq_comm

variable (row : InstanceRow)

lemma glass_written :
    (row.written id patch).glass = (row.patched patch).glass ↔
      (patch.glass = none → IsFlag row.glass) := by
  change asI64OfBool (patch.glass.getD (row.glass ≠ 0)) = patch.glass.elim row.glass asI64OfBool ↔ _
  cases patch.glass with
  | none => exact (flag_written row.glass).trans ⟨fun flag _ => flag, fun flag => flag rfl⟩
  | some glass => exact iff_of_true rfl nofun

lemma hideTitle_written :
    (row.written id patch).hideTitle = (row.patched patch).hideTitle ↔
      (patch.hideTitle = none → isAmbient patch.preset = false → IsFlag row.hideTitle) := by
  change asI64OfBool (patch.hideTitle.getD (isAmbient patch.preset || row.hideTitle ≠ 0)) =
    patch.hideTitle.elim (if isAmbient patch.preset then 1 else row.hideTitle) asI64OfBool ↔ _
  cases patch.hideTitle with
  | some hideTitle => exact iff_of_true rfl nofun
  | none =>
    rw [forall_prop_of_true rfl, getD_none, elim_none]
    cases isAmbient patch.preset with
    | true => exact iff_of_true rfl nofun
    | false =>
      rw [Bool.false_or, if_neg Bool.false_ne_true, forall_prop_of_true rfl]
      exact flag_written row.hideTitle

/-- Only the two truth values are not written back as they were read. -/
lemma instance_written :
    row.Patches patch (row.written id patch) ↔
      (patch.glass = none → IsFlag row.glass) ∧
        (patch.hideTitle = none → isAmbient patch.preset = false → IsFlag row.hideTitle) := by
  rw [← glass_written id, ← hideTitle_written id]
  constructor
  · rintro (same | ⟨-, -, same⟩)
    · rw [same]
      exact ⟨rfl, rfl⟩
    · rw [same]
      exact ⟨rfl, rfl⟩
  · rintro ⟨glass, hideTitle⟩
    have rest : row.written id patch = { row.patched patch with
        preset := patch.preset.getD (normalizeLoadedPreset row.preset)
        glass := (row.written id patch).glass
        hideTitle := (row.written id patch).hideTitle } := rfl
    rw [glass, hideTitle] at rest
    rw [rest]
    cases named : patch.preset with
    | some preset =>
      refine .inl ?_
      rw [InstanceRow.patched, named]
      rfl
    | none =>
      rw [getD_none, normalizeLoadedPreset]
      split_ifs with legacy
      · exact .inr ⟨named, legacy, rfl⟩
      · refine .inl ?_
        rw [InstanceRow.patched, named]
        rfl

lemma instanceChange_iff :
    InstanceChange id patch db (after (updateInstance P id patch) db) ↔
      ∀ row, db.instances.lookup id = some row → InstanceAllowed P db id patch row →
        (patch.glass = none → IsFlag row.glass) ∧
          (patch.hideTitle = none → isAmbient patch.preset = false → IsFlag row.hideTitle) := by
  refine iff_of_look (fun e failed => ⟨.inl ⟨e, rfl⟩, fun row _ allowed => ?_⟩) fun _ preset => ?_
  · exact absurd (elim_eq_ok.mpr allowed.preset) (error_ne_ok failed ())
  refine iff_of_look (fun e failed => ⟨.inl ⟨e, rfl⟩, fun row _ allowed => ?_⟩) fun _ accent => ?_
  · exact absurd (elim_eq_ok.mpr allowed.accent) (error_ne_ok failed ())
  refine iff_of_look (fun e failed => ⟨.inl ⟨e, rfl⟩, fun row _ allowed => ?_⟩) fun _ icon => ?_
  · exact absurd (elim_eq_ok.mpr allowed.icon) (error_ne_ok failed ())
  refine iff_of_look (fun e failed => ⟨.inl ⟨e, rfl⟩, fun row found _ => ?_⟩) fun _ selected => ?_
  · rw [found] at failed
    cases failed
  obtain ⟨row, found, rfl⟩ := map_eq_some_iff.mp (require_eq_ok.mp selected)
  refine iff_of_look (fun e failed => ⟨.inl ⟨e, rfl⟩, fun _ _ allowed => ?_⟩) fun _ opacity => ?_
  · refine absurd (opacityAllowed_eq_ok.mpr fun value named => ?_) (error_ne_ok failed ())
    exact allowed.opacity value (join_eq_some_iff.mp named)
  refine iff_of_look (fun e failed => ⟨.inl ⟨e, rfl⟩, fun row' found' allowed => ?_⟩)
    fun _ bounds => ?_
  · rw [found] at found'
    cases found'
    exact absurd (mapError_eq_ok.mpr allowed.bounds) (error_ne_ok failed ())
  refine iff_of_look (fun e failed => ⟨.inl ⟨e, rfl⟩, fun row' found' allowed => ?_⟩)
    fun _ settings => ?_
  · rw [found] at found'
    cases found'
    refine absurd (mapError_eq_ok.mpr ?_) (error_ne_ok failed ())
    exact settingsAllowed_eq_ok.mpr allowed.settings
  have allowed : InstanceAllowed P db id patch row := by
    refine ⟨elim_eq_ok.mp preset, elim_eq_ok.mp accent, elim_eq_ok.mp icon, fun value named => ?_,
      mapError_eq_ok.mp bounds, settingsAllowed_eq_ok.mp (mapError_eq_ok.mp settings)⟩
    exact opacityAllowed_eq_ok.mp opacity value (join_eq_some_iff.mpr named)
  rw [after_bind_ok (after_executeInstanceUpdate id patch db found), after_pure]
  constructor
  · rintro (⟨e, failed⟩ | ⟨_, row', written, -, found', -, own, patches, -⟩)
    · cases failed
    · rw [found] at found'
      cases found'
      rw [lookup_insert] at own
      cases own
      intro other found'' _
      rw [found] at found''
      cases found''
      exact (instance_written id patch row).mp patches
  · intro kept
    have patches := (instance_written id patch row).mpr (kept row found allowed)
    refine .inr ⟨_, row, _, rfl, found, rfl, lookup_insert _, patches, fun other differ => ?_⟩
    exact lookup_insert_ne differ

end Instances

end Dashboard

/-!
# Files in use

What the collection finds in columns of backgrounds, and in maps that are read whole. A background
beside one that cannot be read is not found, although it can be read itself.
-/

namespace Dashboard

open List hiding after
open Fallible Effects

def DashboardBackground.file : DashboardBackground → Option (List Char)
  | .image file _ _ => some file
  | .video file _ _ => some file
  | _ => none

def cells (column : Option Column) : List (List Char) :=
  (column.getD []).filterMap id

def columnTexts (db : Db) : List (List Char) :=
  cells (some (viewBackgrounds db)) ++ cells db.siteBackgrounds ++ cells db.rackBackgrounds ++
    cells db.terminalBackgrounds

/-- A background of a column of backgrounds. -/
def InColumn (P : Platform) (db : Db) (file : List Char) : Prop :=
  ∃ json ∈ columnTexts db, ∃ background,
    parseBackground P json = some background ∧ background.file = some file

/-- A background in a map of backgrounds. -/
def InMap (P : Platform) (db : Db) (file : List Char) : Prop :=
  ∃ json ∈ cells db.roomBackgrounds, ∃ members, P.json json = some (.object members) ∧
    ∃ member ∈ members, ∃ background,
      readBackground P member.2 = some background ∧ background.file = some file

def LastIs (P : Platform) (members : List (List Char × JsonValue)) (name : List Char)
    (background : DashboardBackground) : Prop :=
  ∃ before value later, members = before ++ (name, value) :: later ∧
    (∀ member ∈ later, member.1 ≠ name) ∧ readBackground P value = some background

/-- What a map without unreadable backgrounds has for its names. -/
def FileOfMap (P : Platform) (json file : List Char) : Prop :=
  ∃ members name background, P.json json = some (.object members) ∧
    (∀ member ∈ members, readBackground P member.2 ≠ none) ∧
    LastIs P members name background ∧ background.file = some file

section Collection
variable {P : Platform} {files : Finset (List Char)} {file : List Char}

variable (members : List (List Char × JsonValue)) {background : DashboardBackground} {α : Type}
  {json : List Char}

lemma mem_collectBackgroundValue :
    file ∈ collectBackgroundValue files background ↔
      background.file = some file ∨ file ∈ files := by
  cases background with
  | image own fit dim =>
    rw [collectBackgroundValue, Finset.mem_insert, DashboardBackground.file, Option.some_inj,
      eq_comm]
  | video own fit dim =>
    rw [collectBackgroundValue, Finset.mem_insert, DashboardBackground.file, Option.some_inj,
      eq_comm]
  | preset name => simp [collectBackgroundValue, DashboardBackground.file]
  | dynamic name => simp [collectBackgroundValue, DashboardBackground.file]
  | customGradient stops angle => simp [collectBackgroundValue, DashboardBackground.file]

lemma mem_foldl {collect : Finset (List Char) → α → Finset (List Char)} {Finds : α → Prop}
    (round : ∀ files a, file ∈ collect files a ↔ Finds a ∨ file ∈ files) (list : List α)
    (files : Finset (List Char)) :
    file ∈ list.foldl collect files ↔ (∃ a ∈ list, Finds a) ∨ file ∈ files := by
  induction list generalizing files with
  | nil => exact (or_iff_right fun ⟨_, member, _⟩ => absurd member not_mem_nil).symm
  | cons a list ih => rw [foldl_cons, ih, round, exists_mem_cons_iff, or_left_comm, or_assoc]

lemma mem_collectBackgroundFile :
    file ∈ collectBackgroundFile P files json ↔
      (∃ background, parseBackground P json = some background ∧ background.file = some file) ∨
        file ∈ files := by
  rw [collectBackgroundFile]
  cases parsed : parseBackground P json with
  | none => exact (or_iff_right fun ⟨_, none_, _⟩ => nomatch none_).symm
  | some background => simp [mem_collectBackgroundValue]

lemma concat_eq_append_cons {list before later : List α} {last a : α}
    (split : list ++ [last] = before ++ a :: later) :
    later = [] ∧ last = a ∨ ∃ later', later = later' ++ [last] ∧ list = before ++ a :: later' := by
  rcases eq_nil_or_concat later with rfl | ⟨later', other, rfl⟩
  · exact .inl ⟨rfl, singleton_inj.mp (append_inj' split rfl).2⟩
  · rw [concat_eq_append, ← cons_append, ← append_assoc] at split
    obtain ⟨rfl, same⟩ := append_inj' split rfl
    rw [singleton_inj.mp same]
    exact .inr ⟨later', concat_eq_append, rfl⟩

lemma lastIs_concat {members : List (List Char × JsonValue)} {member : List Char × JsonValue}
    {name : List Char} :
    LastIs P (members ++ [member]) name background ↔
      if name = member.1 then readBackground P member.2 = some background
      else LastIs P members name background := by
  split_ifs with here
  · constructor
    · rintro ⟨before, value, later, split, fresh, read⟩
      rcases concat_eq_append_cons split with ⟨-, rfl⟩ | ⟨later, rfl, -⟩
      · exact read
      · exact absurd here.symm (fresh member (mem_append_right _ mem_cons_self))
    · intro read
      exact ⟨members, member.2, [], by rw [here], nofun, read⟩
  · constructor
    · rintro ⟨before, value, later, split, fresh, read⟩
      rcases concat_eq_append_cons split with ⟨-, rfl⟩ | ⟨later, rfl, rfl⟩
      · exact absurd rfl here
      · exact ⟨before, value, later, rfl, fun m own => fresh m (mem_append_left _ own), read⟩
    · rintro ⟨before, value, later, rfl, fresh, read⟩
      refine ⟨before, value, later ++ [member], by rw [append_assoc, cons_append],
        fun m own => ?_, read⟩
      rcases mem_append.mp own with old | new
      · exact fresh m old
      · rw [mem_singleton.mp new]
        exact Ne.symm here

lemma readBackgroundMap_concat (member : List Char × JsonValue) :
    readBackgroundMap P (.object (members ++ [member])) =
      (readBackgroundMap P (.object members)).bind fun map =>
        (readBackground P member.2).map fun background => map.insert member.1 background := by
  rw [readBackgroundMap, foldlM_append, readBackgroundMap]
  simp

/-- A map is read when all its backgrounds are, and has the last of each name. -/
lemma readBackgroundMap_spec :
    ((∃ member ∈ members, readBackground P member.2 = none) ∧
        readBackgroundMap P (.object members) = none) ∨
      ((∀ member ∈ members, readBackground P member.2 ≠ none) ∧
        ∃ map, readBackgroundMap P (.object members) = some map ∧
          ∀ name background, map.lookup name = some background ↔
            LastIs P members name background) := by
  induction members using reverseRecOn with
  | nil =>
    refine .inr ⟨nofun, ∅, rfl, fun name background => iff_of_false nofun ?_⟩
    rintro ⟨before, value, later, split, -⟩
    exact append_ne_nil_of_right_ne_nil _ (cons_ne_nil _ _) split.symm
  | append_singleton members member ih =>
    rw [readBackgroundMap_concat]
    rcases ih with ⟨⟨other, old, unread⟩, none_⟩ | ⟨all, map, read, spec⟩
    · refine .inl ⟨⟨other, mem_append_left _ old, unread⟩, ?_⟩
      rw [none_]
      rfl
    · rw [read, Option.bind_some]
      cases own : readBackground P member.2 with
      | none => exact .inl ⟨⟨member, mem_append_right _ mem_cons_self, own⟩, rfl⟩
      | some background =>
        refine .inr ⟨fun m listed => ?_, _, rfl, fun name other => ?_⟩
        · rcases mem_append.mp listed with old | new
          · exact all m old
          · rw [mem_singleton.mp new, own]
            nofun
        · rw [lastIs_concat, own]
          split_ifs with here
          · rw [here, AList.lookup_insert]
          · rw [AList.lookup_insert_ne here, spec]

lemma mem_collectBackgroundMap :
    file ∈ collectBackgroundMap P files json ↔ FileOfMap P json file ∨ file ∈ files := by
  rw [collectBackgroundMap]
  cases found : (P.json json).bind (readBackgroundMap P) with
  | none =>
    refine (or_iff_right ?_).symm
    rintro ⟨members, name, background, parsed, all, -, -⟩
    rw [parsed, Option.bind_some] at found
    rcases readBackgroundMap_spec members with ⟨⟨member, listed, unread⟩, -⟩ | ⟨-, map, read, -⟩
    · exact all member listed unread
    · rw [found] at read
      cases read
  | some map =>
    have round : ∀ files background, file ∈ collectBackgroundValue files background ↔
        background.file = some file ∨ file ∈ files :=
      fun files background => mem_collectBackgroundValue
    refine (mem_foldl round (map.entries.map Sigma.snd) files).trans (or_congr_left ?_)
    obtain ⟨value, parsed, read⟩ := Option.bind_eq_some_iff.mp found
    have whole : ∃ members, value = .object members := by
      cases value with
      | object members => exact ⟨members, rfl⟩
      | _ => cases read
    obtain ⟨members, rfl⟩ := whole
    rcases readBackgroundMap_spec members with ⟨-, none_⟩ | ⟨all, map', read', spec⟩
    · rw [none_] at read
      cases read
    rw [read] at read'
    cases read'
    constructor
    · rintro ⟨background, listed, named⟩
      obtain ⟨⟨name, background⟩, entry, rfl⟩ := mem_map.mp listed
      have last := (spec name background).mp (AList.mem_lookup_iff.mpr entry)
      exact ⟨members, name, background, parsed, all, last, named⟩
    · rintro ⟨members', name, background, parsed', -, last, named⟩
      rw [parsed] at parsed'
      cases parsed'
      have entry := AList.mem_lookup_iff.mp ((spec name background).mpr last)
      exact ⟨background, mem_map_of_mem entry, named⟩

lemma mem_referenced (db : Db) :
    file ∈ referencedBackgroundImageFiles P db ↔
      InColumn P db file ∨ ∃ json ∈ cells db.roomBackgrounds, FileOfMap P json file := by
  have columns : collectBackgroundColumn P db.terminalBackgrounds
      (collectBackgroundColumn P db.rackBackgrounds (collectBackgroundColumn P db.siteBackgrounds
          (collectBackgroundColumn P (some (viewBackgrounds db)) ∅))) =
      (columnTexts db).foldl (collectBackgroundFile P) ∅ := by
    rw [columnTexts, foldl_append, foldl_append, foldl_append]
    rfl
  have single : ∀ files json, file ∈ collectBackgroundFile P files json ↔
      (∃ background, parseBackground P json = some background ∧ background.file = some file) ∨
        file ∈ files := fun files json => mem_collectBackgroundFile
  have whole : ∀ files json, file ∈ collectBackgroundMap P files json ↔
      FileOfMap P json file ∨ file ∈ files := fun files json => mem_collectBackgroundMap
  rw [referencedBackgroundImageFiles, columns]
  refine (mem_foldl whole (cells db.roomBackgrounds) _).trans ?_
  rw [mem_foldl single, or_comm, or_iff_left (Finset.notMem_empty file)]
  rfl

end Collection

/-- Just the named columns are changed and all files in use are found, unless a background that is
not named has another text than the one that is read, a truth value is not one, or a room's
background with a file that is named nowhere else is in a map that is not read, or not the last
of its name. -/
theorem patched_as_named_iff (P : Platform) (db : Db) (viewId : List Char) (viewPatch : ViewPatch)
    (instanceId : List Char) (instancePatch : InstancePatch) :
    (ViewChange P viewId viewPatch db (after (updateView P viewId viewPatch) db) ↔
      ∀ row, db.views.lookup viewId = some row → ViewAllowed P viewPatch row →
        viewPatch.background = none → Rendered P row) ∧
    (InstanceChange instanceId instancePatch db
        (after (updateInstance P instanceId instancePatch) db) ↔
      ∀ row, db.instances.lookup instanceId = some row →
        InstanceAllowed P db instanceId instancePatch row →
        (instancePatch.glass = none → IsFlag row.glass) ∧
          (instancePatch.hideTitle = none → isAmbient instancePatch.preset = false →
            IsFlag row.hideTitle)) ∧
    ((∀ file, InColumn P db file ∨ InMap P db file → file ∈ referencedBackgroundImageFiles P db) ↔
      ∀ file, InMap P db file →
        InColumn P db file ∨ ∃ json ∈ cells db.roomBackgrounds, FileOfMap P json file) := by
  refine ⟨viewChange_iff P viewId viewPatch db, instanceChange_iff P instanceId instancePatch db,
    ?_⟩
  simp only [mem_referenced]
  constructor
  · intro found file inMap
    exact found file (.inr inMap)
  · rintro readable file (inColumn | inMap)
    · exact .inl inColumn
    · exact readable file inMap

def hologramText : List Char :=
  "\x7b\"kind\":\"hologram\"\x7d".toList

def hologram : JsonValue :=
  .object [("kind".toList, .string "hologram".toList)]

def roomsText : List Char :=
  ("\x7b\"A\":\x7b\"kind\":\"image\",\"file\":\"a.png\",\"fit\":\"fill\",\"dim\":0\x7d," ++
    "\"B\":\x7b\"kind\":\"hologram\"\x7d\x7d").toList

def rooms : JsonValue :=
  .object [("A".toList, .object [("kind".toList, .string "image".toList),
    ("file".toList, .string "a.png".toList), ("fit".toList, .string "fill".toList),
    ("dim".toList, .integer 0)]), ("B".toList, hologram)]

/-- A platform that reads these two texts. -/
def samplePlatform : Platform where
  json text := if text = hologramText then some hologram
    else if text = roomsText then some rooms else none
  render _ := hologramText
  lower c := [c.toLower]
  lowercase := List.map Char.toLower
  isAlphanumeric := Char.isAlphanum
  icons := []
  catalog := []

def sampleDb : Db where
  views := AList.singleton ['v'] ⟨['V'], 0, "default".toList, some hologramText, none⟩
  instances := ∅
  settingsSchemas := ∅
  siteBackgrounds := none
  rackBackgrounds := none
  terminalBackgrounds := none
  roomBackgrounds := some [some roomsText]

/-- A new title erases a background of another version; an image beside such a background is
not found. -/
theorem hologram_erased :
    let patch : ViewPatch := { title := some ['W'] }
    (after (updateView samplePlatform ['v'] patch) sampleDb).2.views.lookup ['v'] =
        some ⟨['W'], 0, "default".toList, none, none⟩ ∧
      ¬ ViewChange samplePlatform ['v'] patch sampleDb
        (after (updateView samplePlatform ['v'] patch) sampleDb) ∧
      InMap samplePlatform sampleDb "a.png".toList ∧
      "a.png".toList ∉ referencedBackgroundImageFiles samplePlatform sampleDb := by
  have unread : parseBackground samplePlatform hologramText = none := by decide
  refine ⟨by rfl, fun change => ?_, ?_, ?_⟩
  · have allowed : ViewAllowed samplePlatform { title := some ['W'] }
        ⟨['V'], 0, "default".toList, some hologramText, none⟩ := by
      refine ⟨?_, nofun, nofun, ?_⟩
      · rintro _ ⟨⟩
        decide
      · intro background same
        change parseBackground samplePlatform hologramText = _ at same
        rw [unread] at same
        cases same
    have kept := (viewChange_iff _ _ _ _).mp change _ rfl allowed rfl
    change some hologramText = (parseBackground samplePlatform hologramText).map _ at kept
    rw [unread] at kept
    cases kept
  · exact ⟨roomsText, mem_cons_self, _, rfl, _, mem_cons_self,
      .image "a.png".toList "fill".toList 0, by rfl, rfl⟩
  · decide

end Dashboard
