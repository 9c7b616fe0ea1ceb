import KKTerm.Library.Effects
import KKTerm.Widgets.StoredBody
import Mathlib.Data.Finset.Insert
import Mathlib.Data.List.AList

/-!
# Checks of dashboard values

The checks that a change of a view or a widget must pass. The names of the icons and the catalog
of dynamic backgrounds are bundled tables; they are parameters, as are the JSON reader and
writer and what is known of letters.
-/

namespace Dashboard

open Fallible JsonValue Text

inductive ValidationError where
  | invalidPreset
  | invalidAccent
  | invalidIcon
  | invalidGridBounds
  | invalidTitle
  | invalidGridDensity
  | invalidSettingsSchema
  | invalidSettingsValues
  | invalidBackground
  | invalidBodyOpacity
  deriving DecidableEq

def presets : List String :=
  ["panel", "ambient", "hero"]

def accents : List String :=
  ["default", "blue", "indigo", "teal", "green", "amber", "red", "purple", "pink", "slate",
    "cyan", "orange", "rose", "emerald", "sky"]

def backgroundPresetIds : List String :=
  ["mist", "sand", "sage", "sky", "blush", "lavender", "slate", "graphite", "midnight", "pine",
    "aubergine", "ember", "harbor", "moss", "wine", "steel", "g-dawn", "g-fog", "g-meadow",
    "g-dusk", "g-linen", "g-horizon", "g-petal", "g-twilight", "g-midnight", "g-harbor",
    "g-ember", "g-orchid", "g-forest", "g-eclipse", "g-cobalt", "g-nocturne"]

def dashboardTabColorIds : List String :=
  ["mist", "sand", "sage", "sky", "blush", "lavender", "graphite", "midnight", "g-dawn", "g-fog",
    "g-meadow", "g-dusk", "g-linen", "g-horizon", "g-petal", "g-twilight", "g-midnight",
    "g-harbor", "g-ember", "g-orchid", "g-forest", "g-eclipse", "g-cobalt", "g-nocturne"]

def dynamicBackgroundIds : List String :=
  ["fuji", "aurora", "halftone", "clouds", "ocean", "clearwater", "mistySea", "maelstrom",
    "sunGlitter", "whitecaps", "waveField", "openOceanBlue", "tropicalGreen", "waters",
    "raindrops", "rainywindow", "frostedWindow", "snow", "sakura", "fireflies", "bubbles",
    "aquarium", "jellyfish", "lighthouse", "balloons", "ricefield", "lanterns", "starfield",
    "nebula", "orbitals", "embers", "lava", "ink", "dunes", "savanna", "matrix", "topo",
    "synthwave", "circuit", "crystals", "cyberpunk", "taipei101", "thunderstorm", "confetti",
    "particleCursor", "heroGeometric", "ditherPrismHero", "webglLiquid", "silkAurora",
    "closingPlasma", "animatedGradient", "prismGradient", "liquidChrome", "windowRain",
    "submergedSnellOcean", "spectralCascadeOcean", "blackHole", "predictiveArc", "liquidForm",
    "energyOrb", "noiseFlow", "streamConvergence", "bellField", "flowField", "condensation",
    "generativeTree", "ribbonField", "particleOrb", "cloudField", "voidField", "recursiveErosion",
    "quanteraTradingBackground", "halftoneFlow", "constellationField", "particleDrift",
    "particleNetwork", "amberHalftone", "matrixField", "gatewayFlow", "connectivityGraph",
    "interfaceLines", "defenseLines", "topoField", "sylvaLivingWorld", "templeNight"]

def backgroundFits : List String :=
  ["fill", "fit", "stretch", "tile", "center"]

def gridColumns : Int := 12
def gridMaxRows : Int := 1000
def maxSettingsValuesBytes : Nat := 32 * 1024

structure GradientColorStop where
  color : List Char
  offset : Rat
  deriving DecidableEq

inductive DashboardBackground where
  | preset (preset : List Char)
  | image (file fit : List Char) (dim : Int)
  | video (file fit : List Char) (dim : Int)
  | dynamic (dynamic : List Char)
  | customGradient (stops : List GradientColorStop) (angle : Rat)
  deriving DecidableEq

/-- A dynamic background with its names in all languages. -/
structure CatalogEntry where
  id : List Char
  names : List (List Char)

structure Platform where
  json : List Char → Option JsonValue
  render : DashboardBackground → List Char
  lower : Char → List Char
  lowercase : List Char → List Char
  isAlphanumeric : Char → Bool
  icons : List (List Char)
  catalog : List CatalogEntry

def oneOf (names : List String) (value : List Char) : Bool :=
  value ∈ names.map String.toList

def isHexDigit (c : Char) : Bool :=
  (hexDigit c).isSome

def validatePreset (value : List Char) : Except ValidationError Unit :=
  reject (oneOf presets value = false) .invalidPreset

def validateAccent (value : List Char) : Except ValidationError Unit :=
  let isHexColor := match value with
    | '#' :: digits => byteLength value = 7 && digits.all isHexDigit
    | _ => false
  reject (oneOf accents value = false ∧ isHexColor = false) .invalidAccent

def isSafeMaterialIconRef (value : List Char) : Bool :=
  match "material:".toList.isPrefixOf? value with
  | some (first :: rest) =>
    byteLength (first :: rest) ≤ 96 &&
      (isAsciiLowercase first || isAsciiDigit first) &&
      rest.all fun c =>
        isAsciiLowercase c || isAsciiDigit c || c = '.' || c = '_' || c = '-'
  | _ => false

def validateIcon (icons : List (List Char)) (value : List Char) : Except ValidationError Unit :=
  reject (value ∉ icons ∧ isSafeMaterialIconRef value = false) .invalidIcon

def checkedAdd (a b : Int) : Option Int :=
  if -2 ^ 63 ≤ a + b ∧ a + b < 2 ^ 63 then some (a + b) else none

def validateGridBounds (x y w h : Int) : Except ValidationError Unit := do
  let right ← require (checkedAdd x w) .invalidGridBounds
  let bottom ← require (checkedAdd y h) .invalidGridBounds
  reject (w < 1 ∨ h < 1 ∨ x < 0 ∨ y < 0 ∨ gridColumns < right ∨ gridMaxRows < bottom)
    .invalidGridBounds

def validateGridDensity (value : List Char) : Except ValidationError Unit :=
  reject (oneOf ["compact", "default", "roomy"] value = false) .invalidGridDensity

def validateTitle (value : List Char) : Except ValidationError Unit :=
  let trimmed := trim value
  reject (trimmed = [] ∨ 120 < byteLength trimmed) .invalidTitle

def validateDashboardTabColor (color : List Char) : Except ValidationError Unit :=
  reject (oneOf dashboardTabColorIds color = false) .invalidBackground

def validateBackgroundPreset (preset : List Char) : Except ValidationError Unit :=
  reject (oneOf backgroundPresetIds preset = false) .invalidBackground

def validateDynamicBackground (dynamic : List Char) : Except ValidationError Unit :=
  reject (oneOf dynamicBackgroundIds dynamic = false) .invalidBackground

def isValidHexColor (value : List Char) : Bool :=
  match value with
  | '#' :: digits =>
    (byteLength value = 4 || byteLength value = 7) && digits.all isHexDigit
  | _ => false

def validateCustomGradient (stops : List GradientColorStop) (angle : Rat) :
    Except ValidationError Unit := do
  reject (stops.length < 2 ∨ 8 < stops.length) .invalidBackground
  reject (¬ (0 ≤ angle ∧ angle ≤ 360)) .invalidBackground
  forM stops fun stop => do
    reject (¬ (0 ≤ stop.offset ∧ stop.offset ≤ 100)) .invalidBackground
    reject (isValidHexColor stop.color = false) .invalidBackground

def validateBackgroundMedia (lowercase : List Char → List Char) (extensions : List String)
    (file fit : List Char) (dim : Int) : Except ValidationError Unit := do
  reject (file = [] ∨ '/' ∈ file ∨ '\\' ∈ file ∨ contains file "..".toList = true)
    .invalidBackground
  reject (oneOf backgroundFits fit = false) .invalidBackground
  reject (dim < -100 ∨ 100 < dim) .invalidBackground
  let (_, extension) ← require (rsplitOnce '.' file) .invalidBackground
  reject (oneOf extensions (lowercase extension) = false) .invalidBackground

def validateBackgroundImage (lowercase : List Char → List Char) :
    List Char → List Char → Int → Except ValidationError Unit :=
  validateBackgroundMedia lowercase ["png", "jpg", "jpeg", "webp", "gif", "bmp", "svg"]

def validateBackgroundVideo (lowercase : List Char → List Char) :
    List Char → List Char → Int → Except ValidationError Unit :=
  validateBackgroundMedia lowercase ["mp4", "webm", "mov", "m4v", "ogv"]

def DashboardBackground.validate (P : Platform) : DashboardBackground → Except ValidationError Unit
  | .preset name => validateBackgroundPreset name
  | .image file fit dim => validateBackgroundImage P.lowercase file fit dim
  | .video file fit dim => validateBackgroundVideo P.lowercase file fit dim
  | .dynamic name => validateDynamicBackground name
  | .customGradient stops angle => validateCustomGradient stops angle

def dashboardWidgetSecretOwnerId (instanceId key : List Char) : List Char :=
  "dashboard-widget-secret:".toList ++ instanceId ++ ':' :: key

def validateSettingsValuesJson (P : Platform) (json : List Char) :
    Except ValidationError JsonValue := do
  reject (maxSettingsValuesBytes < byteLength json) .invalidSettingsValues
  let parsed ← require (P.json json) .invalidSettingsValues
  reject (parsed.isObject = false) .invalidSettingsValues
  pure parsed

/-- A value of a secret field is missing, null or a reference to the field's own secret. -/
def validSecretRef (instanceId key : List Char) (value : JsonValue) : Bool :=
  (value.get "type".toList).bind asString = some "secretRef".toList &&
    (value.get "ownerId".toList).bind asString =
      some (dashboardWidgetSecretOwnerId instanceId key) &&
    (value.get "hasSecret".toList).bind asBool = some true &&
    (value.get "updatedAt".toList).all fun value => value.asString.isSome

def checkSecret (instanceId : List Char) (values field : JsonValue) :
    Except ValidationError Unit := do
  reject (field.isObject = false) .invalidSettingsSchema
  if (field.get "type".toList).bind asString = some "secret".toList then
    let key ← require ((field.get "key".toList).bind asString) .invalidSettingsSchema
    match values.get key with
    | none => pure ()
    | some .null => pure ()
    | some value =>
      reject (value.isObject = false ∨ validSecretRef instanceId key value = false)
        .invalidSettingsValues
  else pure ()

def validateSettingsValuesForSchemaJson (P : Platform) (schemaJson valuesJson : List Char)
    (instanceId : List Char) : Except ValidationError Unit := do
  (Widgets.validateSettingsSchemaJson P.json schemaJson).mapError fun _ => .invalidSettingsSchema
  let values ← validateSettingsValuesJson P valuesJson
  let schema ← require (P.json schemaJson) .invalidSettingsSchema
  let fields ← require ((schema.get "fields".toList).bind asArray) .invalidSettingsSchema
  forM fields (checkSecret instanceId values)

end Dashboard

/-!
# Stored views and widgets

A change of a view or a widget reads its row, merges the patch into it and writes all columns.
The files of backgrounds that are in use are collected from all tables.
-/

namespace Dashboard

open Fallible Effects JsonValue

def normalize (P : Platform) (value : List Char) : List Char :=
  (value.flatMap P.lower).filter P.isAlphanumeric

/-- The identifier that a name stands for, if there is just one. -/
def resolveDynamic (P : Platform) (name : List Char) : Option (List Char) :=
  if P.catalog.any (·.id = name) then some name
  else
    let key := normalize P name
    if key = [] then none
    else
      let isNamed (entry : CatalogEntry) :=
        normalize P entry.id = key || entry.names.any (normalize P · = key)
      match P.catalog.filter isNamed with
      | [entry] => some entry.id
      | _ => none

def asI64 : JsonValue → Option Int
  | .integer value => if -2 ^ 63 ≤ value ∧ value < 2 ^ 63 then some value else none
  | _ => none

/-- The kind of a background, and the value without it. -/
def tagged : JsonValue → Option (List Char × JsonValue)
  | .object members =>
    match members.filter (·.1 = "kind".toList) with
    | [(_, .string kind)] => some (kind, .object (members.filter (·.1 ≠ "kind".toList)))
    | _ => none
  | .array (.string kind :: items) => some (kind, .array items)
  | _ => none

def readText (name : String) (content : JsonValue) : Option (List Char) := do
  let field ← content.fields [name.toList]
  (field name.toList).bind asString

def readMedia (make : List Char → List Char → Int → DashboardBackground) (content : JsonValue) :
    Option DashboardBackground := do
  let field ← content.fields ["file".toList, "fit".toList, "dim".toList]
  let file ← (field "file".toList).bind asString
  let fit ← (field "fit".toList).bind asString
  let dim ← (field "dim".toList).bind asI64
  some (make file fit dim)

def readStop (value : JsonValue) : Option GradientColorStop := do
  let field ← value.fields ["color".toList, "offset".toList]
  let color ← (field "color".toList).bind asString
  let offset ← (field "offset".toList).bind asNumber
  some { color, offset }

def readGradient (content : JsonValue) : Option DashboardBackground := do
  let field ← content.fields ["stops".toList, "angle".toList]
  let items ← (field "stops".toList).bind asArray
  let stops ← items.mapM readStop
  let angle ← (field "angle".toList).bind asNumber
  some (.customGradient stops angle)

def readBackground (P : Platform) (value : JsonValue) : Option DashboardBackground := do
  let (kind, content) ← tagged value
  if kind = "preset".toList then (readText "preset" content).map .preset
  else if kind = "image".toList then readMedia .image content
  else if kind = "video".toList then readMedia .video content
  else if kind = "dynamic".toList then
    ((readText "dynamic" content).bind (resolveDynamic P)).map .dynamic
  else if kind = "customGradient".toList then readGradient content
  else none

def parseBackground (P : Platform) (json : List Char) : Option DashboardBackground :=
  (P.json json).bind (readBackground P)

def backgroundFromJson (P : Platform) (raw : Option (List Char)) : Option DashboardBackground :=
  raw.bind (parseBackground P)

abbrev BackgroundMap := AList (fun _ : List Char => DashboardBackground)

/-- Each name has the last of its backgrounds; one that cannot be read makes the map unreadable. -/
def readBackgroundMap (P : Platform) : JsonValue → Option BackgroundMap
  | .object members => members.foldlM (fun map member =>
      (readBackground P member.2).map fun background => map.insert member.1 background) ∅
  | _ => none

structure ViewRow where
  title : List Char
  sortOrder : Int
  gridDensity : List Char
  backgroundJson : Option (List Char)
  tabColor : Option (List Char)
  deriving DecidableEq

structure InstanceRow where
  viewId : List Char
  kind : List Char
  sourceId : List Char
  preset : List Char
  accentName : List Char
  iconName : List Char
  customTitle : Option (List Char)
  glass : Int
  hideTitle : Int
  actionDirection : Option (List Char)
  settingsValuesJson : List Char
  bodyOpacity : Option Int
  gridX : Int
  gridY : Int
  gridW : Int
  gridH : Int
  sortOrder : Int
  deriving DecidableEq

abbrev Column := List (Option (List Char))

/-- Rows have identifiers. Columns of other tables may be missing. -/
structure Db where
  views : AList (fun _ : List Char => ViewRow)
  instances : AList (fun _ : List Char => InstanceRow)
  settingsSchemas : AList (fun _ : List Char => List Char)
  siteBackgrounds : Option Column
  rackBackgrounds : Option Column
  terminalBackgrounds : Option Column
  roomBackgrounds : Option Column

structure DashboardView where
  id : List Char
  title : List Char
  sortOrder : Int
  gridDensity : List Char
  background : Option DashboardBackground
  tabColor : Option (List Char)

structure DashboardWidgetInstance where
  id : List Char
  viewId : List Char
  kind : List Char
  sourceId : List Char
  preset : List Char
  accentName : List Char
  iconName : List Char
  customTitle : Option (List Char)
  glass : Bool
  hideTitle : Bool
  actionDirection : Option (List Char)
  settingsValuesJson : List Char
  bodyOpacity : Option Int
  gridX : Int
  gridY : Int
  gridW : Int
  gridH : Int
  sortOrder : Int

/-- What is none is not changed. -/
structure ViewPatch where
  title : Option (List Char) := none
  gridDensity : Option (List Char) := none
  sortOrder : Option Int := none
  background : Option (Option DashboardBackground) := none
  tabColor : Option (Option (List Char)) := none

structure InstancePatch where
  preset : Option (List Char) := none
  accentName : Option (List Char) := none
  iconName : Option (List Char) := none
  customTitle : Option (Option (List Char)) := none
  glass : Option Bool := none
  hideTitle : Option Bool := none
  actionDirection : Option (Option (List Char)) := none
  settingsValuesJson : Option (List Char) := none
  bodyOpacity : Option (Option Int) := none
  gridX : Option Int := none
  gridY : Option Int := none
  gridW : Option Int := none
  gridH : Option Int := none

inductive DashboardStorageError where
  | validation (kind : ValidationError) (detail : Option (List Char))
  | notFound
  deriving DecidableEq

abbrev Change (α : Type) := Action Db DashboardStorageError α

def check (checked : Except ValidationError Unit) : Change Unit :=
  step fun db => (checked.mapError (.validation · none), db)

def checkSome {α : Type} (validate : α → Except ValidationError Unit) (value : Option α) :
    Change Unit :=
  check (value.elim (.ok ()) validate)

def DashboardView.ofRow (P : Platform) (id : List Char) (row : ViewRow) : DashboardView where
  id
  title := row.title
  sortOrder := row.sortOrder
  gridDensity := row.gridDensity
  background := backgroundFromJson P row.backgroundJson
  tabColor := row.tabColor

def selectView (P : Platform) (id : List Char) : Change DashboardView :=
  step fun db =>
    (require ((db.views.lookup id).map (DashboardView.ofRow P id)) .notFound, db)

def DashboardView.merge (current : DashboardView) (patch : ViewPatch) : DashboardView :=
  { current with
    title := patch.title.getD current.title
    gridDensity := patch.gridDensity.getD current.gridDensity
    sortOrder := patch.sortOrder.getD current.sortOrder
    background := patch.background.getD current.background
    tabColor := patch.tabColor.getD current.tabColor }

def backgroundToJson (P : Platform) : Option DashboardBackground → Option (List Char) :=
  Option.map P.render

def executeViewUpdate (P : Platform) (current : DashboardView) : Change Unit :=
  step fun db =>
    let row : ViewRow := {
      title := current.title, sortOrder := current.sortOrder, gridDensity := current.gridDensity
      backgroundJson := backgroundToJson P current.background, tabColor := current.tabColor }
    match db.views.lookup current.id with
    | none => (.ok (), db)
    | some _ => (.ok (), { db with views := db.views.insert current.id row })

def updateView (P : Platform) (id : List Char) (patch : ViewPatch) : Change DashboardView := do
  checkSome validateTitle patch.title
  checkSome validateGridDensity patch.gridDensity
  checkSome validateDashboardTabColor patch.tabColor.join
  let row ← selectView P id
  let current := row.merge patch
  checkSome (DashboardBackground.validate P) current.background
  executeViewUpdate P current
  pure current

def normalizeLoadedPreset (preset : List Char) : List Char :=
  if oneOf ["mono", "tile", "action"] preset then "panel".toList else preset

def DashboardWidgetInstance.ofRow (id : List Char) (row : InstanceRow) :
    DashboardWidgetInstance where
  id
  viewId := row.viewId
  kind := row.kind
  sourceId := row.sourceId
  preset := normalizeLoadedPreset row.preset
  accentName := row.accentName
  iconName := row.iconName
  customTitle := row.customTitle
  glass := row.glass ≠ 0
  hideTitle := row.hideTitle ≠ 0
  actionDirection := row.actionDirection
  settingsValuesJson := row.settingsValuesJson
  bodyOpacity := row.bodyOpacity
  gridX := row.gridX
  gridY := row.gridY
  gridW := row.gridW
  gridH := row.gridH
  sortOrder := row.sortOrder

def selectInstance (id : List Char) : Change DashboardWidgetInstance :=
  step fun db =>
    (require ((db.instances.lookup id).map (DashboardWidgetInstance.ofRow id)) .notFound, db)

def isAmbient (preset : Option (List Char)) : Bool :=
  preset = some "ambient".toList

def DashboardWidgetInstance.merge (current : DashboardWidgetInstance) (patch : InstancePatch) :
    DashboardWidgetInstance :=
  { current with
    preset := patch.preset.getD current.preset
    accentName := patch.accentName.getD current.accentName
    iconName := patch.iconName.getD current.iconName
    customTitle := patch.customTitle.getD current.customTitle
    glass := patch.glass.getD current.glass
    hideTitle := patch.hideTitle.getD (isAmbient patch.preset || current.hideTitle)
    actionDirection := patch.actionDirection.getD current.actionDirection
    settingsValuesJson := patch.settingsValuesJson.getD current.settingsValuesJson
    bodyOpacity := patch.bodyOpacity.getD current.bodyOpacity
    gridX := patch.gridX.getD current.gridX
    gridY := patch.gridY.getD current.gridY
    gridW := patch.gridW.getD current.gridW
    gridH := patch.gridH.getD current.gridH }

def opacityDetail (value : Int) : List Char :=
  "body_opacity must be between 0 and 100; got ".toList ++ (toString value).toList

def opacityAllowed : Option Int → Except DashboardStorageError Unit
  | some value =>
    if value < 0 ∨ 100 < value then
      .error (.validation .invalidBodyOpacity (some (opacityDetail value)))
    else .ok ()
  | none => .ok ()

def checkOpacity (bodyOpacity : Option Int) : Change Unit :=
  step fun db => (opacityAllowed bodyOpacity, db)

/-- The values of a scripted widget must fit its schema, if there is one. -/
def settingsAllowed (P : Platform) (db : Db) (current : DashboardWidgetInstance) :
    Except ValidationError Unit :=
  if current.kind ≠ "script".toList then .ok ()
  else
    match db.settingsSchemas.lookup current.sourceId with
    | none => .ok ()
    | some schema =>
      validateSettingsValuesForSchemaJson P schema current.settingsValuesJson current.id

def validateInstanceSettingsValues (P : Platform) (current : DashboardWidgetInstance) :
    Change Unit :=
  step fun db => ((settingsAllowed P db current).mapError (.validation · none), db)

def asI64OfBool (value : Bool) : Int :=
  if value then 1 else 0

def executeInstanceUpdate (current : DashboardWidgetInstance) : Change Unit :=
  step fun db =>
    let change (row : InstanceRow) : InstanceRow := { row with
      preset := current.preset, accentName := current.accentName, iconName := current.iconName
      customTitle := current.customTitle, glass := asI64OfBool current.glass
      hideTitle := asI64OfBool current.hideTitle, actionDirection := current.actionDirection
      settingsValuesJson := current.settingsValuesJson, bodyOpacity := current.bodyOpacity
      gridX := current.gridX, gridY := current.gridY, gridW := current.gridW
      gridH := current.gridH }
    match db.instances.lookup current.id with
    | none => (.ok (), db)
    | some row => (.ok (), { db with instances := db.instances.insert current.id (change row) })

def updateInstance (P : Platform) (id : List Char) (patch : InstancePatch) :
    Change DashboardWidgetInstance := do
  checkSome validatePreset patch.preset
  checkSome validateAccent patch.accentName
  checkSome (validateIcon P.icons) patch.iconName
  let row ← selectInstance id
  checkOpacity patch.bodyOpacity.join
  let current := row.merge patch
  check (validateGridBounds current.gridX current.gridY current.gridW current.gridH)
  validateInstanceSettingsValues P current
  executeInstanceUpdate current
  pure current

def collectBackgroundValue (files : Finset (List Char)) :
    DashboardBackground → Finset (List Char)
  | .image file _ _ => insert file files
  | .video file _ _ => insert file files
  | _ => files

def collectBackgroundFile (P : Platform) (files : Finset (List Char)) (json : List Char) :
    Finset (List Char) :=
  match parseBackground P json with
  | some background => collectBackgroundValue files background
  | none => files

def collectBackgroundMap (P : Platform) (files : Finset (List Char)) (json : List Char) :
    Finset (List Char) :=
  match (P.json json).bind (readBackgroundMap P) with
  | some backgrounds =>
    (backgrounds.entries.map Sigma.snd).foldl collectBackgroundValue files
  | none => files

/-- A loop over the cells that are not null; a missing column has none. -/
def collectColumn (collect : Finset (List Char) → List Char → Finset (List Char))
    (column : Option Column) (files : Finset (List Char)) : Finset (List Char) :=
  ((column.getD []).filterMap id).foldl collect files

def collectBackgroundColumn (P : Platform) :
    Option Column → Finset (List Char) → Finset (List Char) :=
  collectColumn (collectBackgroundFile P)

def collectBackgroundMapColumn (P : Platform) :
    Option Column → Finset (List Char) → Finset (List Char) :=
  collectColumn (collectBackgroundMap P)

def viewBackgrounds (db : Db) : Column :=
  db.views.entries.map (·.2.backgroundJson)

def referencedBackgroundImageFiles (P : Platform) (db : Db) : Finset (List Char) :=
  let files := collectBackgroundColumn P (some (viewBackgrounds db)) ∅
  let files := collectBackgroundColumn P db.siteBackgrounds files
  let files := collectBackgroundColumn P db.rackBackgrounds files
  let files := collectBackgroundColumn P db.terminalBackgrounds files
  collectBackgroundMapColumn P db.roomBackgrounds files

end Dashboard
