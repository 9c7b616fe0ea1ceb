import KKTerm.Library.Fallible
import KKTerm.Library.JsonValue
import KKTerm.Library.Text

/-!
# The validator of the storage

A script widget is stored when its body passes these checks. The parser of the
script itself is a parameter: it gives the names that the script refers to, or
nothing when the script does not parse. The texts that explain an error are left out.
-/

namespace Widgets

open Fallible JsonValue Text

inductive ValidationError where
  | invalidScriptBody
  | scriptTooLarge
  | invalidPollSeconds
  | invalidLibraries
  | invalidScriptSource
  | unusedLibrary
  | placeholderWidget
  | invalidSettingsSchema
  deriving DecidableEq

def maxScriptSourceBytes : Nat := 64 * 1024
def maxHtmlShimBytes : Nat := 128 * 1024
def maxSettingsSchemaBytes : Nat := 16 * 1024
def maxSettingsFields : Nat := 20
def maxSelectOptions : Nat := 40
def minPollSeconds : Nat := 1
def maxWidgetLibraries : Nat := 8

def knownLibraryGlobals : List (String × String) :=
  [("chartjs", "Chart"), ("qrcode", "QRCode"), ("jsbarcode", "JsBarcode"), ("mathjs", "math"),
    ("papaparse", "Papa"), ("pica", "pica"), ("dayjs", "dayjs"), ("konva", "Konva"),
    ("roughjs", "rough"), ("three", "THREE"), ("pixijs", "PIXI"), ("matter", "Matter"),
    ("prism", "Prism"), ("jsyaml", "jsyaml"), ("gridjs", "gridjs"), ("ansitohtml", "AnsiToHtml"),
    ("cronstrue", "cronstrue"), ("cronparser", "cronParser"), ("jwtdecode", "jwt_decode"),
    ("diffmatchpatch", "diff_match_patch"), ("chroma", "chroma"), ("leaflet", "L"),
    ("fflate", "fflate"), ("marked", "marked"), ("animejs", "anime"), ("uplot", "uPlot"),
    ("fusejs", "Fuse"), ("simplestatistics", "ss")]

def maxU32 : Nat := 4294967295
def maxU64 : Nat := 18446744073709551615

inductive ScriptLifecycleKind where
  | static
  | periodic
  | animation
  | realtime
  deriving DecidableEq

def ScriptLifecycleKind.ofName (name : List Char) : Option ScriptLifecycleKind :=
  if name = "static".toList then some static
  else if name = "periodic".toList then some periodic
  else if name = "animation".toList then some animation
  else if name = "realtime".toList then some realtime
  else none

structure ScriptLifecycle where
  kind : ScriptLifecycleKind
  minTickMs : Option Nat

structure ScriptPermissions where
  network : Bool
  pollSeconds : Option Nat

structure ScriptBody where
  source : List Char
  permissions : ScriptPermissions
  htmlShim : Option (List Char)
  libraries : Option (List (List Char))
  lifecycle : Option ScriptLifecycle

/-- A variant is given by its name, or by an object with the name and nothing else. -/
def readKind : JsonValue → Option ScriptLifecycleKind
  | .string name => ScriptLifecycleKind.ofName name
  | .object [(name, .null)] => ScriptLifecycleKind.ofName name
  | _ => none

def readLifecycle (j : JsonValue) : Option ScriptLifecycle := do
  let field ← j.fields ["kind".toList, "minTickMs".toList]
  let kind ← (field "kind".toList).bind readKind
  let minTickMs ← JsonValue.optional (asUnsigned maxU32) (field "minTickMs".toList)
  pure { kind, minTickMs }

/-- Without the field the widget has no network. -/
def readNetwork : Option JsonValue → Option Bool
  | none => some false
  | some value => value.asBool

def readPermissions (j : JsonValue) : Option ScriptPermissions := do
  let field ← j.fields ["network".toList, "pollSeconds".toList]
  let network ← readNetwork (field "network".toList)
  let pollSeconds ← JsonValue.optional (asUnsigned maxU64)
    (field "pollSeconds".toList)
  pure { network, pollSeconds }

def readLibraries (j : JsonValue) : Option (List (List Char)) :=
  j.asArray.bind (List.mapM asString)

def bodyFields : List (List Char) :=
  ["source".toList, "permissions".toList, "htmlShim".toList, "libraries".toList,
    "lifecycle".toList]

def readBody (j : JsonValue) : Option ScriptBody := do
  let field ← j.fields bodyFields
  let source ← (field "source".toList).bind asString
  let permissions ← (field "permissions".toList).bind readPermissions
  let htmlShim ← JsonValue.optional asString (field "htmlShim".toList)
  let libraries ← JsonValue.optional readLibraries (field "libraries".toList)
  let lifecycle ← JsonValue.optional readLifecycle (field "lifecycle".toList)
  pure { source, permissions, htmlShim, libraries, lifecycle }

inductive StripState where
  | normal
  | single
  | double
  | template
  | lineComment
  | blockComment
  deriving DecidableEq

/-- What ends the string or template that the scan is in. -/
def StripState.closes (state : StripState) (c : Char) : Bool :=
  match state with
  | single => c = '\''
  | double => c = '"'
  | template => c.toNat = 0x60
  | _ => false

def keepNewline (c : Char) : Char :=
  if c = '\n' then c else ' '

/-- The number counts the backslashes directly before. -/
def stripFrom : StripState → Nat → List Char → List Char
  | _, _, [] => []
  | .normal, backslashes, c :: next =>
    match c, next with
    | '/', '/' :: rest => ' ' :: ' ' :: stripFrom .lineComment backslashes rest
    | '/', '*' :: rest => ' ' :: ' ' :: stripFrom .blockComment backslashes rest
    | c, rest =>
      if c = '\'' then ' ' :: stripFrom .single 0 rest
      else if c = '"' then ' ' :: stripFrom .double 0 rest
      else if c.toNat = 0x60 then ' ' :: stripFrom .template 0 rest
      else c :: stripFrom .normal backslashes rest
  | .lineComment, backslashes, c :: rest =>
    if c = '\n' then c :: stripFrom .normal backslashes rest
    else ' ' :: stripFrom .lineComment backslashes rest
  | .blockComment, backslashes, c :: next =>
    match c, next with
    | '*', '/' :: rest => ' ' :: ' ' :: stripFrom .normal backslashes rest
    | c, rest => keepNewline c :: stripFrom .blockComment backslashes rest
  | state, backslashes, c :: rest =>
    keepNewline c ::
      (if c = '\\' then stripFrom state (backslashes + 1) rest
      else if state.closes c && backslashes % 2 == 0 then stripFrom .normal 0 rest
      else stripFrom state 0 rest)

example (n : Nat) : stripFrom .lineComment n ['b'] = [' '] := by simp [stripFrom]

def stripStringsAndComments (source : List Char) : List Char :=
  stripFrom .normal 0 source

def validateScriptSourceInner (source : List Char) : Except ValidationError Unit := do
  reject (Char.ofNat 0 ∈ source) .invalidScriptSource
  let collapsed := (stripStringsAndComments source).filter (fun c => !isWhitespace c)
  reject (contains collapsed "while(true)".toList ∨ contains collapsed "while(1)".toList)
    .invalidScriptSource
  reject (contains collapsed "for(;;)".toList) .invalidScriptSource

/-- The script is parsed as the body of a function. -/
def parseScriptSourceAst (oxc : List Char → Option (List (List Char))) (source : List Char) :
    Except ValidationError (List (List Char)) :=
  require (oxc ("(function()\x7b\n".toList ++ source ++ "\n\x7d)();".toList)) .invalidScriptSource

def htmlShimForbiddenTags : List String :=
  ["script", "iframe", "object", "embed", "html", "head", "body", "meta", "title", "link"]

/-- `<tag`, and then the end or something that does not go on with the name. -/
def htmlShimContainsTagOpen (tag : List Char) : List Char → Bool
  | [] => false
  | c :: rest =>
    (('<' :: tag).isPrefixOf (c :: rest) &&
      !((rest.drop tag.length).head?.any isAsciiAlphanumeric)) ||
        htmlShimContainsTagOpen tag rest

def validateHtmlShim (shim : List Char) : Except ValidationError Unit :=
  if shim = [] then pure ()
  else do
    reject (maxHtmlShimBytes < byteLength shim) .invalidScriptSource
    reject (Char.ofNat 0 ∈ shim) .invalidScriptSource
    reject (htmlShimForbiddenTags.any
      (fun tag => htmlShimContainsTagOpen tag.toList (asciiLower shim)) = true)
      .invalidScriptSource

def isAsciiWhitespace (c : Char) : Bool :=
  let n := c.toNat
  n == 0x20 || n == 0x09 || n == 0x0a || n == 0x0c || n == 0x0d

def getElementById : List Char :=
  "document.getElementById".toList

/-- What comes after the first occurrence. -/
def afterFirst (needle : List Char) : List Char → Option (List Char)
  | [] => if needle = [] then some [] else none
  | c :: rest =>
    if needle.isPrefixOf (c :: rest) then some ((c :: rest).drop needle.length)
    else afterFirst needle rest

/-- A string up to its closing quote, and what comes after it. -/
def readQuoted (quote : Char) : Bool → List Char → Option (List Char × List Char)
  | _, [] => none
  | escaped, c :: rest =>
    if c = '\\' ∧ escaped = false then
      (readQuoted quote true rest).map (fun cut => (c :: cut.1, cut.2))
    else if c = quote ∧ escaped = false then some ([], rest)
    else (readQuoted quote false rest).map (fun cut => (c :: cut.1, cut.2))

/-- The search goes on after every call that it finds. A string without an end is
searched beyond the end of the source, which panics. -/
def scanTargets : Nat → List Char → Option (List (List Char))
  | 0, _ => some []
  | calls + 1, source =>
    match afterFirst getElementById source with
    | none => some []
    | some rest =>
      match rest.dropWhile isAsciiWhitespace with
      | '(' :: arguments =>
        match arguments.dropWhile isAsciiWhitespace with
        | [] => some []
        | quote :: rest =>
          if quote = '\'' ∨ quote = '"' then
            match readQuoted quote false rest with
            | none => none
            | some (id, rest) => (scanTargets calls rest).map (id :: ·)
          else scanTargets calls (quote :: rest)
      | rest => scanTargets calls rest

def extractGetElementByIdTargets (source : List Char) : Option (List (List Char)) :=
  scanTargets (source.length + 1) source

def htmlShimContainsId (htmlShim : Option (List Char)) (id : List Char) : Bool :=
  match htmlShim with
  | none => false
  | some shim =>
    contains shim ("id=\"".toList ++ id ++ "\"".toList) ||
      contains shim ("id='".toList ++ id ++ "'".toList)

def sourceCreatesId (source id : List Char) : Bool :=
  contains source (".id = \"".toList ++ id ++ "\"".toList) ||
    contains source (".id = '".toList ++ id ++ "'".toList) ||
    contains source (".id=\"".toList ++ id ++ "\"".toList) ||
    contains source (".id='".toList ++ id ++ "'".toList) ||
    contains source ("setAttribute(\"id\", \"".toList ++ id ++ "\")".toList) ||
    contains source ("setAttribute('id', '".toList ++ id ++ "')".toList) ||
    contains source ("setAttribute(\"id\",\"".toList ++ id ++ "\")".toList) ||
    contains source ("setAttribute('id','".toList ++ id ++ "')".toList)

/-- An id that is there when the script looks for it. -/
def mounted (source : List Char) (htmlShim : Option (List Char)) (id : List Char) : Bool :=
  id = "root".toList || htmlShimContainsId htmlShim id || sourceCreatesId source id

/-- A panic is no acceptance. -/
def validateScriptDomMounts (source : List Char) (htmlShim : Option (List Char)) :
    Except ValidationError Unit := do
  let ids ← require (extractGetElementByIdTargets source) .invalidScriptSource
  forM ids (fun id => reject (mounted source htmlShim id = false) .invalidScriptSource)

def isLibraryChar (c : Char) : Bool :=
  isAsciiLowercase c || isAsciiDigit c || c = '_' || c = '-'

def isValidLibraryKey (value : List Char) : Bool :=
  match value with
  | [] => false
  | first :: rest =>
    byteLength value ≤ 32 && isAsciiLowercase first && rest.all isLibraryChar

def placeholderPhrases : List String :=
  ["coming soon", "not implemented", "your code here", "your content here", "your widget here",
    "placeholder widget", "this is a placeholder", "content goes here", "implement me",
    "todo: implement", "lorem ipsum"]

def placeholderActivityMarkers : List String :=
  ["fetch(", "addeventlistener", "setinterval", "settimeout", "requestanimationframe", "kk.",
    "createelement", "new "]

def detectPlaceholderWidget (source : List Char) (libraries : Option (List (List Char))) : Bool :=
  let lower := asciiLower source
  placeholderPhrases.any (fun phrase => contains lower phrase.toList) &&
    !(libraries.any (fun libs => !libs.isEmpty) ||
      placeholderActivityMarkers.any (fun marker => contains lower marker.toList))

def checkLibraries (libraries : Option (List (List Char))) : Except ValidationError Unit :=
  match libraries with
  | none => pure ()
  | some libs => do
    reject (maxWidgetLibraries < libs.length) .invalidLibraries
    forM libs (fun entry => reject (isValidLibraryKey entry = false) .invalidLibraries)

/-- Every library that is known by a global name is referred to. -/
def checkUse (identifiers : List (List Char)) (libraries : Option (List (List Char))) :
    Except ValidationError Unit :=
  forM (libraries.getD []) (fun entry =>
    match knownLibraryGlobals.find? (fun known => known.1.toList = entry) with
    | none => pure ()
    | some known => reject (known.2.toList ∉ identifiers) .unusedLibrary)

def checkShim (htmlShim : Option (List Char)) : Except ValidationError Unit :=
  match htmlShim with
  | none => pure ()
  | some shim => validateHtmlShim shim

def validateScriptBodyJson (parse : List Char → Option JsonValue)
    (oxc : List Char → Option (List (List Char))) (json : List Char) :
    Except ValidationError ScriptBody := do
  reject (maxScriptSourceBytes + maxHtmlShimBytes + 4096 < byteLength json) .scriptTooLarge
  let parsed ← require ((parse json).bind readBody) .invalidScriptBody
  reject (trim parsed.source = []) .invalidScriptBody
  reject (maxScriptSourceBytes < byteLength parsed.source) .scriptTooLarge
  reject (∃ secs ∈ parsed.permissions.pollSeconds, secs < minPollSeconds) .invalidPollSeconds
  reject (∃ minTick ∈ parsed.lifecycle.bind ScriptLifecycle.minTickMs,
    ¬ (16 ≤ minTick ∧ minTick ≤ 60000)) .invalidScriptBody
  checkLibraries parsed.libraries
  validateScriptSourceInner parsed.source
  let identifiers ← parseScriptSourceAst oxc parsed.source
  checkShim parsed.htmlShim
  validateScriptDomMounts parsed.source parsed.htmlShim
  reject (detectPlaceholderWidget parsed.source parsed.libraries = true) .placeholderWidget
  checkUse identifiers parsed.libraries
  pure parsed

end Widgets

/-!
# The settings schema in the storage

The storage keeps the schema as the text it was given, so the check gives no value.
-/

namespace Widgets

open Fallible JsonValue Text

def isSettingsKeyChar (c : Char) : Bool :=
  isAsciiAlphanumeric c || c = '_'

def validSettingsKey (value : List Char) : Bool :=
  match value with
  | [] => false
  | first :: rest =>
    isAsciiAlphabetic first && byteLength value ≤ 64 && rest.all isSettingsKeyChar

/-- What a field may hold when it is neither absent nor null. -/
def allows (test : JsonValue → Bool) : Option JsonValue → Bool
  | none => true
  | some .null => true
  | some value => test value

def isString (value : JsonValue) : Bool :=
  value.asString.isSome

def isNumber (value : JsonValue) : Bool :=
  value.asNumber.isSome

def isBoolean (value : JsonValue) : Bool :=
  value.asBool.isSome

def isPositive (value : JsonValue) : Bool :=
  value.asNumber.any (0 < ·)

def checkOption (option : JsonValue) : Except ValidationError Unit := do
  let label ← require ((option.get "label".toList).bind asString) .invalidSettingsSchema
  reject (trim label = [] ∨ (option.get "value".toList).any isString = false)
    .invalidSettingsSchema

def checkSelect (object : JsonValue) : Except ValidationError Unit := do
  reject (allows isString (object.get "defaultValue".toList) = false) .invalidSettingsSchema
  let options ← require ((object.get "options".toList).bind asArray)
    .invalidSettingsSchema
  reject (options.isEmpty = true ∨ maxSelectOptions < options.length) .invalidSettingsSchema
  forM options checkOption

/-- The checks that depend on the type of the field. -/
def checkType (fieldType : List Char) (object : JsonValue) : Except ValidationError Unit :=
  if fieldType = "text".toList then do
    reject (allows isString (object.get "placeholder".toList) = false) .invalidSettingsSchema
    reject (allows isString (object.get "defaultValue".toList) = false) .invalidSettingsSchema
  else if fieldType = "number".toList then do
    forM ["min".toList, "max".toList, "defaultValue".toList] (fun key =>
      reject (allows isNumber (object.get key) = false) .invalidSettingsSchema)
    reject (allows isPositive (object.get "step".toList) = false) .invalidSettingsSchema
  else if fieldType = "boolean".toList then
    reject (allows isBoolean (object.get "defaultValue".toList) = false) .invalidSettingsSchema
  else if fieldType = "secret".toList then do
    reject (allows isString (object.get "placeholder".toList) = false) .invalidSettingsSchema
    reject ((object.get "defaultValue".toList).isSome = true) .invalidSettingsSchema
  else if fieldType = "select".toList then checkSelect object
  else .error .invalidSettingsSchema

/-- One round of the loop over the fields, with the keys that are taken so far. -/
def checkField (keys : List (List Char)) (field : JsonValue) :
    Except ValidationError (List (List Char)) := do
  reject (field.isObject = false) .invalidSettingsSchema
  let fieldType ← require ((field.get "type".toList).bind asString)
    .invalidSettingsSchema
  let key ← require ((field.get "key".toList).bind asString) .invalidSettingsSchema
  let label ← require ((field.get "label".toList).bind asString) .invalidSettingsSchema
  reject (validSettingsKey key = false ∨ trim label = [] ∨ key ∈ keys) .invalidSettingsSchema
  checkType fieldType field
  pure (keys ++ [key])

def validateSettingsSchemaJson (parse : List Char → Option JsonValue) (json : List Char) :
    Except ValidationError Unit := do
  reject (maxSettingsSchemaBytes < byteLength json) .invalidSettingsSchema
  let parsed ← require (parse json) .invalidSettingsSchema
  let fields ← require ((parsed.get "fields".toList).bind asArray) .invalidSettingsSchema
  reject (maxSettingsFields < fields.length) .invalidSettingsSchema
  let _ ← fields.foldlM checkField []
  pure ()

end Widgets
