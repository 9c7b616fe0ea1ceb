import KKTerm.Widgets.StoredBody

/-!
# The validators of the frontend

A widget is rendered from its stored texts, which are checked once more here.
A property of a record that is not there is undefined, and `none` in the model.
-/

namespace Widgets.Frontend

open Text hiding trim
open Fallible JsText JsonValue

inductive Reason where
  | invalidJson
  | invalidObject
  | scriptTooLarge
  | invalidScriptBody
  | invalidScriptDomMount
  | invalidPollSeconds
  | invalidLibraries
  | settingsSchemaTooLarge
  | invalidSettingsSchema
  | invalidSettingsField
  | duplicateSettingsKey
  deriving DecidableEq

def maxScriptSourceBytes : Nat := 64 * 1024
def maxSettingsSchemaBytes : Nat := 16 * 1024
def minPollSeconds : Int := 1
def maxSettingsFields : Nat := 20
def maxSelectOptions : Nat := 40
def maxWidgetLibraries : Nat := 8

/-- `/^[A-Za-z][A-Za-z0-9_]{0,63}$/` -/
def settingsKeyPattern : List Char → Bool
  | [] => false
  | first :: rest =>
    isAsciiAlphabetic first && rest.length ≤ 63 &&
      rest.all (fun c => isAsciiAlphabetic c || isAsciiDigit c || c = '_')

/-- `/^[a-z][a-z0-9_-]{0,31}$/` -/
def libraryKeyPattern : List Char → Bool
  | [] => false
  | first :: rest =>
    isAsciiLowercase first && rest.length ≤ 31 &&
      rest.all (fun c => isAsciiLowercase c || isAsciiDigit c || c = '_' || c = '-')

def isNonEmptyString (value : Option JsonValue) : Option (List Char) :=
  (value.bind asString).filter (fun text => trim text ≠ [])

def parseJsonObject (parse : List Char → Option JsonValue) (value : List Char) :
    Except Reason JsonValue := do
  let parsed ← require (parse value) .invalidJson
  reject (parsed.isObject = false) .invalidObject
  pure parsed

/-- What the dot of a regular expression does not match. -/
def isLineTerminator (c : Char) : Bool :=
  let n := c.toNat
  n == 0x0a || n == 0x0d || n == 0x2028 || n == 0x2029

/-- `\s*\)` -/
def matchClosing (t : List Char) : Option (List Char) :=
  match t.dropWhile isSpace with
  | ')' :: rest => some rest
  | _ => none

/-- `(.*?)\1\s*\)`, which stops at the first quote that the call ends behind. -/
def matchTarget (quote : Char) : List Char → Option (List Char × List Char)
  | [] => none
  | c :: rest =>
    match (if c = quote then matchClosing rest else none) with
    | some after => some ([], after)
    | none =>
      if isLineTerminator c then none
      else (matchTarget quote rest).map (fun cut => (c :: cut.1, cut.2))

/-- `\s*\(\s*(["'])`, and then the target. -/
def matchArguments (t : List Char) : Option (List Char × List Char) :=
  match t.dropWhile isSpace with
  | '(' :: arguments =>
    match arguments.dropWhile isSpace with
    | [] => none
    | quote :: rest => if quote = '"' ∨ quote = '\'' then matchTarget quote rest else none
  | _ => none

def matchCall (t : List Char) : Option (List Char × List Char) :=
  if getElementById.isPrefixOf t then matchArguments (t.drop getElementById.length) else none

/-- The next match is searched behind the last one. -/
def matchAll : Nat → List Char → List (List Char)
  | 0, _ => []
  | _, [] => []
  | steps + 1, c :: rest =>
    match matchCall (c :: rest) with
    | some (id, after) => id :: matchAll steps after
    | none => matchAll steps rest

def extractGetElementByIdTargets (source : List Char) : List (List Char) :=
  matchAll source.length source

def htmlShimContainsId (htmlShim : Option (List Char)) (id : List Char) : Bool :=
  match htmlShim with
  | none => false
  | some shim =>
    !shim.isEmpty && (contains shim ("id=\"".toList ++ id ++ "\"".toList) ||
      contains shim ("id='".toList ++ id ++ "'".toList))

def sourceCreatesId (source id : List Char) : Bool :=
  [".id = \"".toList ++ id ++ "\"".toList,
    ".id = '".toList ++ id ++ "'".toList,
    ".id=\"".toList ++ id ++ "\"".toList,
    ".id='".toList ++ id ++ "'".toList,
    "setAttribute(\"id\", \"".toList ++ id ++ "\")".toList,
    "setAttribute('id', '".toList ++ id ++ "')".toList,
    "setAttribute(\"id\",\"".toList ++ id ++ "\")".toList,
    "setAttribute('id','".toList ++ id ++ "')".toList].any (contains source)

def validateScriptDomMounts (source : List Char) (htmlShim : Option (List Char)) :
    Except Reason Unit :=
  forM (extractGetElementByIdTargets source) (fun id =>
    reject (¬ (id = "root".toList ∨ htmlShimContainsId htmlShim id = true ∨
      sourceCreatesId source id = true)) .invalidScriptDomMount)

structure WidgetLifecycle where
  kind : ScriptLifecycleKind
  minTickMs : Option Int

structure WidgetPermissions where
  network : Bool
  networkTools : Bool
  pollSeconds : Option Int

structure WidgetBody where
  source : List Char
  permissions : WidgetPermissions
  htmlShim : Option (List Char)
  libraries : Option (List (List Char))
  lifecycle : Option WidgetLifecycle

/-- A property that may be undefined or null. -/
def optionally {α : Type} (read : JsonValue → Except Reason α) :
    Option JsonValue → Except Reason (Option α)
  | none => .ok none
  | some .null => .ok none
  | some value => (read value).map some

/-- `=== true` -/
def isTrue (value : Option JsonValue) : Bool :=
  value.any (fun value => value.asBool = some true)

def readPollSeconds (value : JsonValue) : Except Reason Int := do
  let pollSeconds ← require value.asInteger .invalidPollSeconds
  reject (pollSeconds < minPollSeconds) .invalidPollSeconds
  pure pollSeconds

/-- One round of the loop over the entries, with the list so far. -/
def addLibrary (list : List (List Char)) (entry : JsonValue) : Except Reason (List (List Char)) := do
  let key ← require entry.asString .invalidLibraries
  reject (libraryKeyPattern key = false) .invalidLibraries
  pure (if key ∈ list then list else list ++ [key])

def readLibraries (value : JsonValue) : Except Reason (List (List Char)) := do
  let entries ← require value.asArray .invalidLibraries
  reject (maxWidgetLibraries < entries.length) .invalidLibraries
  entries.foldlM addLibrary []

def readMinTick (value : JsonValue) : Except Reason Int := do
  let rawMinTick ← require value.asInteger .invalidScriptBody
  reject (rawMinTick < 16 ∨ 60000 < rawMinTick) .invalidScriptBody
  pure rawMinTick

def readLifecycle (value : JsonValue) : Except Reason WidgetLifecycle := do
  reject (value.isObject = false) .invalidScriptBody
  let name ← require ((value.get "kind".toList).bind asString) .invalidScriptBody
  let kind ← require (ScriptLifecycleKind.ofName name) .invalidScriptBody
  let minTickMs ← optionally readMinTick (value.get "minTickMs".toList)
  pure { kind, minTickMs }

def validateScriptWidgetBody (value : JsonValue) : Except Reason WidgetBody := do
  let source ← require ((value.get "source".toList).bind asString) .invalidScriptBody
  let permissions ← require ((value.get "permissions".toList).filter isObject)
    .invalidScriptBody
  reject (trim source = []) .invalidScriptBody
  reject (maxScriptSourceBytes < byteLength source) .scriptTooLarge
  let htmlShim := (value.get "htmlShim".toList).bind asString
  validateScriptDomMounts source htmlShim
  let pollSeconds ← optionally readPollSeconds (permissions.get "pollSeconds".toList)
  let list ← optionally readLibraries (value.get "libraries".toList)
  let lifecycle ← optionally readLifecycle (value.get "lifecycle".toList)
  pure {
    source
    permissions := {
      network := isTrue (permissions.get "network".toList)
      networkTools := isTrue (permissions.get "networkTools".toList)
      pollSeconds }
    htmlShim
    libraries := list.filter (fun list => !list.isEmpty)
    lifecycle }

def validateCustomWidgetBodyJson (parse : List Char → Option JsonValue) (bodyJson : List Char) :
    Except Reason WidgetBody := do
  reject (maxScriptSourceBytes + 4096 < byteLength bodyJson) .scriptTooLarge
  let parsed ← parseJsonObject parse bodyJson
  validateScriptWidgetBody parsed

structure SelectOption where
  label : List Char
  value : List Char

inductive WidgetSettingsField where
  | text (key label : List Char) (placeholder defaultValue : Option (List Char))
  | number (key label : List Char) (min max step defaultValue : Option Rat)
  | boolean (key label : List Char) (defaultValue : Option Bool)
  | select (key label : List Char) (options : List SelectOption) (defaultValue : Option (List Char))
  | secret (key label : List Char) (placeholder : Option (List Char))

namespace WidgetSettingsField

def key : WidgetSettingsField → List Char
  | text key _ _ _ => key
  | number key _ _ _ _ _ => key
  | boolean key _ _ => key
  | select key _ _ _ => key
  | secret key _ _ => key

def typeName : WidgetSettingsField → List Char
  | text .. => "text".toList
  | number .. => "number".toList
  | boolean .. => "boolean".toList
  | select .. => "select".toList
  | secret .. => "secret".toList

end WidgetSettingsField

def optionalString (value : Option JsonValue) : Option (List Char) :=
  value.bind asString

def optionalNumber (value : Option JsonValue) : Option Rat :=
  value.bind asNumber

def readOption (option : JsonValue) : Option SelectOption := do
  let label ← isNonEmptyString (option.get "label".toList)
  let value ← (option.get "value".toList).bind asString
  pure { label, value }

def readSelect (value : JsonValue) (key label : List Char) : Option WidgetSettingsField := do
  let entries ← (value.get "options".toList).bind asArray
  if entries.isEmpty || maxSelectOptions < entries.length then none
  else
    let options ← entries.mapM readOption
    pure (.select key label options (optionalString (value.get "defaultValue".toList)))

def readType (value : JsonValue) (type key label : List Char) : Option WidgetSettingsField :=
  if type = "text".toList then
    some (.text key label (optionalString (value.get "placeholder".toList))
      (optionalString (value.get "defaultValue".toList)))
  else if type = "number".toList then
    some (.number key label (optionalNumber (value.get "min".toList))
      (optionalNumber (value.get "max".toList))
      ((optionalNumber (value.get "step".toList)).filter (0 < ·))
      (optionalNumber (value.get "defaultValue".toList)))
  else if type = "boolean".toList then
    some (.boolean key label ((value.get "defaultValue".toList).bind asBool))
  else if type = "select".toList then readSelect value key label
  else if type = "secret".toList then
    if (value.get "defaultValue".toList).isSome then none
    else some (.secret key label (optionalString (value.get "placeholder".toList)))
  else none

def validateWidgetSettingsField (value : JsonValue) : Option WidgetSettingsField := do
  let type ← (value.get "type".toList).bind asString
  let key ← ((value.get "key".toList).bind asString).filter settingsKeyPattern
  let label ← isNonEmptyString (value.get "label".toList)
  readType value type key label

/-- One round of the loop over the fields, with the keys that are taken so far. -/
def claimKey (keys : List (List Char)) (field : WidgetSettingsField) :
    Except Reason (List (List Char)) := do
  reject (field.key ∈ keys) .duplicateSettingsKey
  pure (keys ++ [field.key])

def validateWidgetSettingsSchema (value : JsonValue) : Except Reason (List WidgetSettingsField) := do
  let entries ← require ((value.get "fields".toList).bind asArray) .invalidSettingsSchema
  reject (maxSettingsFields < entries.length) .invalidSettingsSchema
  let fields ← require (entries.mapM validateWidgetSettingsField) .invalidSettingsField
  let _ ← fields.foldlM claimKey []
  pure fields

def validateWidgetSettingsSchemaJson (parse : List Char → Option JsonValue) (value : List Char) :
    Except Reason (List WidgetSettingsField) := do
  reject (maxSettingsSchemaBytes < byteLength value) .settingsSchemaTooLarge
  let parsed ← parseJsonObject parse value
  validateWidgetSettingsSchema parsed

end Widgets.Frontend
