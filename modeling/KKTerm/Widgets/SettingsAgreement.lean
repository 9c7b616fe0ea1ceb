import KKTerm.Widgets.Agreement
import Mathlib.Data.List.Nodup

/-!
# One settings schema, two validators

The two loops over the fields are compared field by field. Only the labels can make
a difference: the byte order mark is white space in the frontend.
-/

namespace Widgets

open Frontend
open Bool hiding not_or
open JsText
open Option hiding all_eq_true map_map
open Fallible List

def listOf (name : String) (j : JsonValue) : List JsonValue :=
  ((j.get name.toList).bind JsonValue.asArray).getD []

/-- The type and the key of a field, as the schema has them. -/
def fieldName (field : JsonValue) : List Char × List Char :=
  (textOf "type" field, textOf "key" field)

/-- Something is left of the labels in the frontend. -/
structure Labelled (field : JsonValue) : Prop where
  label : ∃ c ∈ textOf "label" field, JsText.isSpace c = false
  options : textOf "type" field = "select".toList →
    ∀ option ∈ listOf "options" field, ∃ c ∈ textOf "label" option, JsText.isSpace c = false

structure CheckedField (field : JsonValue) : Prop where
  type : (field.get "type".toList).bind JsonValue.asString = some (textOf "type" field)
  key : (field.get "key".toList).bind JsonValue.asString = some (textOf "key" field)
  label : (field.get "label".toList).bind JsonValue.asString = some (textOf "label" field)
  valid : validSettingsKey (textOf "key" field) = true
  specific : checkType (textOf "type" field) field = .ok ()

variable {j : JsonValue} {text : List Char} {keys keys' : List (List Char)} {type : List Char}

lemma textOf_eq {name : String} {e : ValidationError}
    (h : require ((j.get name.toList).bind JsonValue.asString) e = .ok text) :
    (j.get name.toList).bind JsonValue.asString = some (textOf name j) ∧ textOf name j = text := by
  rw [require_eq_ok] at h
  rw [textOf, h]
  exact ⟨rfl, rfl⟩

variable {field : JsonValue}

lemma checkField_eq_ok (h : checkField keys field = .ok keys') :
    CheckedField field ∧ textOf "key" field ∉ keys ∧ keys' = keys ++ [textOf "key" field] := by
  obtain ⟨-, h⟩ := reject_bind_ok.mp h
  obtain ⟨_, type, h⟩ := bind_eq_ok.mp h
  obtain ⟨_, key, h⟩ := bind_eq_ok.mp h
  obtain ⟨_, label, h⟩ := bind_eq_ok.mp h
  obtain ⟨typed, rfl⟩ := textOf_eq type
  obtain ⟨keyed, rfl⟩ := textOf_eq key
  obtain ⟨labelled, rfl⟩ := textOf_eq label
  obtain ⟨fine, h⟩ := reject_bind_ok.mp h
  obtain ⟨⟨⟩, specific, done⟩ := bind_eq_ok.mp h
  cases done
  simp only [not_or, not_eq_false] at fine
  exact ⟨⟨typed, keyed, labelled, fine.1, specific⟩, fine.2.2, rfl⟩

lemma foldlM_checkField {fields : List JsonValue} (h : fields.foldlM checkField keys = .ok keys')
    (nodup : keys.Nodup) :
    (∀ field ∈ fields, CheckedField field) ∧ (keys ++ fields.map (textOf "key")).Nodup := by
  induction fields generalizing keys with
  | nil =>
    rw [map_nil, append_nil]
    exact ⟨forall_mem_nil _, nodup⟩
  | cons field fields ih =>
    rw [foldlM_cons] at h
    obtain ⟨_, first, rest⟩ := bind_eq_ok.mp h
    obtain ⟨checked, new, rfl⟩ := checkField_eq_ok first
    have grown : (keys ++ [textOf "key" field]).Nodup := by
      rw [← concat_eq_append]
      exact nodup.concat new
    obtain ⟨others, apart⟩ := ih rest grown
    refine ⟨forall_mem_cons.mpr ⟨checked, others⟩, ?_⟩
    rwa [append_assoc, singleton_append] at apart

/-- A select field has options, which have labels and values. -/
structure CheckedOptions (field : JsonValue) : Prop where
  options : (field.get "options".toList).bind JsonValue.asArray = some (listOf "options" field)
  some : (listOf "options" field).isEmpty = false
  few : (listOf "options" field).length ≤ maxSelectOptions
  each : ∀ option ∈ listOf "options" field, checkOption option = .ok ()

lemma checkSelect_eq_ok (h : checkSelect field = .ok ()) : CheckedOptions field := by
  obtain ⟨-, h⟩ := reject_bind_ok.mp h
  obtain ⟨options, list, h⟩ := bind_eq_ok.mp h
  obtain ⟨count, each⟩ := reject_bind_ok.mp h
  rw [require_eq_ok] at list
  have same : listOf "options" field = options := by
    rw [listOf, list]
    rfl
  rw [not_or, not_eq_true, Nat.not_lt] at count
  subst same
  exact ⟨list, count.1, count.2, fun option member => forM_eq_ok.mp each option member⟩

lemma checkType_eq_ok (h : checkType type field = .ok ()) :
    type = "text".toList ∨ type = "number".toList ∨ type = "boolean".toList ∨
      (type = "secret".toList ∧ (field.get "defaultValue".toList).isSome = false) ∨
      (type = "select".toList ∧ CheckedOptions field) := by
  rw [checkType] at h
  split at h
  next text => exact .inl text
  split at h
  next number => exact .inr (.inl number)
  split at h
  next boolean => exact .inr (.inr (.inl boolean))
  split at h
  next secret =>
    obtain ⟨-, plain⟩ := reject_bind_ok.mp h
    rw [reject_eq_ok, not_eq_true] at plain
    exact .inr (.inr (.inr (.inl ⟨secret, plain⟩)))
  split at h
  next select => exact .inr (.inr (.inr (.inr ⟨select, checkSelect_eq_ok h⟩)))
  next => cases h

lemma settingsKeyPattern_of_valid {key : List Char} (valid : validSettingsKey key = true) :
    settingsKeyPattern key = true := by
  cases key with
  | nil => cases valid
  | cons first rest =>
    simp only [validSettingsKey, and_eq_true, decide_eq_true_eq] at valid
    obtain ⟨⟨letter, short⟩, chars⟩ := valid
    have length := Text.length_le_byteLength (first :: rest)
    rw [length_cons] at length
    simp only [settingsKeyPattern, and_eq_true, decide_eq_true_eq]
    refine ⟨⟨letter, by omega⟩, ?_⟩
    rw [all_eq_true] at chars ⊢
    intro c member
    have plain := chars c member
    simp only [isSettingsKeyChar, Text.isAsciiAlphanumeric, Text.isAsciiAlphabetic,
      Text.isAsciiDigit, or_eq_true, and_eq_true, decide_eq_true_eq] at plain ⊢
    rcases plain with alphanumeric | underscore
    · exact .inl (by omega)
    · exact .inr underscore

lemma isNonEmptyString_eq_some {value : Option JsonValue} {label : List Char}
    (read : value.bind JsonValue.asString = some text) :
    isNonEmptyString value = some label ↔
      label = text ∧ ∃ c ∈ text, isSpace c = false := by
  rw [isNonEmptyString, read, filter_eq_some_iff, decide_eq_true_eq, trim_ne_nil, some_inj]
  constructor
  · rintro ⟨rfl, visible⟩
    exact ⟨rfl, visible⟩
  · rintro ⟨rfl, visible⟩
    exact ⟨rfl, visible⟩

lemma readOption_returns {option : JsonValue} (checked : checkOption option = .ok ()) :
    (∃ read, readOption option = some read) ↔
      ∃ c ∈ textOf "label" option, isSpace c = false := by
  obtain ⟨_, label, fine⟩ := bind_eq_ok.mp checked
  obtain ⟨labelled, rfl⟩ := textOf_eq label
  rw [reject_eq_ok, not_or, not_eq_false] at fine
  constructor
  · rintro ⟨read, done⟩
    obtain ⟨shown, hasLabel, _⟩ := bind_eq_some_iff.mp done
    exact ((isNonEmptyString_eq_some labelled).mp hasLabel).2
  · intro visible
    have shown := (isNonEmptyString_eq_some labelled).mpr ⟨rfl, visible⟩
    have text := fine.2
    cases found : option.get "value".toList with
    | none =>
      rw [found] at text
      cases text
    | some value =>
      rw [found] at text
      obtain ⟨content, isText⟩ := isSome_iff_exists.mp text
      refine ⟨⟨textOf "label" option, content⟩, ?_⟩
      refine bind_eq_some_iff.mpr ⟨_, shown, ?_⟩
      rw [found]
      exact bind_eq_some_iff.mpr ⟨content, isText, rfl⟩

lemma readSelect_returns (checked : CheckedOptions field) (key label : List Char) :
    (∃ shown, readSelect field key label = some shown ∧
        (shown.typeName, shown.key) = ("select".toList, key)) ↔
      ∀ option ∈ listOf "options" field, ∃ c ∈ textOf "label" option, isSpace c = false := by
  have each : (∀ option ∈ listOf "options" field, ∃ read, readOption option = some read) ↔
      ∀ option ∈ listOf "options" field, ∃ c ∈ textOf "label" option, isSpace c = false :=
    forall₂_congr (fun option member => readOption_returns (checked.each option member))
  have count : ((listOf "options" field).isEmpty ||
      decide (Frontend.maxSelectOptions < (listOf "options" field).length)) = false := by
    rw [checked.some, Bool.false_or, decide_eq_false_iff_not]
    exact Nat.not_lt.mpr checked.few
  rw [← each, ← exists_mapM, readSelect, checked.options]
  simp only [bind_eq_bind, bind_some, count, false_eq_true, if_false]
  constructor
  · rintro ⟨_, done, _⟩
    obtain ⟨options, all, _⟩ := bind_eq_some_iff.mp done
    exact ⟨options, all⟩
  · rintro ⟨options, all⟩
    rw [all]
    exact ⟨_, rfl, rfl⟩

/-- Only a select field may fail in the frontend after the storage has taken it. -/
lemma readType_returns (checked : checkType type field = .ok ()) (key label : List Char) :
    (∃ shown, readType field type key label = some shown ∧
        (shown.typeName, shown.key) = (type, key)) ↔
      (type = "select".toList → ∀ option ∈ listOf "options" field,
        ∃ c ∈ textOf "label" option, isSpace c = false) := by
  rcases checkType_eq_ok checked with rfl | rfl | rfl | ⟨rfl, plain⟩ | ⟨rfl, options⟩
  · exact iff_of_true ⟨_, rfl, rfl⟩ (fun other => absurd other (by decide))
  · exact iff_of_true ⟨_, rfl, rfl⟩ (fun other => absurd other (by decide))
  · exact iff_of_true ⟨_, rfl, rfl⟩ (fun other => absurd other (by decide))
  · refine iff_of_true ⟨.secret key label (optionalString (field.get "placeholder".toList)),
      ?_, rfl⟩ (fun other => absurd other (by decide))
    rw [readType, if_neg (by decide), if_neg (by decide), if_neg (by decide),
      if_neg (by decide), if_pos rfl, plain]
    rfl
  · exact (readSelect_returns options key label).trans ⟨fun held _ => held, fun held => held rfl⟩

lemma validateField_returns (checked : CheckedField field) :
    (∃ shown, validateWidgetSettingsField field = some shown ∧
      (shown.typeName, shown.key) = fieldName field) ↔ Labelled field := by
  have key : ((field.get "key".toList).bind JsonValue.asString).filter settingsKeyPattern =
      some (textOf "key" field) := by
    rw [checked.key, filter_some, if_pos (settingsKeyPattern_of_valid checked.valid)]
  have specific := readType_returns checked.specific (textOf "key" field) (textOf "label" field)
  rw [validateWidgetSettingsField, checked.type, key]
  constructor
  · rintro ⟨shown, done, same⟩
    obtain ⟨_, ⟨⟩, done⟩ := bind_eq_some_iff.mp done
    obtain ⟨_, ⟨⟩, done⟩ := bind_eq_some_iff.mp done
    obtain ⟨_, label, done⟩ := bind_eq_some_iff.mp done
    obtain ⟨rfl, visible⟩ := (isNonEmptyString_eq_some checked.label).mp label
    exact ⟨visible, specific.mp ⟨shown, done, same⟩⟩
  · rintro ⟨visible, options⟩
    obtain ⟨shown, done, same⟩ := specific.mpr options
    have label := (isNonEmptyString_eq_some checked.label).mpr ⟨rfl, visible⟩
    refine ⟨shown, ?_, same⟩
    refine bind_eq_some_iff.mpr ⟨_, rfl, bind_eq_some_iff.mpr ⟨_, rfl, ?_⟩⟩
    exact bind_eq_some_iff.mpr ⟨_, label, done⟩

/-- Fields with keys of their own pass the last loop of the frontend. -/
lemma foldlM_claimKey {fields : List WidgetSettingsField}
    (nodup : (fields.map WidgetSettingsField.key).Nodup) :
    ∃ keys, fields.foldlM claimKey [] = .ok keys := by
  have claims : ∃ keys, fields.foldlM claimKey [] = .ok keys ∧ True ∧
      keys = [] ++ fields.map WidgetSettingsField.key :=
    foldlM_creates (fun _ => True) id
      (fun _ _ _ _ new => ⟨_, reject_bind_ok.mpr ⟨new, rfl⟩, trivial, rfl⟩) trivial nodup
  obtain ⟨keys, done, _⟩ := claims
  exact ⟨keys, done⟩

/-- The frontend takes exactly the stored schemas whose labels show something. -/
lemma settings_schema_agrees {parse : List Char → Option JsonValue} {json : List Char}
    (value : parse json = some j) (accepted : validateSettingsSchemaJson parse json = .ok ()) :
    (∃ fields, validateWidgetSettingsSchemaJson parse json = .ok fields ∧
        fields.map (fun field => (field.typeName, field.key)) =
          (listOf "fields" j).map fieldName) ↔
      ∀ field ∈ listOf "fields" j, Labelled field := by
  obtain ⟨size, accepted⟩ := reject_bind_ok.mp accepted
  obtain ⟨parsed, same, accepted⟩ := bind_eq_ok.mp accepted
  rw [require_eq_ok, value] at same
  cases same
  obtain ⟨entries, list, accepted⟩ := bind_eq_ok.mp accepted
  obtain ⟨few, accepted⟩ := reject_bind_ok.mp accepted
  obtain ⟨keys, loop, _⟩ := bind_eq_ok.mp accepted
  obtain ⟨checked, nodup⟩ := foldlM_checkField loop nodup_nil
  rw [require_eq_ok] at list
  have same : listOf "fields" j = entries := by
    rw [listOf, list]
    rfl
  have object : j.isObject = true := by
    cases j with
    | object members => rfl
    | _ => cases list
  have each : (∀ field ∈ entries, Labelled field) ↔
      ∀ field ∈ entries, ∃ shown, validateWidgetSettingsField field = some shown ∧
        (shown.typeName, shown.key) = fieldName field :=
    forall₂_congr (fun field member => (validateField_returns (checked field member)).symm)
  have aligned (fields : List WidgetSettingsField) :
      Forall₂ (fun field shown => (shown.typeName, shown.key) = fieldName field)
          entries fields ↔
        fields.map (fun field => (field.typeName, field.key)) = entries.map fieldName := by
    rw [eq_comm, ← forall₂_eq_eq_eq, forall₂_map_left_iff, forall₂_map_right_iff]
    constructor
    · exact fun held => held.imp (fun _ _ same => same.symm)
    · exact fun held => held.imp (fun _ _ same => same.symm)
  rw [same, each, ← mapM_returns]
  constructor
  · rintro ⟨fields, done, names⟩
    obtain ⟨-, done⟩ := reject_bind_ok.mp done
    obtain ⟨parsed, read, done⟩ := bind_eq_ok.mp done
    obtain ⟨read, -⟩ := parseJsonObject_eq_ok.mp read
    rw [value] at read
    cases read
    rw [validateWidgetSettingsSchema, list] at done
    obtain ⟨_, ⟨⟩, done⟩ := bind_eq_ok.mp done
    obtain ⟨-, done⟩ := reject_bind_ok.mp done
    obtain ⟨_, all, done⟩ := bind_eq_ok.mp done
    obtain ⟨_, _, done⟩ := bind_eq_ok.mp done
    cases done
    exact ⟨fields, require_eq_ok.mp all, (aligned fields).mpr names⟩
  · rintro ⟨fields, all, held⟩
    have names := (aligned fields).mp held
    have keys : fields.map WidgetSettingsField.key = entries.map (textOf "key") := by
      have second := congrArg (map Prod.snd) names
      rwa [map_map, map_map] at second
    obtain ⟨taken, claimed⟩ := foldlM_claimKey (keys ▸ nodup)
    refine ⟨fields, ?_, names⟩
    refine reject_bind_ok.mpr ⟨size, bind_eq_ok.mpr ⟨j, ?_, ?_⟩⟩
    · exact parseJsonObject_eq_ok.mpr ⟨value, object⟩
    · rw [validateWidgetSettingsSchema, list]
      refine bind_eq_ok.mpr ⟨entries, rfl, reject_bind_ok.mpr ⟨few, ?_⟩⟩
      exact bind_eq_ok.mpr ⟨fields, require_eq_ok.mpr all, bind_eq_ok.mpr ⟨taken, claimed, rfl⟩⟩

/-- A text that the storage takes shows in the frontend as it is stored exactly under
the conditions on bodies and on labels. -/
theorem validators_agree (parse : List Char → Option JsonValue)
    (oxc : List Char → Option (List (List Char))) (json : List Char) (j : JsonValue)
    (value : parse json = some j) :
    (∀ body p, validateScriptBodyJson parse oxc json = .ok body →
      parsedPermissions j = some p → p.isObject = true →
      (Frontend.validateCustomWidgetBodyJson parse json = .ok body.shown ↔ Renders json j)) ∧
    (validateSettingsSchemaJson parse json = .ok () →
      ((∃ fields, Frontend.validateWidgetSettingsSchemaJson parse json = .ok fields ∧
          fields.map (fun field => (field.typeName, field.key)) =
            (listOf "fields" j).map fieldName) ↔
        ∀ field ∈ listOf "fields" j, Labelled field)) :=
  ⟨fun _ _ accepted permissions record => script_body_agrees value accepted permissions record,
    settings_schema_agrees value⟩

def readerOf (text : List Char) (value : JsonValue) (json : List Char) : Option JsonValue :=
  if json = text then some value else none

/-- A widget that only refers to the document. -/
def documentOnly (_ : List Char) : Option (List (List Char)) :=
  some ["document".toList]

def plainBody (source : List Char) : ScriptBody where
  source
  permissions := { network := false, pollSeconds := none }
  htmlShim := none
  libraries := none
  lifecycle := none

def greetingSource : List Char :=
  "document.getElementById(\"root\").append(\"Hi\")".toList

def greetingText : List Char :=
  ("\x7b\"source\":\"document.getElementById(\\\"root\\\").append(\\\"Hi\\\")\",\"permissions\":\x7b\x7d," ++
    "\"fields\":[\x7b\"type\":\"text\",\"key\":\"city\",\"label\":\"City\"\x7d]\x7d").toList

def cityField : JsonValue :=
  .object [("type".toList, .string "text".toList), ("key".toList, .string "city".toList),
    ("label".toList, .string "City".toList)]

def greeting : JsonValue :=
  .object [("source".toList, .string greetingSource), ("permissions".toList, .object []),
    ("fields".toList, .array [cityField])]

set_option maxRecDepth 8000 in
lemma renders_greeting : Renders greetingText greeting where
  small := by decide
  object := rfl
  visible := ⟨'d', by decide, by decide⟩
  mounts := by
    intro id member
    have found : Frontend.extractGetElementByIdTargets (sourceOf greeting) = ["root".toList] := rfl
    rw [found, mem_singleton] at member
    rw [member]
    exact .inr rfl
  lifecycle := by
    intro value found
    cases found
  grants := by
    rintro permissions ⟨⟩
    rfl

set_option maxRecDepth 8000 in
theorem greeting_agrees :
    Frontend.validateCustomWidgetBodyJson (readerOf greetingText greeting) greetingText =
        .ok (plainBody greetingSource).shown ∧
      ∃ fields, Frontend.validateWidgetSettingsSchemaJson (readerOf greetingText greeting)
          greetingText = .ok fields ∧
        fields.map (fun field => (field.typeName, field.key)) =
          (listOf "fields" greeting).map fieldName := by
  have read : readerOf greetingText greeting greetingText = some greeting := if_pos rfl
  have both := validators_agree (readerOf greetingText greeting) documentOnly greetingText greeting
    read
  constructor
  · exact (both.1 (plainBody greetingSource) (.object []) rfl rfl rfl).mpr renders_greeting
  · refine (both.2 rfl).mpr ?_
    rintro field ⟨⟩
    · exact ⟨⟨'C', by decide, by decide⟩, fun other => absurd other (by decide)⟩
    · contradiction

def tightSource : List Char :=
  "document.getElementById(\"root\" /**/).append(\"Hi\")".toList

def tightText : List Char :=
  "\x7b\"source\":\"document.getElementById(\\\"root\\\" /**/).append(\\\"Hi\\\")\",\"permissions\":\x7b\x7d\x7d".toList

def tight : JsonValue :=
  .object [("source".toList, .string tightSource), ("permissions".toList, .object [])]

set_option maxRecDepth 8000 in
/-- A comment behind the id is enough: the expression reads on to the next string. -/
theorem tight_widget_is_refused :
    validateScriptBodyJson (readerOf tightText tight) documentOnly tightText =
        .ok (plainBody tightSource) ∧
      parsedPermissions tight = some (.object []) ∧
      Frontend.validateCustomWidgetBodyJson (readerOf tightText tight) tightText =
        .error .invalidScriptDomMount :=
  ⟨rfl, rfl, rfl⟩

end Widgets
