import KKTerm.Widgets.FrontendSchema

/-!
# One body, two validators

A body that the storage has taken is checked again where it is shown. Both read the
same value, property by property, so what one has read is followed into what the
other makes of it. What remains are the conditions under which nothing is lost.
-/

namespace Widgets

open JsonValue Frontend JsText
open Option hiding filter_filter or_assoc
open Fallible List

/-- The properties of an object from which a body was read. -/
structure Reads (j : JsonValue) (body : ScriptBody) : Prop where
  source : j.get "source".toList = some (.string body.source)
  permissions : ∃ p, j.get "permissions".toList = some p ∧ readPermissions p = some body.permissions
  htmlShim : JsonValue.optional JsonValue.asString (j.get "htmlShim".toList) = some body.htmlShim
  libraries : JsonValue.optional readLibraries (j.get "libraries".toList) = some body.libraries
  lifecycle : JsonValue.optional readLifecycle (j.get "lifecycle".toList) = some body.lifecycle

section Reading
variable {j : JsonValue}

lemma reads_of_readBody {body : ScriptBody} (object : j.isObject = true)
    (read : readBody j = some body) : Reads j body := by
  rw [readBody] at read
  obtain ⟨field, record, read⟩ := bind_eq_some_iff.mp read
  obtain ⟨source, hasSource, read⟩ := bind_eq_some_iff.mp read
  obtain ⟨permissions, hasPermissions, read⟩ := bind_eq_some_iff.mp read
  obtain ⟨htmlShim, hasShim, read⟩ := bind_eq_some_iff.mp read
  obtain ⟨libraries, hasLibraries, read⟩ := bind_eq_some_iff.mp read
  obtain ⟨lifecycle, hasLifecycle, read⟩ := bind_eq_some_iff.mp read
  cases read
  have same (name : List Char) (listed : name ∈ bodyFields) : field name = j.get name :=
    fields_eq_get record object listed
  rw [same _ (by decide)] at hasSource hasPermissions hasShim hasLibraries hasLifecycle
  obtain ⟨value, found, isText⟩ := bind_eq_some_iff.mp hasSource
  obtain ⟨p, foundPermissions, isRecord⟩ := bind_eq_some_iff.mp hasPermissions
  constructor
  · rw [found, asString_eq_some isText]
  · exact ⟨p, foundPermissions, isRecord⟩
  · exact hasShim
  · exact hasLibraries
  · exact hasLifecycle

lemma readPermissions_object {permissions : ScriptPermissions} (object : j.isObject = true)
    (read : readPermissions j = some permissions) :
    isTrue (j.get "network".toList) = permissions.network ∧
      JsonValue.optional (asUnsigned maxU64) (j.get "pollSeconds".toList) =
        some permissions.pollSeconds := by
  rw [readPermissions] at read
  obtain ⟨field, record, read⟩ := bind_eq_some_iff.mp read
  obtain ⟨network, hasNetwork, read⟩ := bind_eq_some_iff.mp read
  obtain ⟨pollSeconds, hasPoll, read⟩ := bind_eq_some_iff.mp read
  cases read
  rw [fields_eq_get record object (by decide)] at hasNetwork hasPoll
  refine ⟨?_, hasPoll⟩
  cases found : j.get "network".toList with
  | none =>
    rw [found] at hasNetwork
    cases hasNetwork
    rfl
  | some value =>
    rw [found] at hasNetwork
    rw [asBool_eq_some hasNetwork]
    cases network <;> rfl

lemma readLifecycle_object {lifecycle : ScriptLifecycle} (object : j.isObject = true)
    (read : readLifecycle j = some lifecycle) :
    (j.get "kind".toList).bind readKind = some lifecycle.kind ∧
      JsonValue.optional (asUnsigned maxU32) (j.get "minTickMs".toList) =
        some lifecycle.minTickMs := by
  rw [readLifecycle] at read
  obtain ⟨field, record, read⟩ := bind_eq_some_iff.mp read
  obtain ⟨kind, hasKind, read⟩ := bind_eq_some_iff.mp read
  obtain ⟨minTickMs, hasTick, read⟩ := bind_eq_some_iff.mp read
  cases read
  rw [fields_eq_get record object (by decide)] at hasKind hasTick
  exact ⟨hasKind, hasTick⟩

lemma readLibraries_eq_some {libraries : List (List Char)}
    (read : readLibraries j = some libraries) :
    j = .array (libraries.map string) := by
  obtain ⟨items, isArray, read⟩ := bind_eq_some_iff.mp read
  rw [asArray_eq_some isArray, mapM_asString_eq_some read]

end Reading

lemma libraryKeyPattern_of_valid {key : List Char} (valid : isValidLibraryKey key = true) :
    libraryKeyPattern key = true := by
  cases key with
  | nil => cases valid
  | cons first rest =>
    simp only [isValidLibraryKey, Bool.and_eq_true, decide_eq_true_eq] at valid
    obtain ⟨⟨short, lower⟩, chars⟩ := valid
    have length := Text.length_le_byteLength (first :: rest)
    rw [length_cons] at length
    simp only [libraryKeyPattern, Bool.and_eq_true, decide_eq_true_eq]
    exact ⟨⟨lower, by omega⟩, chars⟩

variable {libraries : List (List Char)} {j : JsonValue} {max : Nat} {htmlShim : Option (List Char)}
  {source : List Char}

/-- The loop over the entries leaves out what it has seen before. -/
lemma foldlM_addLibrary {list : List (List Char)}
    (valid : ∀ key ∈ libraries, isValidLibraryKey key = true) :
    (libraries.map string).foldlM addLibrary list =
      .ok (list ++ (libraries.filter (fun key => key ∉ list)).eraseDups) := by
  induction libraries generalizing list with
  | nil =>
    rw [filter_nil, eraseDups_nil, append_nil]
    rfl
  | cons key libraries ih =>
    rw [forall_mem_cons] at valid
    have pattern := libraryKeyPattern_of_valid valid.1
    have round : addLibrary list (.string key) =
        .ok (if key ∈ list then list else list ++ [key]) := by
      refine bind_eq_ok.mpr ⟨key, rfl, reject_bind_ok.mpr ⟨?_, rfl⟩⟩
      rw [pattern]
      exact Bool.noConfusion
    rw [map_cons, foldlM_cons, round]
    refine (ih valid.2).trans ?_
    by_cases seen : key ∈ list
    · rw [if_pos seen, filter_cons_of_neg (by simpa using seen)]
    · rw [if_neg seen, filter_cons_of_pos (by simpa using seen), eraseDups_cons,
        filter_filter, append_assoc, singleton_append]
      congr 4
      refine filter_congr (fun other _ => ?_)
      by_cases same : other = key <;> simp [same]

lemma readLibraries_shown (read : readLibraries j = some libraries)
    (few : libraries.length ≤ maxWidgetLibraries)
    (valid : ∀ key ∈ libraries, isValidLibraryKey key = true) :
    Frontend.readLibraries j = .ok libraries.eraseDups := by
  rw [readLibraries_eq_some read]
  refine bind_eq_ok.mpr ⟨_, rfl, reject_bind_ok.mpr ⟨?_, ?_⟩⟩
  · rw [length_map]
    exact Nat.not_lt.mpr few
  · rw [foldlM_addLibrary valid]
    simp

lemma readPollSeconds_shown {seconds : Nat} (read : j.asUnsigned max = some seconds)
    (positive : minPollSeconds ≤ seconds) : readPollSeconds j = .ok seconds := by
  rw [(asUnsigned_eq_some read).1]
  refine bind_eq_ok.mpr ⟨seconds, rfl, reject_bind_ok.mpr ⟨?_, rfl⟩⟩
  rw [minPollSeconds] at positive
  rw [Frontend.minPollSeconds]
  omega

lemma readMinTick_shown {tick : Nat} (read : j.asUnsigned max = some tick)
    (bounds : 16 ≤ tick ∧ tick ≤ 60000) : readMinTick j = .ok tick := by
  rw [(asUnsigned_eq_some read).1]
  exact bind_eq_ok.mpr ⟨tick, rfl, reject_bind_ok.mpr ⟨by omega, rfl⟩⟩

/-- A property that may be missing is read as the storage has read it. -/
lemma optionally_shown {α β : Type} {read : JsonValue → Option α}
    {show' : JsonValue → Except Reason β} {f : α → β} {x : Option JsonValue} {r : Option α}
    (stored : JsonValue.optional read x = some r)
    (each : ∀ value a, x = some value → read value = some a → r = some a → show' value = .ok (f a)) :
    optionally show' x = .ok (r.map f) := by
  obtain ⟨rfl, rfl | rfl⟩ | ⟨value, a, rfl, present, found, rfl⟩ := optional_eq_some stored
  · rfl
  · rfl
  · rw [optionally, each value a rfl found rfl]
    · rfl
    · exact present

/-- The lifecycle as the frontend has it. -/
def ScriptLifecycle.shown (lifecycle : ScriptLifecycle) : WidgetLifecycle :=
  { kind := lifecycle.kind, minTickMs := lifecycle.minTickMs.map Int.ofNat }

/-- The storage takes a lifecycle in more ways than the frontend does. -/
lemma readLifecycle_shown {lifecycle : ScriptLifecycle} (read : readLifecycle j = some lifecycle)
    (bounds : ∀ tick ∈ lifecycle.minTickMs, 16 ≤ tick ∧ tick ≤ 60000) :
    Frontend.readLifecycle j = .ok lifecycle.shown ↔
      j.isObject = true ∧ ∃ name, j.get "kind".toList = some (.string name) := by
  constructor
  · intro done
    obtain ⟨object, done⟩ := reject_bind_ok.mp done
    obtain ⟨name, named, _⟩ := bind_eq_ok.mp done
    obtain ⟨value, found, text⟩ := bind_eq_some_iff.mp (require_eq_ok.mp named)
    rw [Bool.not_eq_false] at object
    refine ⟨object, name, ?_⟩
    rw [found, asString_eq_some text]
  · rintro ⟨object, name, named⟩
    obtain ⟨kind, tick⟩ := readLifecycle_object object read
    rw [named] at kind
    have ticks : optionally readMinTick (j.get "minTickMs".toList) =
        .ok (lifecycle.minTickMs.map Int.ofNat) :=
      optionally_shown tick (fun _ n _ found present => readMinTick_shown found (bounds n present))
    refine reject_bind_ok.mpr ⟨by simp [object], bind_eq_ok.mpr ⟨name, ?_, ?_⟩⟩
    · rw [require_eq_ok, named]
      rfl
    · exact bind_eq_ok.mpr ⟨lifecycle.kind, require_eq_ok.mpr kind, bind_eq_ok.mpr ⟨_, ticks, rfl⟩⟩

lemma htmlShimContainsId_eq (htmlShim : Option (List Char)) (id : List Char) :
    Frontend.htmlShimContainsId htmlShim id = htmlShimContainsId htmlShim id := by
  cases htmlShim with
  | none => rfl
  | some shim =>
    cases shim with
    | cons c rest => rfl
    | nil =>
      have absent (needle : List Char) (h : needle ≠ []) : Text.contains [] needle = false := by
        rw [Text.contains, decide_eq_false_iff_not, infix_nil]
        exact h
      rw [htmlShimContainsId, absent _ (by simp), absent _ (by simp)]
      rfl

lemma sourceCreatesId_eq (source id : List Char) :
    Frontend.sourceCreatesId source id = sourceCreatesId source id := by
  simp only [Frontend.sourceCreatesId, sourceCreatesId, any_cons, any_nil, Bool.or_false,
    Bool.or_assoc]

lemma mounted_iff {id : List Char} :
    mounted source htmlShim id = true ↔
      id = "root".toList ∨ Frontend.htmlShimContainsId htmlShim id = true ∨
        Frontend.sourceCreatesId source id = true := by
  rw [htmlShimContainsId_eq, sourceCreatesId_eq, mounted, Bool.or_eq_true, Bool.or_eq_true,
    decide_eq_true_eq, or_assoc]

lemma frontend_mounts_iff :
    Frontend.validateScriptDomMounts source htmlShim = .ok () ↔
      ∀ id ∈ Frontend.extractGetElementByIdTargets source, mounted source htmlShim id = true := by
  rw [Frontend.validateScriptDomMounts, forM_eq_ok]
  refine forall₂_congr (fun id _ => ?_)
  rw [reject_eq_ok, not_not, mounted_iff]

/-- What the storage has checked of a body, as far as the frontend checks it again. -/
structure Checked (body : ScriptBody) : Prop where
  size : Text.byteLength body.source ≤ maxScriptSourceBytes
  poll : ∀ seconds ∈ body.permissions.pollSeconds, minPollSeconds ≤ seconds
  tick : ∀ lifecycle ∈ body.lifecycle, ∀ tick ∈ lifecycle.minTickMs, 16 ≤ tick ∧ tick ≤ 60000
  libraries : ∀ libraries ∈ body.libraries, libraries.length ≤ maxWidgetLibraries ∧
    ∀ key ∈ libraries, isValidLibraryKey key = true
  mounts : ∀ id ∈ (extractGetElementByIdTargets body.source).getD [],
    mounted body.source body.htmlShim id = true

lemma checkLibraries_eq_ok {libraries : Option (List (List Char))}
    (checked : checkLibraries libraries = .ok ()) :
    ∀ list ∈ libraries, list.length ≤ maxWidgetLibraries ∧
      ∀ key ∈ list, isValidLibraryKey key = true := by
  rintro list ⟨⟩
  obtain ⟨few, keys⟩ := reject_bind_ok.mp checked
  refine ⟨Nat.not_lt.mp few, ?_⟩
  intro key member
  have valid := reject_eq_ok.mp (forM_eq_ok.mp keys key member)
  exact Bool.not_eq_false _ ▸ valid

lemma validateScriptBodyJson_eq_ok {parse : List Char → Option JsonValue}
    {oxc : List Char → Option (List (List Char))} {json : List Char} {body : ScriptBody}
    (accepted : validateScriptBodyJson parse oxc json = .ok body) :
    (parse json).bind readBody = some body ∧ Checked body := by
  obtain ⟨-, accepted⟩ := reject_bind_ok.mp accepted
  obtain ⟨parsed, read, accepted⟩ := bind_eq_ok.mp accepted
  obtain ⟨-, accepted⟩ := reject_bind_ok.mp accepted
  obtain ⟨size, accepted⟩ := reject_bind_ok.mp accepted
  obtain ⟨poll, accepted⟩ := reject_bind_ok.mp accepted
  obtain ⟨tick, accepted⟩ := reject_bind_ok.mp accepted
  obtain ⟨⟨⟩, libraries, accepted⟩ := bind_eq_ok.mp accepted
  obtain ⟨⟨⟩, _, accepted⟩ := bind_eq_ok.mp accepted
  obtain ⟨_, _, accepted⟩ := bind_eq_ok.mp accepted
  obtain ⟨⟨⟩, _, accepted⟩ := bind_eq_ok.mp accepted
  obtain ⟨⟨⟩, mounts, accepted⟩ := bind_eq_ok.mp accepted
  obtain ⟨-, accepted⟩ := reject_bind_ok.mp accepted
  obtain ⟨⟨⟩, _, done⟩ := bind_eq_ok.mp accepted
  cases done
  obtain ⟨ids, targets, mounts⟩ := bind_eq_ok.mp mounts
  refine ⟨require_eq_ok.mp read, ?_⟩
  constructor
  · omega
  · intro seconds has
    by_contra low
    exact poll ⟨seconds, has, Nat.not_le.mp low⟩
  · intro lifecycle has ticks hasTick
    by_contra outside
    exact tick ⟨ticks, mem_bind_iff.mpr ⟨lifecycle, has, hasTick⟩, outside⟩
  · exact checkLibraries_eq_ok libraries
  · intro id member
    rw [require_eq_ok.mp targets] at member
    have held := reject_eq_ok.mp (forM_eq_ok.mp mounts id member)
    exact Bool.not_eq_false _ ▸ held

/-- The permissions that the storage reads. -/
def parsedPermissions (j : JsonValue) : Option JsonValue :=
  (j.fields bodyFields).bind (fun field => field "permissions".toList)

/-- A stored body as the frontend would have it. -/
def ScriptBody.shown (body : ScriptBody) : WidgetBody where
  source := body.source
  permissions := {
    network := body.permissions.network
    networkTools := false
    pollSeconds := body.permissions.pollSeconds.map Int.ofNat }
  htmlShim := body.htmlShim
  libraries := (body.libraries.map List.eraseDups).filter (fun list => !list.isEmpty)
  lifecycle := body.lifecycle.map ScriptLifecycle.shown

def textOf (name : String) (j : JsonValue) : List Char :=
  ((j.get name.toList).bind JsonValue.asString).getD []

def sourceOf : JsonValue → List Char :=
  textOf "source"

def htmlShimOf (j : JsonValue) : Option (List Char) :=
  (j.get "htmlShim".toList).bind JsonValue.asString

/-- What a body that the storage takes has to satisfy for the frontend to take it. -/
structure Renders (json : List Char) (j : JsonValue) : Prop where
  /-- The frontend has no room for a shim. -/
  small : Text.byteLength json ≤ Frontend.maxScriptSourceBytes + 4096
  object : j.isObject = true
  /-- A byte order mark is white space for the frontend alone. -/
  visible : ∃ c ∈ sourceOf j, isSpace c = false
  /-- The expression finds no other ids than the scan, except such as are there. -/
  mounts : ∀ id ∈ Frontend.extractGetElementByIdTargets (sourceOf j),
    id ∈ (extractGetElementByIdTargets (sourceOf j)).getD [] ∨
      mounted (sourceOf j) (htmlShimOf j) id = true
  lifecycle : ∀ value, j.get "lifecycle".toList = some value → value ≠ .null →
    value.isObject = true ∧ ∃ name, value.get "kind".toList = some (.string name)
  /-- The storage knows no permission for network tools. -/
  grants : ∀ permissions, j.get "permissions".toList = some permissions →
    isTrue (permissions.get "networkTools".toList) = false

section Body
variable {j : JsonValue} {body : ScriptBody} (reads : Reads j body)
include reads

lemma Reads.sourceOf_eq : sourceOf j = body.source := by
  rw [sourceOf, textOf, reads.source]
  rfl

lemma Reads.htmlShimOf_eq : htmlShimOf j = body.htmlShim := by
  obtain ⟨same, absent | null⟩ | ⟨value, shim, found, _, text, same⟩ :=
    optional_eq_some reads.htmlShim
  · rw [htmlShimOf, absent, same]
    rfl
  · rw [htmlShimOf, null, same]
    rfl
  · rw [htmlShimOf, found, same, ← text]
    rfl

section
variable (checked : Checked body)
include checked

/-- The frontend's list of libraries is the stored one without repetitions. -/
lemma Reads.libraries_shown :
    optionally Frontend.readLibraries (j.get "libraries".toList) =
      .ok (body.libraries.map eraseDups) :=
  optionally_shown reads.libraries (fun _ list _ found present =>
    readLibraries_shown found (checked.libraries list present).1 (checked.libraries list present).2)

lemma Reads.lifecycle_shown :
    optionally Frontend.readLifecycle (j.get "lifecycle".toList) =
        .ok (body.lifecycle.map ScriptLifecycle.shown) ↔
      ∀ value, j.get "lifecycle".toList = some value → value ≠ .null →
        value.isObject = true ∧ ∃ name, value.get "kind".toList = some (.string name) := by
  constructor
  · intro done value found present
    obtain ⟨-, absent | null⟩ | ⟨other, lifecycle, same, _, read, stored⟩ :=
      optional_eq_some reads.lifecycle
    · rw [absent] at found
      cases found
    · rw [null] at found
      cases found
      exact absurd rfl present
    · rw [found] at same done
      cases same
      rw [stored, optionally] at done
      · refine (readLifecycle_shown read (checked.tick lifecycle stored)).mp ?_
        cases result : Frontend.readLifecycle value with
        | error reason =>
          rw [result] at done
          cases done
        | ok shown =>
          rw [result] at done
          injection done with done
          injection done with done
          rw [done]
      · exact present
  · intro records
    refine optionally_shown reads.lifecycle (fun value lifecycle found read stored => ?_)
    refine (readLifecycle_shown read (checked.tick lifecycle stored)).mpr (records value found ?_)
    rintro rfl
    cases read

lemma Reads.pollSeconds_shown {p : JsonValue}
    (found : j.get "permissions".toList = some p) (record : p.isObject = true) :
    isTrue (p.get "network".toList) = body.permissions.network ∧
      optionally readPollSeconds (p.get "pollSeconds".toList) =
        .ok (body.permissions.pollSeconds.map Int.ofNat) := by
  obtain ⟨q, same, read⟩ := reads.permissions
  rw [found] at same
  cases same
  obtain ⟨network, poll⟩ := readPermissions_object record read
  refine ⟨network, optionally_shown poll (fun _ seconds _ read stored => ?_)⟩
  exact readPollSeconds_shown read (checked.poll seconds stored)

lemma Reads.validate_iff {p : JsonValue}
    (found : j.get "permissions".toList = some p) (record : p.isObject = true) :
    validateScriptWidgetBody j = .ok body.shown ↔
      trim body.source ≠ [] ∧
      Frontend.validateScriptDomMounts body.source body.htmlShim = .ok () ∧
      optionally Frontend.readLifecycle (j.get "lifecycle".toList) =
        .ok (body.lifecycle.map ScriptLifecycle.shown) ∧
      isTrue (p.get "networkTools".toList) = false := by
  obtain ⟨network, poll⟩ := reads.pollSeconds_shown checked found record
  have text : (j.get "source".toList).bind JsonValue.asString = some body.source := by
    rw [reads.source]
    rfl
  have granted : (j.get "permissions".toList).filter isObject = some p := by
    rw [found, filter_some, if_pos record]
  have shim : (j.get "htmlShim".toList).bind JsonValue.asString = body.htmlShim :=
    reads.htmlShimOf_eq
  rw [validateScriptWidgetBody, text, granted, shim]
  constructor
  · intro done
    obtain ⟨_, ⟨⟩, done⟩ := bind_eq_ok.mp done
    obtain ⟨_, ⟨⟩, done⟩ := bind_eq_ok.mp done
    obtain ⟨visible, done⟩ := reject_bind_ok.mp done
    obtain ⟨-, done⟩ := reject_bind_ok.mp done
    obtain ⟨⟨⟩, mounts, done⟩ := bind_eq_ok.mp done
    obtain ⟨_, _, done⟩ := bind_eq_ok.mp done
    obtain ⟨_, _, done⟩ := bind_eq_ok.mp done
    obtain ⟨lifecycle, read, done⟩ := bind_eq_ok.mp done
    injection done with done
    refine ⟨visible, mounts, ?_, ?_⟩
    · rw [read]
      exact congrArg (fun shown => Except.ok shown.lifecycle) done
    · exact congrArg (fun shown => shown.permissions.networkTools) done
  · rintro ⟨visible, mounts, lifecycle, tools⟩
    refine bind_eq_ok.mpr ⟨_, rfl, bind_eq_ok.mpr ⟨_, rfl, ?_⟩⟩
    refine reject_bind_ok.mpr ⟨visible, reject_bind_ok.mpr ⟨Nat.not_lt.mpr checked.size, ?_⟩⟩
    refine bind_eq_ok.mpr ⟨⟨⟩, mounts, bind_eq_ok.mpr ⟨_, poll, ?_⟩⟩
    refine bind_eq_ok.mpr ⟨_, reads.libraries_shown checked, bind_eq_ok.mpr ⟨_, lifecycle, ?_⟩⟩
    rw [network, tools]
    rfl

end

end Body

variable {parse : List Char → Option JsonValue}

lemma parseJsonObject_eq_ok {text : List Char} {parsed : JsonValue} :
    parseJsonObject parse text = .ok parsed ↔
      parse text = some parsed ∧ parsed.isObject = true := by
  rw [parseJsonObject, bind_eq_ok]
  constructor
  · rintro ⟨other, read, done⟩
    obtain ⟨object, done⟩ := reject_bind_ok.mp done
    cases done
    exact ⟨require_eq_ok.mp read, by simpa using object⟩
  · rintro ⟨read, object⟩
    exact ⟨parsed, require_eq_ok.mpr read, reject_bind_ok.mpr ⟨by simp [object], rfl⟩⟩

/-- The frontend takes exactly the stored bodies that satisfy the conditions, as they are stored. -/
lemma script_body_agrees {oxc : List Char → Option (List (List Char))} {json : List Char}
    {j p : JsonValue} {body : ScriptBody} (value : parse json = some j)
    (accepted : validateScriptBodyJson parse oxc json = .ok body)
    (permissions : parsedPermissions j = some p) (record : p.isObject = true) :
    validateCustomWidgetBodyJson parse json = .ok body.shown ↔ Renders json j := by
  obtain ⟨read, checked⟩ := validateScriptBodyJson_eq_ok accepted
  rw [value, bind_some] at read
  have granted (object : j.isObject = true) : j.get "permissions".toList = some p := by
    obtain ⟨field, fields, found⟩ := bind_eq_some_iff.mp permissions
    rw [← found, fields_eq_get fields object (by decide)]
  constructor
  · intro done
    obtain ⟨small, done⟩ := reject_bind_ok.mp done
    obtain ⟨parsed, object, done⟩ := bind_eq_ok.mp done
    obtain ⟨same, object⟩ := parseJsonObject_eq_ok.mp object
    rw [value] at same
    cases same
    have reads := reads_of_readBody object read
    obtain ⟨visible, mounts, lifecycle, tools⟩ :=
      (reads.validate_iff checked (granted object) record).mp done
    constructor
    · omega
    · exact object
    · rw [reads.sourceOf_eq]
      exact trim_ne_nil.mp visible
    · intro id member
      rw [reads.sourceOf_eq] at member
      rw [reads.sourceOf_eq, reads.htmlShimOf_eq]
      exact .inr (frontend_mounts_iff.mp mounts id member)
    · exact (reads.lifecycle_shown checked).mp lifecycle
    · intro q found
      rw [granted object] at found
      cases found
      exact tools
  · intro renders
    have reads := reads_of_readBody renders.object read
    have found := granted renders.object
    refine reject_bind_ok.mpr ⟨Nat.not_lt.mpr renders.small, bind_eq_ok.mpr ⟨j, ?_, ?_⟩⟩
    · exact parseJsonObject_eq_ok.mpr ⟨value, renders.object⟩
    · refine (reads.validate_iff checked found record).mpr ⟨?_, ?_, ?_, renders.grants p found⟩
      · rw [← reads.sourceOf_eq]
        exact trim_ne_nil.mpr renders.visible
      · refine frontend_mounts_iff.mpr (fun id member => ?_)
        rw [← reads.sourceOf_eq] at member
        rcases renders.mounts id member with scanned | there
        · rw [reads.sourceOf_eq] at scanned
          exact checked.mounts id scanned
        · rw [← reads.sourceOf_eq, ← reads.htmlShimOf_eq]
          exact there
      · exact (reads.lifecycle_shown checked).mpr renders.lifecycle

end Widgets
