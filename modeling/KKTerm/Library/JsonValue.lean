import Mathlib.Data.Rat.Defs

/-!
# JSON values and two ways to read them

An object is the list of its members in the order of the text. A property access
finds the last member of the name. A typed reader takes an object whose named
members occur at most once, or an array with the fields in their order.
-/

inductive JsonValue where
  | null
  | bool (value : Bool)
  | integer (value : Int)
  | decimal (value : Rat)
  | string (value : List Char)
  | array (items : List JsonValue)
  | object (members : List (List Char × JsonValue))

namespace JsonValue

/-- A property of an object; the last member of the name counts. -/
def get (name : List Char) : JsonValue → Option JsonValue
  | object members => (members.filter (·.1 = name)).getLast?.map Prod.snd
  | _ => none

def isObject : JsonValue → Bool
  | object _ => true
  | _ => false

def asBool : JsonValue → Option Bool
  | bool value => some value
  | _ => none

def asString : JsonValue → Option (List Char)
  | string value => some value
  | _ => none

def asArray : JsonValue → Option (List JsonValue)
  | array items => some items
  | _ => none

def asNumber : JsonValue → Option Rat
  | integer value => some value
  | decimal value => some value
  | _ => none

/-- An unsigned number is written without a fraction or an exponent. -/
def asUnsigned (max : Nat) : JsonValue → Option Nat
  | integer value => if 0 ≤ value ∧ value ≤ max then some value.toNat else none
  | _ => none

/-- A number without a fraction, however it is written. -/
def asInteger : JsonValue → Option Int
  | integer value => some value
  | decimal value => if value.den = 1 then some value.num else none
  | _ => none

/-- A field that may be absent or null. -/
def optional {α : Type} (read : JsonValue → Option α) : Option JsonValue → Option (Option α)
  | none => some none
  | some null => some none
  | some value => (read value).map some

/-- The fields of a record as a typed reader finds them. -/
def fields (names : List (List Char)) : JsonValue → Option (List Char → Option JsonValue)
  | object members =>
    if names.all (fun name => (members.filter (·.1 = name)).length ≤ 1) then
      some (fun name => (members.find? (·.1 = name)).map Prod.snd)
    else none
  | array items =>
    if items.length ≤ names.length then
      some (fun name => (names.idxOf? name).bind (fun i => items[i]?))
    else none
  | _ => none

variable {j : JsonValue} {names : List (List Char)} {name : List Char}

lemma fields_eq_get {field : List Char → Option JsonValue} (read : fields names j = some field)
    (object : j.isObject = true) (listed : name ∈ names) : field name = j.get name := by
  cases j with
  | object members =>
    rw [fields] at read
    split at read
    next single =>
      cases read
      have one : (members.filter (·.1 = name)).length ≤ 1 := by
        simpa using List.all_eq_true.mp single name listed
      dsimp only
      rw [get, ← List.head?_filter]
      generalize members.filter (·.1 = name) = found at one ⊢
      cases found with
      | nil => rfl
      | cons first rest =>
        have last : rest = [] := List.eq_nil_of_length_eq_zero (by simpa using one)
        rw [last]
        rfl
    next => cases read
  | _ => cases object

lemma optional_eq_some {α : Type} {read : JsonValue → Option α} {x : Option JsonValue}
    {result : Option α} (h : optional read x = some result) :
    (result = none ∧ (x = none ∨ x = some null)) ∨
      ∃ value a, x = some value ∧ value ≠ null ∧ read value = some a ∧ result = some a := by
  cases x with
  | none =>
    cases h
    exact .inl ⟨rfl, .inl rfl⟩
  | some value =>
    cases value with
    | null =>
      cases h
      exact .inl ⟨rfl, .inr rfl⟩
    | _ =>
      obtain ⟨a, found, rfl⟩ := Option.map_eq_some_iff.mp h
      exact .inr ⟨_, a, rfl, nofun, found, rfl⟩

lemma asUnsigned_eq_some {max n : Nat} (h : j.asUnsigned max = some n) :
    j = integer n ∧ n ≤ max := by
  cases j with
  | integer value =>
    rw [asUnsigned] at h
    split at h
    next bounds =>
      cases h
      refine ⟨?_, by omega⟩
      rw [Int.toNat_of_nonneg bounds.1]
    next => cases h
  | _ => cases h

lemma asString_eq_some {text : List Char} (h : j.asString = some text) : j = string text := by
  cases j with
  | string value =>
    cases h
    rfl
  | _ => cases h

lemma mapM_asString_eq_some {items : List JsonValue} {texts : List (List Char)}
    (h : items.mapM asString = some texts) : items = texts.map string := by
  induction items generalizing texts with
  | nil =>
    cases h
    rfl
  | cons item items ih =>
    rw [List.mapM_cons] at h
    obtain ⟨text, first, h⟩ := Option.bind_eq_some_iff.mp h
    obtain ⟨rest, all, h⟩ := Option.bind_eq_some_iff.mp h
    cases h
    rw [asString_eq_some first, ih all, List.map_cons]

lemma asBool_eq_some {value : Bool} (h : j.asBool = some value) : j = bool value := by
  cases j with
  | bool b =>
    cases h
    rfl
  | _ => cases h

lemma asArray_eq_some {items : List JsonValue} (h : j.asArray = some items) : j = array items := by
  cases j with
  | array xs =>
    cases h
    rfl
  | _ => cases h

end JsonValue
