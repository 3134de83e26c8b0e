import FlashNext.Data.Dict
import Mathlib.Algebra.Order.Ring.Rat

namespace FlashNext.Ple

open FlashNext.Data

/-! What `json.load` returns, with the comparisons and conversions the sidecar
validator applies to it.  Numbers of different types may be equal; a `tuple()`
of a string or of a dict is a tuple of characters or of keys. -/

inductive PyFloat where
  | finite (value : ℚ)
  | inf (negative : Bool)
  | nan

inductive Json where
  | null
  | bool (value : Bool)
  | int (value : Int)
  | float (value : PyFloat)
  | str (value : String)
  | arr (items : List Json)
  | obj (fields : List (String × Json))

/-- The exceptions that the sidecar code can meet. -/
inductive PyError where
  | osError | valueError | typeError | attributeError | recursionError
deriving DecidableEq, Repr

namespace Json

/-- `value == number`. -/
def eqInt : Json → Int → Bool
  | .int value, number => value == number
  | .bool value, number => (if value then 1 else 0) == number
  | .float (.finite value), number => value == number
  | _, _ => false

/-- `value == text`. -/
def eqStr : Json → String → Bool
  | .str value, text => value == text
  | _, _ => false

/-- `tuple(items) == tuple(numbers)`. -/
def eqInts : List Json → List Int → Bool
  | [], [] => true
  | item :: items, number :: numbers => item.eqInt number && eqInts items numbers
  | _, _ => false

/-- `tuple(value)`. -/
def tuple : Json → Except PyError (List Json)
  | .arr items => .ok items
  | .str value => .ok (value.toList.map fun char => .str (String.singleton char))
  | .obj fields => .ok (fields.map fun field => .str field.1)
  | _ => .error .typeError

def hashable : Json → Bool
  | .arr _ | .obj _ => false
  | _ => true

/-- `set(value)`, as the list of what is put into it. -/
def set (value : Json) : Except PyError (List Json) :=
  match value.tuple with
  | .error error => .error error
  | .ok items => if items.all hashable then .ok items else .error .typeError

/-- `set(value) == set(names)`, given the members of the first. -/
def sameSet (items : List Json) (names : List String) : Bool :=
  items.all (fun item => names.any (item.eqStr ·)) && names.all fun name => items.any (·.eqStr name)

/-- `fields.get(name, default)`. -/
def field (fields : List (String × Json)) (name : String) (default : Json) : Json :=
  (Dict.find name fields).getD default

/-- `value.get(name, ())`; only a dict has the method. -/
def getItems : Json → String → Except PyError (List Json)
  | .obj fields, name => (field fields name (.arr [])).tuple
  | _, _ => .error .attributeError

def ints (values : List Int) : Json := .arr (values.map .int)

theorem eqInts_ints (values : List Int) : eqInts (values.map .int) values = true := by
  induction values with
  | nil => rfl
  | cons value rest ih => simp [eqInts, eqInt, ih]

theorem eqInts_ints_iff (left right : List Int) : eqInts (left.map .int) right = true ↔ left = right := by
  induction left generalizing right with
  | nil => cases right <;> simp [eqInts]
  | cons value rest ih =>
      cases right with
      | nil => simp [eqInts]
      | cons number numbers => simp [eqInts, eqInt, ih]

theorem eqStr_iff {value : Json} {text : String} : value.eqStr text = true ↔ value = .str text := by
  cases value <;> simp [eqStr]

theorem sameSet_iff {items : List Json} {names : List String} :
    sameSet items names = true ↔
      (∀ item ∈ items, ∃ name ∈ names, item = .str name) ∧ ∀ name ∈ names, .str name ∈ items := by
  simp only [sameSet, Bool.and_eq_true, List.all_eq_true, List.any_eq_true, eqStr_iff]
  constructor
  · intro holds
    obtain ⟨left, right⟩ := holds
    refine ⟨left, fun name member => ?_⟩
    obtain ⟨item, inside, rfl⟩ := right name member
    exact inside
  · intro holds
    obtain ⟨left, right⟩ := holds
    exact ⟨left, fun name member => ⟨_, right name member, rfl⟩⟩

theorem set_obj (fields : List (String × Json)) :
    set (.obj fields) = .ok (fields.map fun field => .str field.1) := by
  simp [set, tuple, hashable]

end Json

end FlashNext.Ple
