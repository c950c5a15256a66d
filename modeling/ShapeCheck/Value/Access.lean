import ShapeCheck.Value.Basic
import ShapeCheck.Number.Decimal

set_option autoImplicit false

/-! # Members of values

Members are looked up by text, and elements also by number. A `Located` value knows its place in the
value that is being checked, because arrays, objects and the like are equal only to themselves: two
of them are the same exactly when they stand at the same place.

Main facts: `Located.strictEquals_self` and `Value.hasKey_of_mem_keys`.
-/

namespace ShapeCheck

namespace Value

/-! ## Keys -/

/-- The position that a key names: digits with an optional plus sign, within a 64-bit word. -/
def position? (key : String) : Option Nat :=
  let digits :=
    match key.toList with
    | '+' :: rest => rest
    | all => all
  if !digits.isEmpty && digits.all Char.isDigit then
    let n := Decimal.readDigits 0 digits
    if n ≤ Double.lastPosition then some n else none
  else none

/-- The part of a value that is stored under a key, with its number among the parts. -/
def part? (v : Value) (key : String) : Option (Nat × Value) :=
  match v with
  | .object entries =>
    match entries.findIdx? (·.1 == key) with
    | some i => (entries[i]?).map fun entry => (i, entry.2)
    | none => none
  | .array items =>
    match position? key with
    | some i => (items[i]?).map fun item => (i, item)
    | none => none
  | _ => none

/-- What a key means where nothing is stored under it: the length, or nothing. -/
def derived (v : Value) (key : String) : Value :=
  match v.length? with
  | some n => if key = "length" then .number (Double.ofNat n) else .undefined
  | none => .undefined

/-- The member under a key. -/
def get (v : Value) (key : String) : Value :=
  match v.part? key with
  | some (_, member) => member
  | none => v.derived key

/-- The value has a member under the key. Only objects and arrays have keys. -/
def hasKey (v : Value) (key : String) : Bool :=
  match v with
  | .object entries => entries.any (·.1 == key)
  | .array items =>
    -- the length of an array is a member, though not one of its keys
    key == "length" ||
      match position? key with
      | some i => i < items.length
      | none => false
  | _ => false

/-- The keys of a value, in order. -/
def keys (v : Value) : List String :=
  match v with
  | .object entries => entries.map Prod.fst
  | .array items => (List.range items.length).map toString
  | _ => []

theorem hasKey_of_mem_keys {entries : List (String × Value)} {key : String}
    (h : key ∈ (Value.object entries).keys) : (Value.object entries).hasKey key = true := by
  simpa [keys, hasKey] using h

end Value

/-! ## Places -/

/-- A value with its place: the numbers of the parts that lead to it from the whole, last first.
Computed values have no place, but nobody asks for it. -/
structure Located where
  value : Value
  place : List Nat
  deriving Repr, Inhabited

namespace Located

/-- A value that has just been computed. -/
def computed (value : Value) : Located := ⟨value, []⟩

/-- A value as a whole. -/
def whole (value : Value) : Located := ⟨value, []⟩

/-- A truth value that has just been computed. -/
def ofBool (b : Bool) : Located := computed (.bool b)

/-- Strict equality: values with an identity are equal if they are one and the same. -/
def strictEquals (a b : Located) : Bool :=
  if a.value.isReference then b.value.isReference && a.place == b.place
  else a.value.primitiveEquals b.value

theorem strictEquals_self (a : Located) (h : a.value.isReference = true) :
    a.strictEquals a = true := by
  simp [strictEquals, h]

/-- The member under a key. -/
def get (a : Located) (key : String) : Located :=
  match a.value.part? key with
  | some (i, member) => ⟨member, i :: a.place⟩
  | none => computed (a.value.derived key)

/-- The element at a number: of arrays and buffers where it is a position, and otherwise the member
under the text of the number. -/
def getIndex (a : Located) (x : Double) : Located :=
  match a.value with
  | .array items =>
    if x.isPosition then
      match items[x.toPosition]? with
      | some item => ⟨item, x.toPosition :: a.place⟩
      | none => computed .undefined
    else a.get x.text
  | .buffer bytes =>
    if x.isPosition then
      match bytes[x.toPosition]? with
      | some byte => computed (.number (Double.ofNat byte.toNat))
      | none => computed .undefined
    else a.get x.text
  | _ => a.get x.text

end Located

/-- The element at a number. -/
def Value.getIndex (v : Value) (x : Double) : Value := ((Located.whole v).getIndex x).value

end ShapeCheck
