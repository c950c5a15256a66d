import ShapeCheck.Descriptor.Basic
import ShapeCheck.Json.Value
import ShapeCheck.Text.Quoted

set_option autoImplicit false

/-! # Values

The values that are checked: those of JSON, and the others that a script can pass to a function.
Objects keep their keys in the order of insertion, and no key stands twice.

Main fact: `Value.isTruthy_of_isReference` (whatever has an identity of
its own counts as true).
-/

namespace ShapeCheck

/-- A value of a script. -/
inductive Value
  | undefined
  | null
  | bool (value : Bool)
  | number (value : Double)
  | bigint (value : Int)
  | string (value : String)
  | symbol (description : String)
  | function (name : String)
  | array (items : List Value)
  | object (entries : List (String × Value))
  | buffer (bytes : List UInt8)
  /-- A numeric view over raw bytes. -/
  | view (kind : ViewKind) (bytes : List UInt8)
  deriving Repr, Inhabited

namespace Value

mutual

/-- The value that a JSON text describes. A repeated key keeps its first place and its last value.
-/
def ofJson : Json → Value
  | .null => .null
  | .bool b => .bool b
  | .number n => .number n.value.toDouble
  | .string s => .string s
  | .array items => .array (ofItems items)
  | .object entries => .object (ofEntries [] entries)

/-- The items of an array. -/
def ofItems : List Json → List Value
  | [] => []
  | item :: rest => ofJson item :: ofItems rest

/-- Adds the entries of an object to those that are there. -/
def ofEntries (known : List (String × Value)) : List (String × Json) → List (String × Value)
  | [] => known
  | (key, value) :: rest => ofEntries (Json.setEntry known key (ofJson value)) rest

end

/-- The view of this many elements, all of them zero. -/
def zeroedView (kind : ViewKind) (length : Nat) : Value :=
  .view kind (List.replicate (length * kind.elementSize) 0)

/-! ## Observations -/

/-- The tag of a value. -/
def typeOf : Value → String
  | undefined => "undefined"
  | bool _ => "boolean"
  | number _ => "number"
  | bigint _ => "bigint"
  | string _ => "string"
  | symbol _ => "symbol"
  | function _ => "function"
  | null | array _ | object _ | buffer _ | view _ _ => "object"

/-- The value counts as true. -/
def isTruthy : Value → Bool
  | undefined | null => false
  | bool b => b
  | number x => !x.isZero && !x.isNaN
  | bigint n => n != 0
  | string s => !s.isEmpty
  | _ => true

/-- The value has an identity of its own: it is equal to nothing but itself. -/
def isReference : Value → Bool
  | symbol _ | function _ | array _ | object _ | buffer _ | view _ _ => true
  | _ => false

theorem isTruthy_of_isReference {v : Value} (h : v.isReference = true) : v.isTruthy = true := by
  cases v <;> simp_all [isReference, isTruthy]

/-- Strict equality of values without an identity. -/
def primitiveEquals : Value → Value → Bool
  | undefined, undefined => true
  | null, null => true
  | bool a, bool b => a == b
  | number x, number y => x.equals y
  | bigint m, bigint n => m == n
  | string s, string t => s == t
  | _, _ => false

/-- The number of elements of a view. -/
def viewLength (kind : ViewKind) (bytes : List UInt8) : Nat := bytes.length / kind.elementSize

/-- The length of a text in 16-bit units: characters beyond the first plane take two. -/
def units16 (s : String) : Nat :=
  s.toList.foldl (fun units c => if c.toNat < 0x10000 then units + 1 else units + 2) 0

/-- The length of a value that has one. -/
def length? : Value → Option Nat
  | string s => some (units16 s)
  | array items => some items.length
  | buffer bytes => some bytes.length
  | view kind bytes => some (viewLength kind bytes)
  | _ => none

/-- The name of the constructor of a value, where predicates can see it. -/
def constructorName? : Value → Option String
  | array _ => some "Array"
  | object _ => some "Object"
  | buffer _ => some "Buffer"
  | view kind _ => some kind.constructorName
  | function _ => some "Function"
  | _ => none

/-- An array. -/
def isArray : Value → Bool
  | array _ => true
  | _ => false

/-- A buffer. -/
def isBuffer : Value → Bool
  | buffer _ => true
  | _ => false

/-- A view over binary memory; a buffer is a view of bytes. -/
def isView : Value → Bool
  | buffer _ | view _ _ => true
  | _ => false

/-! ## Text -/

mutual

/-- The value as a message shows it. -/
def display : Value → String
  | undefined => "undefined"
  | null => "null"
  | bool b => toString b
  | number x => x.text
  | bigint n => toString n ++ "n"
  | string s => Text.quoteVisible s
  | symbol description => "Symbol(" ++ description ++ ")"
  | function name => "[Function " ++ name ++ "]"
  | array items => "[" ++ String.intercalate ", " (displayItems items) ++ "]"
  | object [] => "\x7b\x7d"
  | object entries => "\x7b" ++ String.intercalate "," (displayEntries entries) ++ " \x7d"
  | buffer bytes => "<Buffer " ++ toString bytes.length ++ " bytes>"
  | view kind bytes => kind.constructorName ++ "(" ++ toString (viewLength kind bytes) ++ ")"

/-- The items of an array. -/
def displayItems : List Value → List String
  | [] => []
  | item :: rest => item.display :: displayItems rest

/-- The entries of an object. -/
def displayEntries : List (String × Value) → List String
  | [] => []
  | (key, value) :: rest =>
    (" " ++ Text.quoteVisible key ++ ": " ++ value.display) :: displayEntries rest

end

end Value

end ShapeCheck
