import ShapeCheck.Json.Token
import ShapeCheck.Number.Notation
import ShapeCheck.Text.Quoted

set_option autoImplicit false

/-! # JSON values

A `Json` is what a complete JSON text says: numbers keep their digits, and objects keep their
entries in order, repeated keys included. `Json.compact` and `Json.pretty` write one out again.
-/

namespace ShapeCheck

/-- A JSON value. -/
inductive Json
  | null
  | bool (value : Bool)
  | number (value : Json.Numeral)
  | string (value : String)
  | array (items : List Json)
  | object (entries : List (String × Json))
  deriving Repr, Inhabited

namespace Json

/-! ## Construction -/

/-- A natural number. -/
def ofNat (n : Nat) : Json := .number ⟨⟨false, n, 0⟩, true⟩

/-- A double. JSON has no spelling for NaN and the infinities. -/
def ofDouble (x : Double) : Json := if x.isFinite then .number ⟨x.shortest, false⟩ else .null

/-- Adds an entry. A key that is there already keeps its place and takes the new value. -/
def setEntry {α : Type} (entries : List (String × α)) (key : String) (value : α) :
    List (String × α) :=
  if entries.any (·.1 == key) then
    entries.map fun entry => if entry.1 == key then (key, value) else entry
  else entries ++ [(key, value)]

/-- The value of an entry. -/
def field? (json : Json) (key : String) : Option Json :=
  match json with
  | .object entries => entries.lookup key
  | _ => none

/-! ## Text -/

/-- The text of a number: one that is spelled by digits alone keeps them, any other is written as
the double that it stands for. -/
def Numeral.text (n : Numeral) : String :=
  if n.whole then Decimal.sign n.value.negative ++ String.ofList (Decimal.digitsOf n.value.digits)
  else n.value.toDouble.jsonText

mutual

/-- The text without any white space. -/
def compact : Json → String
  | .null => "null"
  | .bool b => if b then "true" else "false"
  | .number n => n.text
  | .string s => Text.quote s
  | .array items => "[" ++ String.intercalate "," (compactItems items) ++ "]"
  | .object entries => "\x7b" ++ String.intercalate "," (compactEntries entries) ++ "\x7d"

/-- The texts of the items of an array. -/
def compactItems : List Json → List String
  | [] => []
  | item :: rest => item.compact :: compactItems rest

/-- The texts of the entries of an object. -/
def compactEntries : List (String × Json) → List String
  | [] => []
  | (key, value) :: rest => (Text.quote key ++ ":" ++ value.compact) :: compactEntries rest

end

/-- The start of a line at a depth of nesting. -/
def indent (depth : Nat) : String := "\n" ++ String.ofList (List.replicate (2 * depth) ' ')

mutual

/-- The text with one item or entry to a line, two blanks further in at each depth. -/
def prettyAt (depth : Nat) : Json → String
  | .array [] => "[]"
  | .array items =>
    "[" ++ String.intercalate "," (prettyItems (depth + 1) items) ++ indent depth ++ "]"
  | .object [] => "\x7b\x7d"
  | .object entries =>
    "\x7b" ++ String.intercalate "," (prettyEntries (depth + 1) entries) ++ indent depth ++ "\x7d"
  | json => json.compact

/-- The lines of the items of an array. -/
def prettyItems (depth : Nat) : List Json → List String
  | [] => []
  | item :: rest => (indent depth ++ prettyAt depth item) :: prettyItems depth rest

/-- The lines of the entries of an object. -/
def prettyEntries (depth : Nat) : List (String × Json) → List String
  | [] => []
  | (key, value) :: rest =>
    (indent depth ++ Text.quote key ++ ": " ++ prettyAt depth value) :: prettyEntries depth rest

end

/-- The text over several lines. -/
def pretty (json : Json) : String := prettyAt 0 json

end Json

end ShapeCheck
