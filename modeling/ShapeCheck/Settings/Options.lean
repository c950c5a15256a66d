import ShapeCheck.Compile.Options
import ShapeCheck.Json.Draft
import ShapeCheck.Text.Blank

set_option autoImplicit false

/-! # Options in files

Options are written as a record of truth values, an object or a list in the order of the fields. In
a configuration every option may be left open, and words such as `"on"` stand for truth values.

`OptionChoices` are options of which some are open. They are layered: what an upper layer leaves
open is decided by the layer below.

Main facts: `OptionChoices.get?_withFallback` (the upper layer wins where it decides) and
`OptionChoices.withFallback_assoc` (layers can be merged from either end).
-/

namespace ShapeCheck

/-! ## Full options -/

/-- The field of an option that can be written once. The second part of what is gathered holds the
names that have been read. -/
def CompileOptions.field (name : String) : Json.Draft.Field (CompileOptions × List String) where
  name := name
  required := false
  isSet := fun (_, seen) => seen.contains name
  read := fun depth draft (options, seen) => do
    let value ← Json.Draft.readBool depth draft
    return (options.set name value, name :: seen)

/-- Reads options; those that are missing have their defaults. -/
def CompileOptions.read : Json.Draft.Reader CompileOptions := fun depth draft => do
  let (options, _) ←
    Json.Draft.readRecord (CompileOptions.names.map CompileOptions.field) ({}, []) depth draft
  return options

/-! ## Choices -/

/-- Options of which some are open. -/
structure OptionChoices where
  superfluousPropertyCheck : Option Bool := none
  ignoreMethods : Option Bool := none
  valueMayBeAbsent : Option Bool := none
  inlineTrivialPredicates : Option Bool := none
  shortCircuit : Option Bool := none
  deriving DecidableEq, Repr, Inhabited

namespace OptionChoices

/-- The choices by name, in the order in which the options are declared. -/
def fields (c : OptionChoices) : List (String × Option Bool) :=
  [("superfluousPropertyCheck", c.superfluousPropertyCheck), ("ignoreMethods", c.ignoreMethods),
    ("valueMayBeAbsent", c.valueMayBeAbsent),
    ("inlineTrivialPredicates", c.inlineTrivialPredicates), ("shortCircuit", c.shortCircuit)]

/-- The choice for the option of this name. -/
def get? (c : OptionChoices) (name : String) : Option Bool := (c.fields.lookup name).join

/-- Changes the choice for the option of this name, if there is one. -/
def set (c : OptionChoices) (name : String) (value : Option Bool) : OptionChoices :=
  match name with
  | "superfluousPropertyCheck" => { c with superfluousPropertyCheck := value }
  | "ignoreMethods" => { c with ignoreMethods := value }
  | "valueMayBeAbsent" => { c with valueMayBeAbsent := value }
  | "inlineTrivialPredicates" => { c with inlineTrivialPredicates := value }
  | "shortCircuit" => { c with shortCircuit := value }
  | _ => c

/-- Layers choices over others. -/
def withFallback (upper lower : OptionChoices) : OptionChoices where
  superfluousPropertyCheck := upper.superfluousPropertyCheck <|> lower.superfluousPropertyCheck
  ignoreMethods := upper.ignoreMethods <|> lower.ignoreMethods
  valueMayBeAbsent := upper.valueMayBeAbsent <|> lower.valueMayBeAbsent
  inlineTrivialPredicates := upper.inlineTrivialPredicates <|> lower.inlineTrivialPredicates
  shortCircuit := upper.shortCircuit <|> lower.shortCircuit

/-- The options with what is chosen put in place. -/
def apply (c : OptionChoices) (o : CompileOptions) : CompileOptions where
  superfluousPropertyCheck := c.superfluousPropertyCheck.getD o.superfluousPropertyCheck
  ignoreMethods := c.ignoreMethods.getD o.ignoreMethods
  valueMayBeAbsent := c.valueMayBeAbsent.getD o.valueMayBeAbsent
  inlineTrivialPredicates := c.inlineTrivialPredicates.getD o.inlineTrivialPredicates
  shortCircuit := c.shortCircuit.getD o.shortCircuit

theorem get?_withFallback (upper lower : OptionChoices) (name : String) :
    (upper.withFallback lower).get? name = (upper.get? name <|> lower.get? name) := by
  simp only [get?, fields, withFallback, List.lookup_cons, List.lookup_nil]
  repeat' split
  all_goals simp

theorem withFallback_assoc (a b c : OptionChoices) :
    (a.withFallback b).withFallback c = a.withFallback (b.withFallback c) := by
  simp [withFallback, Option.orElse_eq_orElse, Option.orElse_eq_or, Option.or_assoc]

/-- A truth value, a word for one, or null for an option that is left open. -/
def readSwitch : Json.Draft.Reader (Option Bool)
  | _, .null => .ok none
  | depth, draft => do
    match ← draft.toJson depth with
    | .bool value => return some value
    | .string word =>
      match Text.truthWord? word with
      | some value => return some value
      | none => .error .mismatch
    | _ => .error .mismatch

/-- The field of a choice that can be written once. -/
def field (name : String) : Json.Draft.Field (OptionChoices × List String) where
  name := name
  required := false
  isSet := fun (_, seen) => seen.contains name
  read := fun depth draft (choices, seen) => do
    let value ← readSwitch depth draft
    return (choices.set name value, name :: seen)

/-- Reads choices; those that are missing are open. -/
def read : Json.Draft.Reader OptionChoices := fun depth draft => do
  let (choices, _) ← Json.Draft.readRecord (CompileOptions.names.map field) ({}, []) depth draft
  return choices

end OptionChoices

end ShapeCheck
