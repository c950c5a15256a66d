import ShapeCheck.Document.Basic
import ShapeCheck.Json.Draft

set_option autoImplicit false

/-! # Reading type documents

A document is a JSON text. Definitions, parameters and the document itself are records that are read
straight from the text. A type expression names its kind in an entry that may stand anywhere among
its others, so it is read as a whole first, and what it says is looked at afterwards: inside an
expression, a place where the text is not JSON comes before any wrong form.

Every record may be written as an object or as an array of its fields in order, where an expression
starts with its kind. Keys that mean nothing are ignored; a key that means something stands once.
-/

namespace ShapeCheck

namespace Document

open Json (Fault Draft)

/-! ## The forms of a JSON value -/

/-- The fields of a record, by name: each of them at most once in an object, or the first few of
them in an array. -/
def fieldsOf (names : List String) : Json → Option (List (String × Json))
  | .object entries =>
    let known := entries.filter fun entry => names.contains entry.1
    if (known.map Prod.fst).eraseDups.length = known.length then some known else none
  | .array items => if items.length ≤ names.length then some (names.zip items) else none
  | _ => none

/-- A text. -/
def asString : Json → Option String
  | .string s => some s
  | _ => none

/-- A truth value. -/
def asBool : Json → Option Bool
  | .bool b => some b
  | _ => none

/-- The double that a number is nearest to. -/
def asDouble : Json → Option Double
  | .number n => some n.value.toDouble
  | _ => none

/-- A list of what the given reader reads. -/
def asList {α : Type} (read : Json → Option α) : Json → Option (List α)
  | .array items => items.mapM read
  | _ => none

/-- Null or what the given reader reads. -/
def asOption {α : Type} (read : Json → Option α) : Json → Option (Option α)
  | .null => some none
  | json => (read json).map some

/-- A numeric view: the name of its constructor, or an object with this one name whose value says
nothing. -/
def asView : Json → Option ViewKind
  | .string name => ViewKind.ofConstructorName? name
  | .object [(name, .null)] => ViewKind.ofConstructorName? name
  | .object [(name, .object [])] => ViewKind.ofConstructorName? name
  | _ => none

/-- A field that has to be there. -/
def required {α : Type} (fields : List (String × Json)) (name : String)
    (read : Json → Option α) : Option α :=
  (fields.lookup name).bind read

/-- A field that may be left out. -/
def withDefault {α : Type} (fields : List (String × Json)) (name : String) (default : α)
    (read : Json → Option α) : Option α :=
  match fields.lookup name with
  | none => some default
  | some json => read json

/-! ## Kinds of expressions -/

/-- The kinds of expressions that have no fields. -/
def plainKinds : List (String × TypeExpr) :=
  [("any", .keyword .any), ("unknown", .keyword .unknown), ("never", .keyword .never),
    ("null", .keyword .null), ("undefined", .keyword .undefined), ("number", .keyword .number),
    ("bigint", .keyword .bigint), ("boolean", .keyword .boolean), ("string", .keyword .string),
    ("symbol", .keyword .symbol), ("nonPrimitive", .keyword .object), ("buffer", .buffer)]

/-- The kinds of expressions that have fields. -/
def fieldKinds : List String :=
  ["stringLiteral", "numberLiteral", "booleanLiteral", "array", "tuple", "object", "union",
    "intersection", "reference", "typeParameter", "indexedAccess", "keyof", "numericView"]

/-- All kinds of expressions, in the order of their numbers. -/
def kinds : List String := plainKinds.map Prod.fst ++ fieldKinds

/-- The kind that an entry names; inside another expression a kind may also be given by number. -/
def kindOf : Json → Option String
  | .string name => if kinds.contains name then some name else none
  | .number n => if n.whole ∧ ¬ n.value.negative then kinds[n.value.digits]? else none
  | _ => none

/-! ## Expressions -/

/-- A position of a tuple expression. -/
def readElement (readType : Json → Option TypeExpr) (json : Json) : Option (TypeExpr × Bool) := do
  let fields ← fieldsOf ["type", "optional"] json
  let type ← required fields "type" readType
  let optional ← withDefault fields "optional" false asBool
  return (type, optional)

/-- A member of an object expression. -/
def readProperty (readType : Json → Option TypeExpr) (json : Json) :
    Option (PropertyHead × Option TypeExpr) := do
  let fields ← fieldsOf ["name", "type", "optional", "method", "symbol"] json
  let name ← required fields "name" asString
  let type ← withDefault fields "type" none (asOption readType)
  let optional ← withDefault fields "optional" false asBool
  let method ← withDefault fields "method" false asBool
  let symbolKeyed ← withDefault fields "symbol" false asBool
  return (⟨name, optional, method, symbolKeyed⟩, type)

/-- An expression of a kind that has fields, given what it holds besides its kind. -/
def readFields (readType : Json → Option TypeExpr) (kind : String) (content : Json) :
    Option TypeExpr :=
  match kind with
  | "stringLiteral" => do
    let fields ← fieldsOf ["value"] content
    return .stringLiteral (← required fields "value" asString)
  | "numberLiteral" => do
    let fields ← fieldsOf ["value"] content
    return .numberLiteral (← required fields "value" asDouble)
  | "booleanLiteral" => do
    let fields ← fieldsOf ["value"] content
    return .booleanLiteral (← required fields "value" asBool)
  | "array" => do
    let fields ← fieldsOf ["element"] content
    return .array (← required fields "element" readType)
  | "tuple" => do
    let fields ← fieldsOf ["elements"] content
    return .tuple (← required fields "elements" (asList (readElement readType)))
  | "object" => do
    let fields ← fieldsOf ["properties", "stringIndex"] content
    let properties ← withDefault fields "properties" [] (asList (readProperty readType))
    let index ← withDefault fields "stringIndex" none (asOption readType)
    return .object properties index
  | "union" => do
    let fields ← fieldsOf ["members"] content
    return .union (← required fields "members" (asList readType))
  | "intersection" => do
    let fields ← fieldsOf ["members"] content
    return .intersection (← required fields "members" (asList readType))
  | "reference" => do
    let fields ← fieldsOf ["target", "arguments"] content
    let target ← required fields "target" asString
    let arguments ← withDefault fields "arguments" [] (asList readType)
    return .reference target arguments
  | "typeParameter" => do
    let fields ← fieldsOf ["name"] content
    return .parameter (← required fields "name" asString)
  | "indexedAccess" => do
    let fields ← fieldsOf ["object", "index"] content
    let whole ← required fields "object" readType
    let key ← required fields "index" readType
    return .indexAccess whole key
  | "keyof" => do
    let fields ← fieldsOf ["operand"] content
    return .keyof (← required fields "operand" readType)
  | "numericView" => do
    let fields ← fieldsOf ["view"] content
    return .view (← required fields "view" asView)
  | _ => none

/-- An expression of the given kind, given what it holds besides its kind. A kind without fields
ignores all entries of an object, but in an array it stands alone. -/
def readVariant (readType : Json → Option TypeExpr) (kind : String) (content : Json) :
    Option TypeExpr :=
  match plainKinds.lookup kind with
  | some expr =>
    match content with
    -- here an item too many is a wrong form, for the whole text is JSON already
    | .array (_ :: _) => none
    | _ => some expr
  | none => readFields readType kind content

/-- The expression that a JSON value describes. Each level takes at least one container, so the
depth to which containers may be nested bounds the recursion. -/
def readType : Nat → Json → Option TypeExpr
  | 0, _ => none
  | depth + 1, .object entries => do
    let [(_, kind)] := entries.filter fun entry => entry.1 == "kind" | none
    let kind ← kindOf kind
    readVariant (readType depth) kind (.object (entries.filter fun entry => entry.1 != "kind"))
  | depth + 1, .array (kind :: rest) => do
    let kind ← kindOf kind
    readVariant (readType depth) kind (.array rest)
  | _ + 1, _ => none

/-! ## Straight from the text -/

/-- A kind at its place in the text. -/
def draftKind (depth : Nat) (draft : Draft) : Except Fault String := do
  let name ← draft.readString depth
  if kinds.contains name then return name else .error .mismatch

/-- The entries of an expression: its kind, once, and all others as JSON values. -/
def draftEntries (depth : Nat) (kind : Option String) (others : List (String × Json)) :
    List (Option String × Draft) → Except Fault (Option String × List (String × Json))
  | [] => .ok (kind, others.reverse)
  | (key, value) :: rest => do
    let key ← Draft.contents key
    if key = "kind" then
      if kind.isSome then .error .mismatch
      else draftEntries depth (some (← draftKind depth value)) others rest
    else draftEntries depth kind ((key, ← value.toJson depth) :: others) rest

/-- An expression, its parts checked in the order of the text. -/
def draftType : Draft.Reader TypeExpr
  | 0, .array _ _ => .error .malformed
  | 0, .object _ _ => .error .malformed
  | depth + 1, .array items unclosed =>
    match items with
    | [] => do
      Draft.closed unclosed
      .error .mismatch
    | kind :: rest => do
      let kind ← draftKind depth kind
      let rest ← Draft.itemsToJson depth rest
      Draft.closed unclosed
      finish kind (.array rest)
  | depth + 1, .object entries unclosed => do
    let (kind, others) ← draftEntries depth none [] entries
    Draft.closed unclosed
    match kind with
    | none => .error .mismatch
    | some kind => finish kind (.object others)
  | _, draft => draft.unexpected
where
  /-- Looks at what the expression says once all of it has been read. -/
  finish (kind : String) (content : Json) : Except Fault TypeExpr :=
    match readVariant (readType (Draft.maxDepth + 1)) kind content with
    | some expr => .ok expr
    | none => .error .mismatch

/-- A field of a record that has been read at most once. -/
def field {σ α : Type} (name : String) (required : Bool) (get : σ → Option α)
    (set : σ → α → σ) (read : Draft.Reader α) : Draft.Field σ where
  name := name
  required := required
  isSet gathered := (get gathered).isSome
  read depth draft gathered := do return set gathered (← read depth draft)

/-- The parts of a type parameter as they are read. -/
structure ParameterParts where
  name : Option String := none
  default : Option (Option TypeExpr) := none

/-- A type parameter. -/
def draftParameter : Draft.Reader ParameterDecl := fun depth draft => do
  let parts ← Draft.readRecord
    [field "name" true ParameterParts.name (fun p v => { p with name := some v }) Draft.readString,
      field "default" false ParameterParts.default (fun p v => { p with default := some v })
        (Draft.readOption draftType)]
    {} depth draft
  match parts.name with
  | some name => return ⟨name, parts.default.getD none⟩
  | none => .error .mismatch

/-- The parts of a definition as they are read. -/
structure DefinitionParts where
  name : Option String := none
  parameters : Option (List ParameterDecl) := none
  bases : Option (List TypeExpr) := none
  body : Option TypeExpr := none

/-- A definition. -/
def draftDefinition : Draft.Reader DefinitionDecl := fun depth draft => do
  let parts ← Draft.readRecord
    [field "name" true DefinitionParts.name (fun p v => { p with name := some v })
        Draft.readString,
      field "typeParameters" false DefinitionParts.parameters
        (fun p v => { p with parameters := some v }) (Draft.readList draftParameter),
      field "bases" false DefinitionParts.bases (fun p v => { p with bases := some v })
        (Draft.readList draftType),
      field "body" true DefinitionParts.body (fun p v => { p with body := some v }) draftType]
    {} depth draft
  match parts.name, parts.body with
  | some name, some body =>
    return ⟨name, parts.parameters.getD [], parts.bases.getD [], body⟩
  | _, _ => .error .mismatch

/-- The parts of a document as they are read. -/
structure DocumentParts where
  definitions : Option (List DefinitionDecl) := none
  root : Option TypeExpr := none

/-- A document. -/
def draftDocument : Draft.Reader Document := fun depth draft => do
  let parts ← Draft.readRecord
    [field "definitions" false DocumentParts.definitions
        (fun p v => { p with definitions := some v }) (Draft.readList draftDefinition),
      field "root" true DocumentParts.root (fun p v => { p with root := some v }) draftType]
    {} depth draft
  match parts.root with
  | some root => return ⟨parts.definitions.getD [], root⟩
  | none => .error .mismatch

/-- The document that a text describes. -/
def ofText (text : String) : Except DocumentError Document :=
  match Json.readText draftDocument text with
  | .ok document => .ok document
  | .error fault => .error (.unreadable fault)

end Document

end ShapeCheck
