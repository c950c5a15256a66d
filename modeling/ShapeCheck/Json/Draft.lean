import ShapeCheck.Json.Value

set_option autoImplicit false

/-! # JSON texts, read as far as they go

A reader that wants values of a certain form may find one fault where the text stops being JSON and
another where it has the wrong form, and has to report the one that stands first. A `Draft` is the
tree of a text up to the place where it stops being JSON, with a `broken` leaf there; readers walk
it from left to right and report the first fault they meet.

The tree is built by a machine that takes one token at a time and keeps the open containers on a
stack, so it needs no bound on the depth. Readers bound it themselves: `Draft.maxDepth`.

Main fact: `readText_eq_of_tokens_eq` (only the tokens of a text matter to a reader).
-/

namespace ShapeCheck

namespace Json

/-- The tree of a text up to its first break. A container whose closing bracket is missing holds the
break that stands in its place. -/
inductive Draft
  | null
  | bool (value : Bool)
  | number (value : Numeral)
  | string (contents : Option String)
  | array (items : List Draft) (unclosed : Option Break)
  | object (entries : List (Option String × Draft)) (unclosed : Option Break)
  | broken (why : Break)
  deriving Repr, Inhabited

namespace Draft

/-! ## The machine -/

/-- A container that is still open: what stands in it so far, last first. -/
inductive Open
  | array (items : List Draft)
  | object (entries : List (Option String × Draft)) (key : Option String)

/-- What the machine waits for. The stack holds the open containers, innermost first. -/
inductive State
  /-- A value. -/
  | value (stack : List Open)
  /-- The first item of an array, or its end. -/
  | firstItem (stack : List Open)
  /-- A comma or the end of an array. -/
  | afterItem (items : List Draft) (stack : List Open)
  /-- A key of an object, or its end if no key was read yet. -/
  | key (entries : List (Option String × Draft)) (stack : List Open)
  /-- The colon after a key. -/
  | afterKey (entries : List (Option String × Draft)) (key : Option String) (stack : List Open)
  /-- A comma or the end of an object. -/
  | afterEntry (entries : List (Option String × Draft)) (stack : List Open)
  /-- The end of the text. -/
  | complete (draft : Draft)
  /-- Nothing: there is text behind the value, or the text has broken off. -/
  | finished (draft : Draft) (trailing : Bool)

/-- A value has been read: it goes into the innermost open container. -/
def settle (draft : Draft) : List Open → State
  | [] => .complete draft
  | .array items :: stack => .afterItem (draft :: items) stack
  | .object entries key :: stack => .afterEntry ((key, draft) :: entries) stack

/-- Closes all open containers around a part that has broken off. -/
def enclose (draft : Draft) : List Open → Draft
  | [] => draft
  | .array items :: stack => enclose (.array (draft :: items).reverse none) stack
  | .object entries key :: stack => enclose (.object ((key, draft) :: entries).reverse none) stack

/-- What stands in the text when it breaks off. -/
def breakAt (why : Break) : State → State
  | .value stack => .finished (enclose (.broken why) stack) false
  | .firstItem stack => .finished (enclose (.array [] (some why)) stack) false
  | .afterItem items stack => .finished (enclose (.array items.reverse (some why)) stack) false
  | .key entries stack => .finished (enclose (.object entries.reverse (some why)) stack) false
  | .afterKey entries key stack =>
    .finished (enclose (.object ((key, .broken why) :: entries).reverse none) stack) false
  | .afterEntry entries stack =>
    .finished (enclose (.object entries.reverse (some why)) stack) false
  | .complete draft => .finished draft true
  | .finished draft trailing => .finished draft trailing

/-- Takes a token that starts or is a value. -/
def takeValue (stack : List Open) : Token → State
  | .null => settle .null stack
  | .bool b => settle (.bool b) stack
  | .number n => settle (.number n) stack
  | .string s => settle (.string s) stack
  | .openArray => .firstItem stack
  | .openObject => .key [] stack
  | .brokenString why => breakAt why (.value stack)
  | .broken why => breakAt why (.value stack)
  | _ => breakAt (.both .malformed) (.value stack)

/-- Takes the next token. -/
def step (state : State) (token : Token) : State :=
  match state, token with
  | .value stack, token => takeValue stack token
  | .firstItem stack, .closeArray => settle (.array [] none) stack
  | .firstItem stack, token => takeValue (.array [] :: stack) token
  | .afterItem items stack, .comma => .value (.array items :: stack)
  | .afterItem items stack, .closeArray => settle (.array items.reverse none) stack
  | .key entries stack, .string key => .afterKey entries key stack
  -- behind a comma the object cannot end, for then it has entries
  | .key [] stack, .closeObject => settle (.object [] none) stack
  | .key entries stack, .brokenString why => breakAt why (.key entries stack)
  | .afterKey entries key stack, .colon => .value (.object entries key :: stack)
  | .afterEntry entries stack, .comma => .key entries stack
  | .afterEntry entries stack, .closeObject => settle (.object entries.reverse none) stack
  | state, _ => breakAt (.both .malformed) state

/-- The draft of a list of tokens, and whether more text follows its value. -/
def build (tokens : List Token) : Draft × Bool :=
  match tokens.foldl step (.value []) with
  | .complete draft => (draft, false)
  | .finished draft trailing => (draft, trailing)
  -- the text has ended where the machine still waits
  | state =>
    match breakAt (.both .ended) state with
    | .finished draft trailing => (draft, trailing)
    | _ => (.broken (.both .ended), false)

/-! ## Readers

A reader gets the number of containers that may still be opened. -/

/-- A reader of a part of a text. -/
abbrev Reader (α : Type) := Nat → Draft → Except Fault α

/-- How deep containers may be nested where their contents matter. -/
def maxDepth : Nat := 127

/-- The contents of a string, unless half of a surrogate pair stood alone in it. -/
def contents (text : Option String) : Except Fault String :=
  match text with
  | some s => .ok s
  | none => .error .malformed

/-- The numeral, unless its value is beyond the largest double. -/
def finite (n : Numeral) : Except Fault Numeral :=
  if n.value.toDouble.isFinite then .ok n else .error .malformed

/-- The fault that stands in place of a closing bracket. -/
def closed (unclosed : Option Break) : Except Fault Unit :=
  match unclosed with
  | none => .ok ()
  | some why => .error why.strict

mutual

/-- The whole part as a JSON value. -/
def toJson (depth : Nat) : Draft → Except Fault Json
  | .null => .ok .null
  | .bool b => .ok (.bool b)
  | .number n => do return .number (← finite n)
  | .string s => do return .string (← contents s)
  | .array items unclosed =>
    match depth with
    | 0 => .error .malformed
    | depth + 1 => do
      let items ← itemsToJson depth items
      closed unclosed
      return .array items
  | .object entries unclosed =>
    match depth with
    | 0 => .error .malformed
    | depth + 1 => do
      let entries ← entriesToJson depth entries
      closed unclosed
      return .object entries
  | .broken why => .error why.strict

/-- The items of an array as JSON values. -/
def itemsToJson (depth : Nat) : List Draft → Except Fault (List Json)
  | [] => .ok []
  | item :: rest => do
    let item ← item.toJson depth
    return item :: (← itemsToJson depth rest)

/-- The entries of an object as JSON values. -/
def entriesToJson (depth : Nat) : List (Option String × Draft) → Except Fault (List (String × Json))
  | [] => .ok []
  | (key, value) :: rest => do
    let key ← contents key
    let value ← value.toJson depth
    return (key, value) :: (← entriesToJson depth rest)

end

mutual

/-- Gets past a part whose contents do not matter, at any depth. -/
def skip : Draft → Except Fault Unit
  | .array items unclosed => do
    skipItems items
    match unclosed with
    | none => .ok ()
    | some why => .error why.lenient
  | .object entries unclosed => do
    skipEntries entries
    match unclosed with
    | none => .ok ()
    | some why => .error why.lenient
  | .broken why => .error why.lenient
  | _ => .ok ()

/-- Gets past the items of an array. -/
def skipItems : List Draft → Except Fault Unit
  | [] => .ok ()
  | item :: rest => do
    item.skip
    skipItems rest

/-- Gets past the entries of an object. -/
def skipEntries : List (Option String × Draft) → Except Fault Unit
  | [] => .ok ()
  | (_, value) :: rest => do
    value.skip
    skipEntries rest

end

/-- The fault of a part that has a form other than the expected one. A number or string is read
first, so its own fault comes before; a container is not looked into. -/
def unexpected {α : Type} : Draft → Except Fault α
  | .number n => do
    let _ ← finite n
    .error .mismatch
  | .string s => do
    let _ ← contents s
    .error .mismatch
  | .broken why => .error why.strict
  | _ => .error .mismatch

/-- Reads a truth value. -/
def readBool : Reader Bool
  | _, .bool b => .ok b
  | _, draft => draft.unexpected

/-- Reads a text. -/
def readString : Reader String
  | _, .string s => contents s
  | _, draft => draft.unexpected

/-- Reads null or what the given reader reads. -/
def readOption {α : Type} (read : Reader α) : Reader (Option α)
  | _, .null => .ok none
  | depth, draft => do return some (← read depth draft)

/-- Reads a list of what the given reader reads. -/
def readList {α : Type} (read : Reader α) : Reader (List α)
  | 0, .array _ _ => .error .malformed
  | depth + 1, .array items unclosed => do
    let items ← items.mapM (read depth)
    closed unclosed
    return items
  | _, draft => draft.unexpected

/-! ## Records

A record is written as an object with named fields or as an array of its fields in order. What has
been read of it is gathered in a value of type `σ`. -/

/-- A field of a record. -/
structure Field (σ : Type) where
  /-- Its key in an object. -/
  name : String
  /-- A record without it is not of the expected form. -/
  required : Bool
  /-- It has been read. -/
  isSet : σ → Bool
  /-- Reads it and adds it to what has been read. -/
  read : Nat → Draft → σ → Except Fault σ

/-- Reads the entries of an object: known keys at most once, unknown ones are skipped. -/
def readEntries {σ : Type} (fields : List (Field σ)) (depth : Nat) (gathered : σ) :
    List (Option String × Draft) → Except Fault σ
  | [] => .ok gathered
  | (key, value) :: rest => do
    let key ← contents key
    match fields.find? (·.name == key) with
    | some field =>
      -- a key that stands twice is found before its second value is read
      if field.isSet gathered then .error .mismatch
      else
        let gathered ← field.read depth value gathered
        readEntries fields depth gathered rest
    | none =>
      value.skip
      readEntries fields depth gathered rest

/-- Reads the items of an array as the fields in order. Fields may be missing at the end; items may
not be left over. -/
def readPositions {σ : Type} (depth : Nat) (unclosed : Option Break) (gathered : σ) :
    List (Field σ) → List Draft → Except Fault σ
  | [], [] => do
    closed unclosed
    return gathered
  -- the closing bracket was expected here
  | [], _ :: _ => .error .malformed
  | field :: fields, [] => do
    closed unclosed
    if field.required then .error .mismatch
    else readPositions depth unclosed gathered fields []
  | field :: fields, item :: items => do
    let gathered ← field.read depth item gathered
    readPositions depth unclosed gathered fields items

/-- Reads a record. -/
def readRecord {σ : Type} (fields : List (Field σ)) (empty : σ) : Reader σ
  | 0, .array _ _ => .error .malformed
  | 0, .object _ _ => .error .malformed
  | depth + 1, .array items unclosed => readPositions depth unclosed empty fields items
  | depth + 1, .object entries unclosed => do
    let gathered ← readEntries fields depth empty entries
    closed unclosed
    if fields.all fun field => !field.required || field.isSet gathered then return gathered
    else .error .mismatch
  | _, draft => draft.unexpected

end Draft

/-! ## Whole texts -/

/-- Reads a whole list of tokens. Text behind the value is a fault once the value has been read. -/
def readTokens {α : Type} (read : Draft.Reader α) (tokens : List Token) : Except Fault α := do
  let (draft, trailing) := Draft.build tokens
  -- what stands behind the value is looked at last
  let value ← read Draft.maxDepth draft
  if trailing then .error .malformed else return value

/-- Reads a whole text. -/
def readText {α : Type} (read : Draft.Reader α) (text : String) : Except Fault α :=
  readTokens read (tokens text)

/-- The value that a text spells. -/
def parse (text : String) : Except Fault Json :=
  readText (fun depth draft => draft.toJson depth) text

theorem readText_eq_of_tokens_eq {α : Type} (read : Draft.Reader α) {s t : String}
    (h : tokens s = tokens t) : readText read s = readText read t := by
  simp [readText, h]

end Json

end ShapeCheck
