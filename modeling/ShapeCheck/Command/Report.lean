import ShapeCheck.Compile.Error
import ShapeCheck.Json.Value
import ShapeCheck.Settings.Options
import ShapeCheck.Validation.Failure

set_option autoImplicit false

/-! # Reports

What the program prints about its results: lines for a reader, coloured if the terminal can show
it, and JSON for other programs.

Main fact: `Report.paint_false` (without colour the text stays what it is).
-/

namespace ShapeCheck

/-! ## JSON -/

/-- A step of a path: a key or a position. -/
def Segment.toJson : Segment → Json
  | key name => .string name
  | index position => .ofNat position

/-- The kind of a reason. -/
def Reason.kind : Reason → String
  | string => "string"
  | number => "number"
  | boolean => "boolean"
  | bigint => "big-int"
  | null => "null"
  | undefined => "undefined"
  | stringLiteral _ => "string-literal"
  | numberLiteral _ => "number-literal"
  | booleanLiteral _ => "boolean-literal"
  | nonPrimitive => "non-primitive"

/-- The constant that a reason asks for. -/
def Reason.constant? : Reason → Option Json
  | stringLiteral value => some (.string value)
  | numberLiteral value => some (.ofDouble value)
  | booleanLiteral value => some (.bool value)
  | _ => none

/-- A reason as JSON. -/
def Reason.toJson (r : Reason) : Json :=
  .object (("kind", .string r.kind) :: r.constant?.toList.map fun value => ("value", value))

/-- A failure as JSON. -/
def Failure.toJson (f : Failure) : Json :=
  .object
    (("message", .string f.message) :: ("path", .array (f.path.map Segment.toJson)) ::
      f.reason.toList.map fun r => ("reason", r.toJson))

/-- Options as they stand in a configuration. -/
def CompileOptions.toJson (o : CompileOptions) : Json :=
  .object [("compilerOptions", .object (o.fields.map fun (name, value) => (name, .bool value)))]

namespace Report

/-! ## Colours -/

/-- How a text is set off on a terminal. -/
inductive Style
  | good
  | bad
  | name
  | faint
  deriving DecidableEq, Repr, Inhabited

/-- The codes that switch a style on: bold green, bold red, cyan, and dimmed. -/
def Style.codes : Style → String
  | good => "1;32"
  | bad => "1;31"
  | name => "36"
  | faint => "2"

/-- Sets a text off, if colours are wanted. -/
def paint (color : Bool) (style : Style) (text : String) : String :=
  if color then "\x1b[" ++ style.codes ++ "m" ++ text ++ "\x1b[0m" else text

theorem paint_false (style : Style) (text : String) : paint false style text = text := rfl

/-! ## Lines -/

/-- The value passes. -/
def passed (color : Bool) : String := paint color .good "ok"

/-- The value does not pass. -/
def rejected (color : Bool) (f : Failure) : String :=
  paint color .bad "error" ++ ": " ++ f.message

/-- The type cannot be compiled. -/
def uncompiled (color : Bool) (e : CompileError) : String :=
  paint color .bad "error" ++ " " ++ paint color .faint ("[" ++ e.code ++ "]") ++ ": " ++ e.message

/-- Names with their identifiers, one to a line, the identifiers below each other. -/
def table (color : Bool) (rows : List (String × String)) : String :=
  let width := (rows.map fun row => row.1.length).foldl max 0
  String.join <| rows.map fun (name, identifier) =>
    name ++ String.ofList (List.replicate (width - name.length) ' ') ++ "  " ++
      paint color .name identifier ++ "\n"

end Report

end ShapeCheck
