import ShapeCheck.Text.Blank

set_option autoImplicit false

/-! # Log formats

The form in which the program writes its log, chosen by a word.
-/

namespace ShapeCheck

/-- The form of a log. -/
inductive LogFormat
  /-- A line for every event. -/
  | text
  /-- Events indented below the work that they belong to. -/
  | tree
  /-- A JSON object for every event. -/
  | json
  deriving DecidableEq, Repr, Inhabited

/-- The form that a word stands for. Any other word stands for plain text. -/
def LogFormat.ofWord (word : String) : LogFormat :=
  match Text.normalizeWord word with
  | "tree" => .tree
  | "json" => .json
  | _ => .text

end ShapeCheck
