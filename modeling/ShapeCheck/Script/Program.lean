import ShapeCheck.Script.Expression
import ShapeCheck.Script.Identifier
import ShapeCheck.Validation.Validator

set_option autoImplicit false

/-! # Validators as scripts

A validator is written as one expression of the script language: a function that declares the
functions of all predicates and returns the check of the root. Declarations may come in any order,
so predicates that call each other need no care.

Main fact: `Validator.map_fst_identifiers` (every predicate is listed, in order).
-/

namespace ShapeCheck

namespace Script

/-! ## Lines -/

/-- A line of a script, this many levels to the right. -/
structure Line where
  level : Nat
  tokens : List Token
  deriving DecidableEq, Repr, Inhabited

namespace Line

/-- A line of fixed text. -/
def fixed (level : Nat) (text : String) : Line := ⟨level, [.code text]⟩

/-- The text of a line. -/
def text (indent : String) (identifier : String → String) (line : Line) : String :=
  String.join (List.replicate line.level indent) ++ Script.text identifier line.tokens

end Line

/-! ## Statements -/

/-- A statement that ends the function with a value. -/
def resultTokens (value : Expr) : List Token := .code "return " :: tokens value ++ [.code ";"]

/-- The head of a loop over the positions of an array. -/
def forIndexTokens (binder : String) (whole : Expr) : List Token :=
  .code ("for (let " ++ binder ++ " = 0; " ++ binder ++ " < ") ::
    enclose .member (strength whole) (tokens whole) ++
    [.code (".length; " ++ binder ++ "++) \x7b")]

/-- The head of a loop over the keys of an object. -/
def forKeysTokens (binder : String) (whole : Expr) : List Token :=
  .code ("for (const " ++ binder ++ " of Object.keys(") :: tokens whole ++ [.code ")) \x7b"]

/-- The end of a block. -/
def blockEnd (level : Nat) : Line := .fixed level "\x7d"

mutual

/-- The lines of a statement. A test that guards a single result takes one line. -/
def stmtLines (level : Nat) : Stmt → List Line
  | .result value => [⟨level, resultTokens value⟩]
  | .ifThen condition [.result value] =>
    [⟨level, .code "if (" :: tokens condition ++ .code ") " :: resultTokens value⟩]
  | .ifThen condition body =>
    ⟨level, .code "if (" :: tokens condition ++ [.code ") \x7b"]⟩ ::
      (bodyLines (level + 1) body ++ [blockEnd level])
  | .forIndex binder whole body =>
    ⟨level, forIndexTokens binder whole⟩ :: (bodyLines (level + 1) body ++ [blockEnd level])
  | .forKeys binder whole body =>
    ⟨level, forKeysTokens binder whole⟩ :: (bodyLines (level + 1) body ++ [blockEnd level])

/-- The lines of several statements. -/
def bodyLines (level : Nat) : List Stmt → List Line
  | [] => []
  | stmt :: rest => stmtLines level stmt ++ bodyLines level rest

end

/-! ## Predicates -/

/-- A character that would end a comment. -/
def endsLine (c : Char) : Bool :=
  c == '\n' || c == '\r' || c.toNat == 0x2028 || c.toNat == 0x2029

/-- A name as a comment: what would end the line becomes a blank. -/
def comment (name : String) : String :=
  "// " ++ String.ofList (name.toList.map fun c => if endsLine c then ' ' else c)

/-- The declaration of the function of a predicate. -/
def predicateLines (level : Nat) (p : Predicate) : List Line :=
  .fixed level (comment p.name) ::
    ⟨level, [.code "function ", .callee p.name, .code ("(" ++ p.parameter ++ ") \x7b")]⟩ ::
    (bodyLines (level + 1) p.body ++ [blockEnd level])

/-- Some part of the predicate checks for buffers. -/
def usesBuffer (p : Predicate) : Bool :=
  p.exprs.any fun e => e.somePart fun part => part matches .isBuffer _

/-- Stands for the check for buffers, also where the host has no buffers. -/
def bufferLine : String :=
  "var isBuffer = typeof Buffer === \"undefined\" ? " ++
    "function () \x7b return false; \x7d : Buffer.isBuffer;"

end Script

/-! ## Validators -/

namespace Validator

open Script

/-- The lines of a validator, and its root. -/
def lines (v : Validator) : List Line :=
  .fixed 0 "(function () \x7b" ::
    (if v.predicates.any usesBuffer then [.fixed 1 bufferLine] else []) ++
    v.predicates.flatMap (predicateLines 1) ++
    [.fixed 1 "return function (object) \x7b",
      ⟨2, [.code "return ", .callee v.root, .code "(object);"]⟩,
      .fixed 1 "\x7d;",
      .fixed 0 "\x7d)()"]

/-- The names that the script of a validator needs functions for, in the order in which they are
given identifiers: the predicates, the root, then whatever else is called. -/
def calledNames (v : Validator) : List String :=
  v.predicates.map Predicate.name ++ [v.root] ++
    v.lines.flatMap fun line => line.tokens.filterMap Token.callee?

/-- The identifiers in the script of a validator. -/
def scriptIdentifiers (v : Validator) : Identifiers := Identifiers.empty.assignAll v.calledNames

/-- The validator as a script, with a text for each level of indentation. -/
def scriptWith (v : Validator) (indent : String) : String :=
  let identifiers := v.scriptIdentifiers
  String.intercalate "\n" (v.lines.map (Line.text indent identifiers.of))

/-- The validator as a script, indented by four blanks. -/
def script (v : Validator) : String := v.scriptWith "    "

/-- The predicates of a validator with their identifiers in the script, in order. -/
def identifiers (v : Validator) : List (String × String) :=
  let ids := Identifiers.empty.assignAll (v.predicates.map Predicate.name)
  v.predicates.map fun p => (p.name, ids.of p.name)

theorem map_fst_identifiers (v : Validator) :
    v.identifiers.map Prod.fst = v.predicates.map Predicate.name := by
  simp [identifiers]

end Validator

end ShapeCheck
