import ShapeCheck.Predicate.Expr

set_option autoImplicit false

/-! # Predicates

A `Predicate` is a named function of one value. Its body is a list of statements: results, tests,
and loops over the positions or the keys of a value. A body that ends without a result rejects.

Main fact: `Predicate.isTrivial_iff` says which predicates can be written out at their calls.
-/

namespace ShapeCheck

/-! ## Statements -/

/-- A statement of a predicate. -/
inductive Stmt
  /-- Ends the predicate with the truth of a value. -/
  | result (value : Expr)
  /-- Runs the body if the condition holds. -/
  | ifThen (condition : Expr) (body : List Stmt)
  /-- Runs the body for every position of an array. -/
  | forIndex (binder : String) (whole : Expr) (body : List Stmt)
  /-- Runs the body for every key of an object. -/
  | forKeys (binder : String) (whole : Expr) (body : List Stmt)
  deriving Repr, Inhabited

namespace Stmt

/-- Rejects the value unless the condition holds. -/
def rejectUnless (condition : Expr) : Stmt := .ifThen (.not condition) [.result (.bool false)]

mutual

/-- The expressions of a statement, in order. -/
def exprs : Stmt → List Expr
  | .result e => [e]
  | .ifThen e body => e :: exprsOfAll body
  | .forIndex _ e body => e :: exprsOfAll body
  | .forKeys _ e body => e :: exprsOfAll body

/-- The expressions of several statements. -/
def exprsOfAll : List Stmt → List Expr
  | [] => []
  | stmt :: rest => stmt.exprs ++ exprsOfAll rest

end

mutual

/-- Changes every expression of a statement. -/
def mapExprs (change : Expr → Expr) : Stmt → Stmt
  | .result e => .result (change e)
  | .ifThen e body => .ifThen (change e) (mapAllExprs change body)
  | .forIndex x e body => .forIndex x (change e) (mapAllExprs change body)
  | .forKeys x e body => .forKeys x (change e) (mapAllExprs change body)

/-- Changes every expression of several statements. -/
def mapAllExprs (change : Expr → Expr) : List Stmt → List Stmt
  | [] => []
  | stmt :: rest => mapExprs change stmt :: mapAllExprs change rest

end

end Stmt

/-! ## Predicates -/

/-- A named predicate. -/
structure Predicate where
  /-- Its canonical name. -/
  name : String
  /-- The variable that holds the value to check. -/
  parameter : String
  body : List Stmt
  /-- What it asks, if it is a leaf. -/
  reason : Option Reason
  deriving Repr, Inhabited

namespace Predicate

/-- The expressions of the body. -/
def exprs (p : Predicate) : List Expr := Stmt.exprsOfAll p.body

/-- The expression that the body consists of, if it is a single result. -/
def singleResult? (p : Predicate) : Option Expr :=
  match p.body with
  | [.result e] => some e
  | _ => none

/-- The body is one expression over the parameter alone, without calls. -/
def isTrivial (p : Predicate) : Bool :=
  match p.singleResult? with
  | some e => !e.hasCall && e.onlyReferences p.parameter
  | none => false

/-- The body is the constant that accepts every value. -/
def isAlwaysTrue (p : Predicate) : Bool :=
  match p.singleResult? with
  | some e => e.isTrue
  | none => false

/-- All calls in the body, in order. -/
def calls (p : Predicate) : List String := p.exprs.flatMap Expr.calls

/-- The predicates that the body calls, in the order of their first calls. -/
def callees (p : Predicate) : List String := p.calls.eraseDups

theorem isTrivial_iff (p : Predicate) :
    p.isTrivial = true ↔
      ∃ e, p.body = [.result e] ∧ e.calls = [] ∧ ∀ x ∈ e.varNames, x = p.parameter := by
  unfold isTrivial singleResult?
  split
  · rename_i e h
    split at h
    · rename_i e' body
      cases h
      simp [body, Expr.onlyReferences_iff, Expr.hasCall_eq_false_iff]
    · cases h
  · rename_i h
    constructor
    · intro h'
      cases h'
    · rintro ⟨e, body, _⟩
      simp [body] at h

end Predicate

end ShapeCheck
