import ShapeCheck.Validation.Failure
import ShapeCheck.Validation.Validator
import ShapeCheck.Value.Access

set_option autoImplicit false

/-! # Evaluation

A validator is evaluated on a value by running its predicates. Every call of a predicate takes one
level off a limit, so evaluation ends on every value: with a verdict, at the limit, or at a call of
a predicate that is not there.

What happens on the way is told to an observer as a series of events. The verdict does not depend on
who observes: the plain check ignores all events, and a report of the failure gathers them.

The recursion is on expressions and statements, and on the calls that may still be nested.
-/

namespace ShapeCheck

/-! ## Events -/

/-- What an observer is told. -/
inductive Event
  /-- A predicate is applied to a part, one step away from the current one if a segment is given. -/
  | enter (segment : Option Segment)
  /-- The predicate entered last has ended. -/
  | exit (passed : Bool) (name : String)
  /-- A leaf predicate has rejected the current part. -/
  | reason (reason : Reason)
  /-- The current part has a key that is not allowed. -/
  | superfluousKey (key : String)
  /-- Calls are nested too deeply. -/
  | depthExceeded
  deriving DecidableEq, Repr, Inhabited

/-- An observer with state `σ`. -/
abbrev Observer (σ : Type) := σ → Event → σ

/-- The observer that ignores everything. -/
def Observer.silent : Observer Unit := fun _ _ => ()

/-- The observer that writes all events down. -/
def Observer.log : Observer (List Event) := fun events event => events ++ [event]

/-- Why evaluation ended without a verdict. -/
inductive Halt
  | depthExceeded
  | unknownPredicate (name : String)
  deriving DecidableEq, Repr, Inhabited

/-- The greatest depth to which calls of predicates may be nested. -/
def maxCallDepth : Nat := 512

/-- The halt in words. -/
def Halt.message : Halt → String
  | depthExceeded => s!"maximum validation depth exceeded (limit {maxCallDepth})"
  | unknownPredicate name => "validator has no function `" ++ name ++ "`"

/-- An evaluation that tells an observer with state `σ` what happens. -/
abbrev Run (σ α : Type) := ExceptT Halt (StateM σ) α

/-- Tells the observer about an event. -/
def emit {σ : Type} (observe : Observer σ) (event : Event) : Run σ Unit :=
  modify fun state => observe state event

/-! ## Variables -/

/-- What an expression is evaluated in. -/
structure Frame where
  /-- The parameter of the predicate that runs. -/
  parameter : String
  /-- The argument of the inlined call around the expression, if there is one. -/
  subject : Option Expr
  /-- The variables, the last bound first. -/
  bindings : List (String × Located)

namespace Frame

/-- The frame of a predicate at its start. -/
def start (p : Predicate) (argument : Located) : Frame :=
  ⟨p.parameter, none, [(p.parameter, argument)]⟩

/-- Binds a variable. -/
def bind (frame : Frame) (name : String) (value : Located) : Frame :=
  { frame with bindings := (name, value) :: frame.bindings }

/-- Makes an expression the one that is being checked. -/
def checking (frame : Frame) (subject : Expr) : Frame := { frame with subject := some subject }

/-- The value of a variable; one that is not bound is undefined. -/
def value (frame : Frame) (name : String) : Located :=
  (frame.bindings.lookup name).getD (.computed .undefined)

/-- The expression stands for the value that is being checked. -/
def isSubject (frame : Frame) (e : Expr) : Bool :=
  match frame.subject with
  | some subject => subject.sameAs e
  | none => e.varName? == some frame.parameter

/-- The segment that the key of an access stands for, if it is known without evaluation. -/
def keySegment? (frame : Frame) : Expr → Option Segment
  | .number x => some (.ofNumber x)
  | .string key => some (.key key)
  | .var name =>
    match (frame.value name).value with
    | .number x => some (.ofNumber x)
    | .string key => some (.key key)
    | _ => none
  | _ => none

/-- The step from the value that is being checked to an argument that is a part of it. -/
def segment? (frame : Frame) : Expr → Option Segment
  | .member whole key => if frame.isSubject whole then some (.key key) else none
  | .index whole key => if frame.isSubject whole then frame.keySegment? key else none
  | _ => none

end Frame

/-! ## Expressions -/

/-- Two numbers are in an order; other values are not. -/
def Comparison.holds (order : Comparison) (a b : Value) : Bool :=
  match a, b with
  | .number x, .number y =>
    match order with
    | .lt => x.lt y
    | .le => x.le y
    | .gt => y.lt x
    | .ge => y.le x
  | _, _ => false

/-- The value has the key that another value stands for. -/
def Value.hasKeyOf (whole key : Value) : Bool :=
  match key with
  | .string name => whole.hasKey name
  | .number x => whole.hasKey x.text
  | _ => false

/-- The member under the key that another value stands for. -/
def Located.getKeyOf (whole : Located) (key : Value) : Located :=
  match key with
  | .number x => whole.getIndex x
  | .string name => whole.get name
  | _ => .computed .undefined

/-- The key that an observer is told about. -/
def Value.keyText : Value → String
  | .string s => s
  | v => v.display

section
variable {σ : Type} (observe : Observer σ) (call : String → Located → Run σ Bool)

mutual

/-- The value of an expression, where `call` runs other predicates. -/
def Expr.eval (frame : Frame) : Expr → Run σ Located
  | .var name => return frame.value name
  | .undefined => return .computed .undefined
  | .null => return .computed .null
  | .bool b => return .ofBool b
  | .number x => return .computed (.number x)
  | .string s => return .computed (.string s)
  | .typeOf e => do
    let v ← e.eval frame
    return .computed (.string v.value.typeOf)
  | .strictEq a b => do
    let a ← a.eval frame
    let b ← b.eval frame
    return .ofBool (a.strictEquals b)
  | .strictNe a b => do
    let a ← a.eval frame
    let b ← b.eval frame
    return .ofBool (!a.strictEquals b)
  | .not e => do
    let v ← e.eval frame
    return .ofBool (!v.value.isTruthy)
  | .and es => return .ofBool (← Expr.evalAnd frame es)
  | .or es => return .ofBool (← Expr.evalOr frame es)
  | .compare order a b => do
    let a ← a.eval frame
    let b ← b.eval frame
    return .ofBool (order.holds a.value b.value)
  | .member e key => do
    let v ← e.eval frame
    return v.get key
  | .index e key => do
    let v ← e.eval frame
    let key ← key.eval frame
    return v.getKeyOf key.value
  | .hasKey key e => do
    let key ← key.eval frame
    let v ← e.eval frame
    return .ofBool (v.value.hasKeyOf key.value)
  | .length e => do
    let v ← e.eval frame
    return .computed (v.value.length?.elim .undefined fun n => .number (Double.ofNat n))
  | .constructorName e => do
    let v ← e.eval frame
    return .computed (v.value.constructorName?.elim .undefined .string)
  | .isArray e => do
    let v ← e.eval frame
    return .ofBool v.value.isArray
  | .isBuffer e => do
    let v ← e.eval frame
    return .ofBool v.value.isBuffer
  | .isView e => do
    let v ← e.eval frame
    return .ofBool v.value.isView
  | .oneOf e options => do
    let v ← e.eval frame
    let found :=
      match v.value with
      | .string s => options.contains s
      | _ => false
    -- only the loops over keys ask whether a text is one of several
    if !found then emit observe (.superfluousKey v.value.keyText)
    return .ofBool found
  | .call f e => do
    let v ← e.eval frame
    emit observe (.enter (frame.segment? e))
    let passed ← call f v
    emit observe (.exit passed f)
    return .ofBool passed
  | .inlined f reason e body => do
    emit observe (.enter (frame.segment? e))
    -- the argument stands in the body now, so it is what steps start from
    let v ← body.eval (frame.checking e)
    let passed := v.value.isTruthy
    if !passed then
      match reason with
      | some reason => emit observe (.reason reason)
      | none => pure ()
    emit observe (.exit passed f)
    return .ofBool passed

/-- All operands are true; those behind the first that is not are left alone. -/
def Expr.evalAnd (frame : Frame) : List Expr → Run σ Bool
  | [] => return true
  | e :: rest => do
    let v ← e.eval frame
    if v.value.isTruthy then Expr.evalAnd frame rest else return false

/-- Some operand is true; those behind the first that is are left alone. -/
def Expr.evalOr (frame : Frame) : List Expr → Run σ Bool
  | [] => return false
  | e :: rest => do
    let v ← e.eval frame
    if v.value.isTruthy then return true else Expr.evalOr frame rest

end

/-! ## Statements -/

/-- The first result that a body gives for one of some items, one after the other. -/
def firstResult {α : Type} (run : α → Run σ (Option Bool)) : List α → Run σ (Option Bool)
  | [] => return none
  | a :: rest => do
    match ← run a with
    | some result => return some result
    | none => firstResult run rest

mutual

/-- Runs a statement; it may give the result of the predicate. -/
def Stmt.exec (frame : Frame) : Stmt → Run σ (Option Bool)
  | .result e => do
    let v ← e.eval observe call frame
    return some v.value.isTruthy
  | .ifThen e body => do
    let v ← e.eval observe call frame
    if v.value.isTruthy then Stmt.execAll frame body else return none
  | .forIndex x e body => do
    let v ← e.eval observe call frame
    firstResult
      (fun i => Stmt.execAll (frame.bind x (.computed (.number (Double.ofNat i)))) body)
      (List.range (v.value.length?.getD 0))
  | .forKeys x e body => do
    let v ← e.eval observe call frame
    firstResult (fun key => Stmt.execAll (frame.bind x (.computed (.string key))) body)
      v.value.keys

/-- Runs statements up to the first that gives the result. -/
def Stmt.execAll (frame : Frame) : List Stmt → Run σ (Option Bool)
  | [] => return none
  | stmt :: rest => do
    match ← Stmt.exec frame stmt with
    | some passed => return some passed
    | none => Stmt.execAll frame rest

end

/-- Runs a predicate on an argument. A body without a result rejects. -/
def Predicate.run (p : Predicate) (argument : Located) : Run σ Bool := do
  let result ← Stmt.execAll observe call (Frame.start p argument) p.body
  let passed := result.getD false
  if !passed then
    match p.reason with
    | some reason => emit observe (.reason reason)
    | none => pure ()
  return passed

end

/-! ## Validators -/

namespace Validator

/-- Calls a predicate by name when this many more calls may be nested. -/
def invoke {σ : Type} (v : Validator) (observe : Observer σ) :
    Nat → String → Located → Run σ Bool
  | 0, _, _ => do
    emit observe .depthExceeded
    throw .depthExceeded
  | depth + 1, name, argument =>
    match v.predicate? name with
    | none => throw (.unknownPredicate name)
    | some p => p.run observe (v.invoke observe depth) argument

/-- Evaluates the root on a value when this many calls may be nested. -/
def evaluateWithin {σ : Type} (v : Validator) (observe : Observer σ) (depth : Nat)
    (value : Value) : Run σ Bool := do
  emit observe (.enter none)
  let passed ← v.invoke observe depth v.root (.whole value)
  emit observe (.exit passed v.root)
  return passed

/-- Evaluates the root on a value, and gives the state of the observer at the end as well. -/
def evaluate {σ : Type} (v : Validator) (observe : Observer σ) (state : σ) (value : Value) :
    Except Halt Bool × σ :=
  (v.evaluateWithin observe maxCallDepth value).run.run state

/-- The verdict on a value, if there is one. -/
def verdict (v : Validator) (value : Value) : Except Halt Bool :=
  (v.evaluate Observer.silent () value).1

/-- The value passes. One that is nested too deeply does not. -/
def accepts (v : Validator) (value : Value) : Bool :=
  match v.verdict value with
  | .ok passed => passed
  | .error _ => false

end Validator

end ShapeCheck
