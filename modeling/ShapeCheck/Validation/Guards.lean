import ShapeCheck.Validation.Diagnosis

set_option autoImplicit false

/-! # Guards of a function

`Guards` hold a validator for some of the arguments of a function. An argument that is not passed
counts as undefined. The arguments are checked from left to right, and the first that fails is
reported.

The guards are kept in the order of their positions. A position is looked for by halving, so where it
belongs is found only while they are in order.
-/

namespace ShapeCheck

/-- Validators by the positions of arguments, ascending, one for a position at most. -/
structure Guards where
  entries : List (Nat × Validator)
  deriving Repr, Inhabited

/-- The first argument that was rejected. -/
structure ArgumentFailure where
  position : Nat
  failure : Failure
  deriving DecidableEq, Repr, Inhabited

/-- The failure of an argument in words. -/
def ArgumentFailure.message (f : ArgumentFailure) : String :=
  "argument " ++ toString f.position ++ ": " ++ f.failure.message

/-- Where a position belongs among the entries of guards. -/
inductive GuardSlot
  /-- There is an entry for it. -/
  | taken (index : Nat)
  /-- There is none, and a new one would have this index. -/
  | free (index : Nat)
  deriving DecidableEq, Repr, Inhabited

namespace Guards

/-- No argument is guarded. -/
def empty : Guards := ⟨[]⟩

/-- Looks for a position among `count` entries from `low` on: those in front of them are for lower
positions, and those behind them for higher ones. -/
def searchFrom (entries : List (Nat × Validator)) (position low count : Nat) : GuardSlot :=
  if count = 0 then .free low
  else
    match entries[low + count / 2]? with
    | some (p, _) =>
      if p = position then .taken (low + count / 2)
      else if p < position then
        searchFrom entries position (low + count / 2 + 1) (count - count / 2 - 1)
      else searchFrom entries position low (count / 2)
    | none => .free low
termination_by count

/-- Looks for a position among all entries. -/
def search (guards : Guards) (position : Nat) : GuardSlot :=
  searchFrom guards.entries position 0 guards.entries.length

/-- Guards an argument. An earlier guard for the same argument is replaced. -/
def set (guards : Guards) (position : Nat) (v : Validator) : Guards :=
  match guards.search position with
  | .taken i => ⟨guards.entries.modify i fun entry => (entry.1, v)⟩
  | .free i => ⟨guards.entries.insertIdx i (position, v)⟩

/-- Guards arguments, one after the other. -/
def setAll (guards : Guards) (calls : List (Nat × Validator)) : Guards :=
  calls.foldl (fun guards call => guards.set call.1 call.2) guards

/-- The number of guarded arguments. -/
def size (guards : Guards) : Nat := guards.entries.length

/-- The validator of an argument. -/
def find? (guards : Guards) (position : Nat) : Option Validator := guards.entries.lookup position

/-- The argument at a position. Those that are not passed are undefined. -/
def argument (arguments : List Value) (position : Nat) : Value :=
  arguments[position]?.getD .undefined

/-- Checks the guarded arguments from left to right. -/
def check (guards : Guards) (arguments : List Value) : Except ArgumentFailure Unit :=
  guards.entries.forM fun (position, v) =>
    match v.check (argument arguments position) with
    | .ok () => .ok ()
    | .error failure => .error ⟨position, failure⟩

/-- The function that runs only on arguments that pass. -/
def wrap {α : Type} (guards : Guards) (f : List Value → α) (arguments : List Value) :
    Except ArgumentFailure α := do
  guards.check arguments
  return f arguments

end Guards

end ShapeCheck
