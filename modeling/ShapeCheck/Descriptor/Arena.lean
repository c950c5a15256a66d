import ShapeCheck.Descriptor.Basic

set_option autoImplicit false

/-! # The arena of descriptors

An `Arena` owns descriptors, type parameters and definitions, and hands out their positions as
handles. A descriptor is stored once: interning one that is there already gives its handle back.
Every arena starts with the fourteen built-in descriptors at fixed handles.

Unions and intersections are stored flat and without repetitions, with at least two members, so that
nesting and repeating members changes nothing.

Main facts: `Arena.lookup?_intern` (a handle leads to what was interned) and
`Arena.intern_of_lookup?` (nothing is stored twice).
-/

namespace ShapeCheck

/-- A declared type parameter. -/
structure Parameter where
  name : String
  /-- Taken when no argument is given. -/
  default : Option TypeId
  deriving DecidableEq, Repr, Inhabited

/-- A named type. It is declared first and gets its body later, so that a body can mention it. -/
structure Definition where
  name : String
  parameters : List ParameterId
  body : Option TypeId
  /-- References to the definitions it extends, written with its own parameters. -/
  bases : List TypeId
  deriving DecidableEq, Repr, Inhabited

/-- The store of descriptors, type parameters and definitions. -/
structure Arena where
  descriptors : Array Descriptor
  parameters : Array Parameter
  definitions : Array Definition
  deriving DecidableEq, Repr

namespace TypeId

/-! ## Built-in descriptors -/

/-- The handle of a keyword. -/
def ofKeyword : Keyword → TypeId
  | .any => ⟨0⟩
  | .unknown => ⟨1⟩
  | .never => ⟨2⟩
  | .null => ⟨3⟩
  | .undefined => ⟨4⟩
  | .number => ⟨5⟩
  | .bigint => ⟨6⟩
  | .boolean => ⟨7⟩
  | .string => ⟨8⟩
  | .object => ⟨9⟩
  | .symbol => ⟨10⟩

/-- The handle of the buffer type. -/
def buffer : TypeId := ⟨11⟩

/-- The handle of a truth value. -/
def ofBool (value : Bool) : TypeId := if value then ⟨12⟩ else ⟨13⟩

/-- The number of built-in descriptors. -/
def builtinCount : Nat := 14

/-- The handle belongs to a built-in descriptor. -/
def isBuiltin (type : TypeId) : Bool := type.index < builtinCount

end TypeId

namespace Arena

/-- The arena that holds the built-in descriptors alone. -/
def initial : Arena where
  descriptors :=
    (Keyword.all.map Descriptor.keyword ++
      [Descriptor.buffer, Descriptor.booleanLiteral true, Descriptor.booleanLiteral false]).toArray
  parameters := #[]
  definitions := #[]

instance : Inhabited Arena := ⟨initial⟩

/-! ## Descriptors -/

/-- The descriptor behind a handle. -/
def lookup? (arena : Arena) (type : TypeId) : Option Descriptor := arena.descriptors[type.index]?

/-- The handle of a descriptor that is stored already. -/
def find? (arena : Arena) (descriptor : Descriptor) : Option TypeId :=
  (arena.descriptors.findIdx? (· == descriptor)).map TypeId.mk

/-- The handle of a descriptor, which is stored if it is not there yet. -/
def intern (arena : Arena) (descriptor : Descriptor) : TypeId × Arena :=
  match arena.find? descriptor with
  | some type => (type, arena)
  | none =>
    (⟨arena.descriptors.size⟩, { arena with descriptors := arena.descriptors.push descriptor })

theorem lookup?_intern (arena : Arena) (descriptor : Descriptor) :
    (arena.intern descriptor).2.lookup? (arena.intern descriptor).1 = some descriptor := by
  unfold intern
  split
  · rename_i type h
    simp only [find?, Option.map_eq_some_iff] at h
    obtain ⟨i, hi, rfl⟩ := h
    obtain ⟨inside, found, _⟩ := Array.findIdx?_eq_some_iff_getElem.1 hi
    have same : arena.descriptors[i] = descriptor := by simpa using found
    simp [lookup?, inside, same]
  · simp [lookup?]

theorem intern_of_lookup? (arena : Arena) (descriptor : Descriptor) (type : TypeId)
    (h : arena.lookup? type = some descriptor) : (arena.intern descriptor).2 = arena := by
  unfold intern
  split
  · rfl
  · rename_i absent
    simp only [find?, Option.map_eq_none_iff, Array.findIdx?_eq_none_iff] at absent
    have : descriptor ∈ arena.descriptors := by
      rw [lookup?, Array.getElem?_eq_some_iff] at h
      obtain ⟨inside, rfl⟩ := h
      exact Array.getElem_mem inside
    simpa using absent descriptor this

/-- How the type is checked; there is no check for an unknown handle. -/
def strategy (arena : Arena) (type : TypeId) : Strategy :=
  (arena.lookup? type).elim .unsupported Descriptor.strategy

/-! ## Unions and intersections -/

/-- The members of a union. -/
def unionMembers? : Descriptor → Option (List TypeId)
  | .union members => some members
  | _ => none

/-- The members of an intersection. -/
def intersectionMembers? : Descriptor → Option (List TypeId)
  | .intersection members => some members
  | _ => none

/-- Replaces members that are nested lists by their own members, from left to right, `depth` times
over. Children come before their parents in an arena, so as many rounds as there are descriptors
reach the leaves. -/
def leaves (arena : Arena) (nested : Descriptor → Option (List TypeId)) :
    Nat → List TypeId → List TypeId
  | 0, members => members
  | depth + 1, members =>
    members.flatMap fun member =>
      match (arena.lookup? member).bind nested with
      | some inner => leaves arena nested depth inner
      | none => [member]

/-- The leaves without repetitions, in the order of their first occurrence. -/
def flatten (arena : Arena) (nested : Descriptor → Option (List TypeId)) (members : List TypeId) :
    List TypeId :=
  (arena.leaves nested arena.descriptors.size members).eraseDups

/-- The union of some types: nested unions are flattened and repetitions dropped. No member at all
means `never`, a single one stands for itself. -/
def union (arena : Arena) (members : List TypeId) : TypeId × Arena :=
  match arena.flatten unionMembers? members with
  | [] => (.ofKeyword .never, arena)
  | [member] => (member, arena)
  | members => arena.intern (.union members)

/-- The intersection of some types: nested intersections are flattened and repetitions dropped. No
member at all means `unknown`, a single one stands for itself. -/
def intersection (arena : Arena) (members : List TypeId) : TypeId × Arena :=
  match arena.flatten intersectionMembers? members with
  | [] => (.ofKeyword .unknown, arena)
  | [member] => (member, arena)
  | members => arena.intern (.intersection members)

/-! ## Type parameters -/

/-- The parameter behind a handle. -/
def parameter? (arena : Arena) (id : ParameterId) : Option Parameter := arena.parameters[id.index]?

/-- Declares a new type parameter; the result is its handle and the descriptor that stands for it.
-/
def addParameter (arena : Arena) (name : String) : ParameterId × TypeId × Arena :=
  let id : ParameterId := ⟨arena.parameters.size⟩
  let arena := { arena with parameters := arena.parameters.push ⟨name, none⟩ }
  let (type, arena) := arena.intern (.parameter id)
  (id, type, arena)

/-- Gives a parameter its default. -/
def setDefault (arena : Arena) (id : ParameterId) (type : TypeId) : Arena :=
  { arena with
    parameters := arena.parameters.modify id.index fun info => { info with default := some type } }

/-- The default of a parameter. -/
def default? (arena : Arena) (id : ParameterId) : Option TypeId :=
  (arena.parameter? id).bind Parameter.default

/-! ## Definitions -/

/-- The definition behind a handle. -/
def definition? (arena : Arena) (id : DefinitionId) : Option Definition :=
  arena.definitions[id.index]?

/-- Declares a definition without a body. -/
def declare (arena : Arena) (name : String) (parameters : List ParameterId) :
    DefinitionId × Arena :=
  (⟨arena.definitions.size⟩,
    { arena with definitions := arena.definitions.push ⟨name, parameters, none, []⟩ })

/-- Gives a definition its body. -/
def define (arena : Arena) (id : DefinitionId) (body : TypeId) : Arena :=
  { arena with
    definitions := arena.definitions.modify id.index fun d => { d with body := some body } }

/-- Adds a definition that this one extends. -/
def addBase (arena : Arena) (id : DefinitionId) (base : TypeId) : Arena :=
  { arena with
    definitions :=
      arena.definitions.modify id.index fun d => { d with bases := d.bases ++ [base] } }

/-- Declares a definition without parameters, gives it its body, and refers to it. -/
def declareAlias (arena : Arena) (name : String) (body : TypeId) : TypeId × Arena :=
  let (id, arena) := arena.declare name []
  (arena.define id body).intern (.reference id [])

/-- More than one definition carries the name. -/
def isNameShared (arena : Arena) (name : String) : Bool :=
  1 < (arena.definitions.toList.filter fun d => d.name == name).length

end Arena

end ShapeCheck
