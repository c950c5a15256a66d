import ShapeCheck.Compile.Basic
import ShapeCheck.Value.Access

set_option autoImplicit false

/-! # Type equations

What should a type accept? A recursive type has no meaning that could be read off its structure, so
the meanings of all types are taken together: a family of predicates, one for each type with or
without the check for superfluous keys, that satisfies one equation for each type. An equation says
when a value has the type in terms of the meanings of its parts, and mentions nothing of names,
predicates and evaluation.

Positions and lengths are numbers of a script here, as they are for the values.

Main facts: `Arena.admits_mono` (the equations are monotone), and with it `Arena.largest_solves` (they
have a solution).
-/

namespace ShapeCheck

/-! ## Parts of values -/

namespace Value

/-- An object in the widest sense: neither primitive, nor null, nor a function. -/
def IsObject (v : Value) : Prop := v.typeOf = "object" ∧ v ≠ .null

/-- The element at a position; undefined where there is none. -/
def element (v : Value) (position : Nat) : Value := v.getIndex (Double.ofNat position)

/-- The number of elements. -/
def count (v : Value) : Nat := v.length?.getD 0

end Value

/-! ## Keys of types -/

/-- Every key is possible, by the form of the type alone. -/
def Descriptor.isOpen : Descriptor → Bool
  | .keyword .any | .keyword .unknown | .array _ | .tuple _ | .indexAccess _ _ => true
  | .object shape => shape.index.isSome
  | _ => false

namespace Arena

/-- The types that make up the keys of a type. -/
def keySources (arena : Arena) (type : TypeId) : List TypeId :=
  match arena.lookup? type with
  | some (.union members) => members
  | some (.intersection members) => members
  | some (.reference target _) => ((arena.definition? target).bind Definition.body).toList
  | _ => []

/-- Values of the type may have keys that it does not tell. -/
inductive OpenKeys (arena : Arena) : TypeId → Prop
  | form {type : TypeId} {descriptor : Descriptor} :
      arena.lookup? type = some descriptor → descriptor.isOpen = true → OpenKeys arena type
  | source {type source : TypeId} :
      source ∈ arena.keySources type → OpenKeys arena source → OpenKeys arena type

/-- The type declares the key. -/
inductive HasKey (arena : Arena) (key : String) : TypeId → Prop
  | property {type : TypeId} {shape : ObjectShape} {property : Property} :
      arena.lookup? type = some (.object shape) → property ∈ shape.properties →
        property.symbolKeyed = false → property.name = key → HasKey arena key type
  | source {type source : TypeId} :
      source ∈ arena.keySources type → HasKey arena key source → HasKey arena key type

end Arena

/-! ## Equations -/

/-- The values of a keyword. -/
def Keyword.Admits (v : Value) : Keyword → Prop
  | .any | .unknown => True
  | .never => False
  | .null => v = .null
  | .undefined => v = .undefined
  | .number => v.typeOf = "number"
  | .bigint => v.typeOf = "bigint"
  | .boolean => v.typeOf = "boolean"
  | .string => v.typeOf = "string"
  | .object => v.IsObject ∨ v.typeOf = "function"
  | .symbol => v.typeOf = "symbol"

section
variable (A : TypeId → Bool → Value → Prop) (exact : Bool) (v : Value)

/-- The value at a position of a tuple. -/
def TupleElement.Admits (element : TupleElement) (position : Nat) : Prop :=
  (element.optional = true ∧ v.element position = .undefined) ∨
    A element.type exact (v.element position)

/-- The value under a key of an object, unless it is that of a method or keyed by a symbol. -/
def Property.Admits (property : Property) : Prop :=
  property.symbolKeyed = false → property.method = false → ∀ type, property.type = some type →
    if property.optional then
      v.get property.name = .undefined ∨ A type exact (v.get property.name)
    else v.hasKey property.name = true ∧ A type exact (v.get property.name)

/-- The values of an object shape: every member is as declared, and every own key as the index
signature says, or, if there is none and that is asked, declared. -/
structure ObjectShape.Admits (shape : ObjectShape) : Prop where
  isObject : v.IsObject
  notArray : v.isArray = false
  properties : ∀ property ∈ shape.properties, property.Admits A exact v
  index : ∀ type, shape.index = some type → ∀ key ∈ v.keys, A type exact (v.get key)
  declared : shape.index = none → exact = true → ∀ key ∈ v.keys,
    ∃ property ∈ shape.properties, property.symbolKeyed = false ∧ property.name = key

/-- The values of a tuple: arrays of an allowed length, with the declared element at every position. -/
structure TupleElement.AllAdmit (elements : List TupleElement) : Prop where
  isArray : v.isArray = true
  least : (Double.ofNat (TupleElement.minLength elements)).le (Double.ofNat v.count) = true
  most : (Double.ofNat v.count).le (Double.ofNat elements.length) = true
  elements : ∀ (position : Nat) (element : TupleElement), elements[position]? = some element →
    element.Admits A exact v position

/-- The values of a descriptor, where `A` says which values have the types of its parts. -/
def Descriptor.Admits (arena : Arena) (type : TypeId) : Descriptor → Prop
  | .keyword word => word.Admits v
  | .stringLiteral text => v = .string text
  | .numberLiteral x => ∃ y, v = .number y ∧ y.equals x = true
  | .booleanLiteral b => v = .bool b
  | .buffer => ∃ bytes, v = .buffer bytes
  | .view kind => ∃ bytes, v = .view kind bytes
  | .array element => v.isArray = true ∧ ∀ i < v.count, A element exact (v.element i)
  | .tuple elements => TupleElement.AllAdmit A exact v elements
  | .object shape => shape.Admits A exact v
  | .union members => ∃ member ∈ members, A member exact v
  | .intersection members =>
    (∀ member ∈ members, A member false v) ∧
      (exact = true → ¬ arena.OpenKeys type → v.IsObject → ∀ key ∈ v.keys, arena.HasKey key type)
  | .reference target _ =>
    ∃ definition body, arena.definition? target = some definition ∧ definition.body = some body ∧
      A body exact v
  -- these have no equation of their own: they stand for other types
  | .parameter _ | .indexAccess _ _ | .keyof _ => False

end

namespace Arena

/-- The values of a type, where `A` says which values have the types of its parts. -/
def Admits (arena : Arena) (A : TypeId → Bool → Value → Prop) (type : TypeId) (exact : Bool)
    (v : Value) : Prop :=
  ∃ descriptor, arena.lookup? type = some descriptor ∧ descriptor.Admits A exact v arena type

/-! ## Solutions -/

theorem admits_mono {arena : Arena} {A B : TypeId → Bool → Value → Prop}
    (le : ∀ type exact v, A type exact v → B type exact v) {type : TypeId} {exact : Bool} {v : Value}
    (h : arena.Admits A type exact v) : arena.Admits B type exact v := by
  obtain ⟨descriptor, found, admits⟩ := h
  refine ⟨descriptor, found, ?_⟩
  cases descriptor with
  | array element => exact ⟨admits.1, fun i small => le _ _ _ (admits.2 i small)⟩
  | tuple elements =>
    refine ⟨admits.isArray, admits.least, admits.most, fun position element listed => ?_⟩
    exact (admits.elements position element listed).imp_right (le _ _ _)
  | object shape =>
    refine ⟨admits.isObject, admits.notArray, fun property inside texts field type declared => ?_,
      fun type declared key own => le _ _ _ (admits.index type declared key own), admits.declared⟩
    have here := admits.properties property inside texts field type declared
    split
    · rename_i optional
      rw [if_pos optional] at here
      exact here.imp_right (le _ _ _)
    · rename_i required
      rw [if_neg required] at here
      exact here.imp_right (le _ _ _)
  | union members =>
    obtain ⟨member, inside, here⟩ := admits
    exact ⟨member, inside, le _ _ _ here⟩
  | intersection members => exact ⟨fun member inside => le _ _ _ (admits.1 member inside), admits.2⟩
  | reference target arguments =>
    obtain ⟨definition, body, leads, given, here⟩ := admits
    exact ⟨definition, body, leads, given, le _ _ _ here⟩
  | _ => exact admits

/-- The largest family that is contained in its own equations. -/
def Largest (arena : Arena) (type : TypeId) (exact : Bool) (v : Value) : Prop :=
  ∃ P : TypeId → Bool → Value → Prop,
    (∀ type exact v, P type exact v → arena.Admits P type exact v) ∧ P type exact v

/-- The equations have a solution, whatever the types are. -/
theorem largest_solves (arena : Arena) (type : TypeId) (exact : Bool) (v : Value) :
    arena.Largest type exact v ↔ arena.Admits arena.Largest type exact v := by
  have inside : ∀ type exact v, arena.Largest type exact v →
      arena.Admits arena.Largest type exact v := by
    rintro type exact v ⟨P, closed, here⟩
    exact admits_mono (fun _ _ _ member => ⟨P, closed, member⟩) (closed type exact v here)
  refine ⟨inside type exact v, fun admits => ?_⟩
  exact ⟨arena.Admits arena.Largest, fun _ _ _ => admits_mono inside, admits⟩

end Arena

/-! ## What a compilation builds -/

/-- What a predicate is built for: a type, an optional part, or a set of keys. -/
inductive Goal
  | ofType (type : TypeId) (exact : Bool)
  | optional (type : TypeId) (exact : Bool)
  | keySet (keys : List String)
  deriving DecidableEq

/-- The values that a predicate built for the goal has to accept. -/
def Goal.Admits (A : TypeId → Bool → Value → Prop) (v : Value) : Goal → Prop
  | .ofType type exact => A type exact v
  | .optional type exact => v = .undefined ∨ A type exact v
  | .keySet keys => v.IsObject → ∀ key ∈ v.keys, key ∈ keys

/-- The name of the predicate that is built for the goal. -/
def Goal.IsNamed (arena : Arena) (name : String) : Goal → Prop
  | .ofType type exact => arena.typeName [] exact type = .ok name
  | .optional type exact =>
    ∃ inner, arena.typeName [] exact type = .ok inner ∧ name = optionalName inner
  | .keySet keys => name = exactKeysName keys

/-- The goals that are built for the sake of another one. -/
inductive Goal.Needs (arena : Arena) : Goal → Goal → Prop
  | optional (type : TypeId) (exact : Bool) : Needs arena (.optional type exact) (.ofType type exact)
  | array {type element : TypeId} {exact : Bool} :
      arena.lookup? type = some (.array element) → Needs arena (.ofType type exact) (.ofType element exact)
  | element {type : TypeId} {elements : List TupleElement} {element : TupleElement} {exact : Bool} :
      arena.lookup? type = some (.tuple elements) → element ∈ elements →
        Needs arena (.ofType type exact)
          (if element.optional then .optional element.type exact else .ofType element.type exact)
  | property {type part : TypeId} {shape : ObjectShape} {property : Property} {exact : Bool} :
      arena.lookup? type = some (.object shape) → property ∈ shape.properties →
        property.symbolKeyed = false → property.method = false → property.type = some part →
          Needs arena (.ofType type exact) (.ofType part exact)
  | index {type part : TypeId} {shape : ObjectShape} {exact : Bool} :
      arena.lookup? type = some (.object shape) → shape.index = some part →
        Needs arena (.ofType type exact) (.ofType part exact)
  | union {type member : TypeId} {members : List TypeId} {exact : Bool} :
      arena.lookup? type = some (.union members) → member ∈ members →
        Needs arena (.ofType type exact) (.ofType member exact)
  | intersection {type member : TypeId} {members : List TypeId} {exact : Bool} :
      arena.lookup? type = some (.intersection members) → member ∈ members →
        Needs arena (.ofType type exact) (.ofType member false)
  | keys {type : TypeId} {members : List TypeId} {depth : Nat} {options : CompileOptions}
      {keys : List String} :
      arena.lookup? type = some (.intersection members) →
        (Context.root arena options).collectKeys depth type = .ok (some keys) →
          Needs arena (.ofType type true) (.keySet keys)
  | reference {type body : TypeId} {target : DefinitionId} {arguments : List TypeId}
      {definition : Definition} {exact : Bool} :
      arena.lookup? type = some (.reference target arguments) →
        arena.definition? target = some definition → definition.body = some body →
          Needs arena (.ofType type exact) (.ofType body exact)

/-- The goals of a compilation that starts with a root. -/
inductive Goal.IsBuilt (arena : Arena) (root : Goal) : Goal → Prop
  | root : IsBuilt arena root root
  | step {goal part : Goal} : IsBuilt arena root goal → goal.Needs arena part →
      IsBuilt arena root part

/-- What holds of the root and is passed on to parts holds of all goals. -/
theorem Goal.IsBuilt.of_closed {arena : Arena} {root : Goal} {P : Goal → Prop} (first : P root)
    (onwards : ∀ goal part, P goal → goal.Needs arena part → P part) {goal : Goal}
    (built : IsBuilt arena root goal) : P goal := by
  induction built with
  | root => exact first
  | step _ needs ih => exact onwards _ _ ih needs

namespace Arena

variable (arena : Arena) (root : Goal)

/-- The family satisfies the equations of all types that are built. -/
def Solves (A : TypeId → Bool → Value → Prop) : Prop :=
  ∀ type exact, Goal.IsBuilt arena root (.ofType type exact) →
    ∀ v, A type exact v ↔ arena.Admits A type exact v

/-- No type shares its name with a different type, with an optional part or with a set of keys. -/
def NamesApart : Prop :=
  ∀ goal goal' name, Goal.IsBuilt arena root goal → Goal.IsBuilt arena root goal' →
    goal.IsNamed arena name → goal'.IsNamed arena name →
      ∀ type exact, goal = .ofType type exact → ∃ exact', goal' = .ofType type exact'

end Arena

/-- A type without parameters: definitions are not generic and extend no others, and unions have
members. -/
def Descriptor.IsMonomorphic (arena : Arena) : Descriptor → Prop
  | .union members => members ≠ []
  | .reference target _ => ∀ definition, arena.definition? target = some definition →
      definition.parameters = [] ∧ definition.bases = []
  | .parameter _ | .indexAccess _ _ | .keyof _ => False
  | _ => True

/-- All types that are built are without parameters. -/
def Arena.IsMonomorphic (arena : Arena) (root : Goal) : Prop :=
  ∀ type exact, Goal.IsBuilt arena root (.ofType type exact) →
    ∀ descriptor, arena.lookup? type = some descriptor → descriptor.IsMonomorphic arena

/-- What the predicate of a root is built for. -/
def Goal.ofRoot (options : CompileOptions) (type : TypeId) : Goal :=
  if options.valueMayBeAbsent then .optional type options.superfluousPropertyCheck
  else .ofType type options.superfluousPropertyCheck

end ShapeCheck
