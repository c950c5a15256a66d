import ShapeCheck.Proofs.Documents.Arenas
import ShapeCheck.Proofs.Documents.Normal
import ShapeCheck.Proofs.Simulation.Descriptors

set_option autoImplicit false

/-! # Types read back

What an arena holds can be read back as expressions: a handle is looked up, then the handles in what is
found, and so on; a definition is read as its name, and so is a type parameter.

A name may be that of several definitions of an arena. `Arena.Denotes` says of which ones the types are that
are meant by an expression. If these are told apart by their names, so are the types by the expressions that
they are read back as, because nothing is stored twice.

Main facts: `Arena.Denotes.biUnique` and `Arena.Denotes.reads`.
-/

namespace ShapeCheck

/-! ## Reading -/

/-- What a member of an object says besides its type. -/
def Property.head (property : Property) : PropertyHead :=
  ⟨property.name, property.optional, property.method, property.symbolKeyed⟩

/-- Reads a member of an object, given how types are read. -/
def Property.read (part : TypeId → Option TypeExpr) (property : Property) :
    Option (PropertyHead × Option TypeExpr) := do
  return (property.head, ← property.type.mapM part)

/-- Reads a position of a tuple, given how types are read. -/
def TupleElement.read (part : TypeId → Option TypeExpr) (element : TupleElement) :
    Option (TypeExpr × Bool) := do
  return (← part element.type, element.optional)

/-- Reads a descriptor, given how its parts are read. -/
def Descriptor.read (arena : Arena) (part : TypeId → Option TypeExpr) : Descriptor → Option TypeExpr
  | .keyword word => some (.keyword word)
  | .stringLiteral value => some (.stringLiteral value)
  | .numberLiteral value => some (.numberLiteral value)
  | .booleanLiteral value => some (.booleanLiteral value)
  | .array element => do return .array (← part element)
  | .tuple elements => do return .tuple (← elements.mapM (TupleElement.read part))
  | .object shape => do
    return .object (← shape.properties.mapM (Property.read part)) (← shape.index.mapM part)
  | .union members => do return .union (← members.mapM part)
  | .intersection members => do return .intersection (← members.mapM part)
  | .reference target arguments => do
    let definition ← arena.definition? target
    return .reference definition.name (← arguments.mapM part)
  | .parameter id => do
    let parameter ← arena.parameter? id
    return .parameter parameter.name
  | .indexAccess whole key => do return .indexAccess (← part whole) (← part key)
  | .keyof operand => do return .keyof (← part operand)
  | .buffer => some .buffer
  | .view kind => some (.view kind)

namespace Arena

/-- Reads a type whose parts are nested no deeper than this. -/
def readWithin (arena : Arena) : Nat → TypeId → Option TypeExpr
  | 0, _ => none
  | depth + 1, type => do
    let descriptor ← arena.lookup? type
    descriptor.read arena (arena.readWithin depth)

/-- The type is read back as the expression. -/
def ReadsAs (arena : Arena) (type : TypeId) (expr : TypeExpr) : Prop :=
  ∃ depth, ∀ more, depth ≤ more → arena.readWithin more type = some expr

theorem ReadsAs.unique {arena : Arena} {type : TypeId} {expr expr' : TypeExpr}
    (h : arena.ReadsAs type expr) (h' : arena.ReadsAs type expr') : expr = expr' := by
  obtain ⟨depth, reads⟩ := h
  obtain ⟨depth', reads'⟩ := h'
  have here := reads (max depth depth') (Nat.le_max_left ..)
  exact Option.some.inj (here.symm.trans (reads' _ (Nat.le_max_right ..)))

end Arena

/-! ## Optional and listed items -/

section
variable {α β : Type} {R : α → β → Prop}

theorem biUnique_optionRel (unique : Relator.BiUnique R) : Relator.BiUnique (Option.Rel R) := by
  constructor
  · intro a? a?' b? h h'
    cases h with
    | none =>
      cases h'
      rfl
    | some here =>
      cases h' with | some other => rw [unique.1 here other]
  · intro a? b? b?' h h'
    cases h with
    | none =>
      cases h'
      rfl
    | some here =>
      cases h' with | some other => rw [unique.2 here other]

theorem mapM_eq_some {f : α → Option β} {as : List α} {bs : List β}
    (h : List.Forall₂ (fun b a => f a = some b) bs as) : as.mapM f = some bs := by
  induction h with
  | nil => rfl
  | cons here _ ih => simp [List.mapM_cons, here, ih]

theorem optionMapM_eq_some {f : α → Option β} {a? : Option α} {b? : Option β}
    (h : Option.Rel (fun b a => f a = some b) b? a?) : a?.mapM f = some b? := by
  cases h with
  | none => rfl
  | some here => simp [here]

end

/-- Relations that grow with a number. -/
def IsRising {α β : Type} (P : Nat → α → β → Prop) : Prop :=
  ∀ ⦃n m⦄, n ≤ m → ∀ a b, P n a b → P m a b

section
variable {α β : Type} {P : Nat → α → β → Prop}

/-- If items are related at some number each, all of them are related at one. -/
theorem IsRising.exists_forall₂ (rising : IsRising P) {as : List α} {bs : List β}
    (h : List.Forall₂ (fun a b => ∃ n, P n a b) as bs) : ∃ n, List.Forall₂ (P n) as bs := by
  induction h with
  | nil => exact ⟨0, .nil⟩
  | cons here _ ih =>
    obtain ⟨n, here⟩ := here
    obtain ⟨m, rest⟩ := ih
    exact ⟨max n m, .cons (rising (Nat.le_max_left n m) _ _ here)
      (rest.imp (rising (Nat.le_max_right n m)))⟩

theorem exists_optionRel {a? : Option α} {b? : Option β}
    (h : Option.Rel (fun a b => ∃ n, P n a b) a? b?) : ∃ n, Option.Rel (P n) a? b? := by
  cases h with
  | none => exact ⟨0, .none⟩
  | some here =>
    obtain ⟨n, here⟩ := here
    exact ⟨n, .some here⟩

end

/-! ## What expressions say -/

/-- Which definitions and type parameters of an arena are meant by names. -/
structure Names where
  definitions : String → DefinitionId → Prop
  parameters : String → ParameterId → Prop

/-- Different names mean different things, and each name means one. -/
structure Names.AreOneToOne (names : Names) : Prop where
  definitions : Relator.BiUnique names.definitions
  parameters : Relator.BiUnique names.parameters

/-- Whatever a name means among the one, it means among the others. -/
structure Names.Implies (names names' : Names) : Prop where
  definitions : ∀ name id, names.definitions name id → names'.definitions name id
  parameters : ∀ name id, names.parameters name id → names'.parameters name id

/-- What is meant by a name has this name in the arena. -/
structure Names.AreIn (names : Names) (arena : Arena) : Prop where
  definitions : ∀ name id, names.definitions name id →
    ∃ definition, arena.definition? id = some definition ∧ definition.name = name
  parameters : ∀ name id, names.parameters name id →
    ∃ parameter, arena.parameter? id = some parameter ∧ parameter.name = name

namespace TypeExpr

variable {names names' : Names} {R R' : TypeExpr → TypeId → Prop}

/-- The positions of tuples say the same of types that are related. -/
structure ElementExpresses (R : TypeExpr → TypeId → Prop) (position : TypeExpr × Bool)
    (element : TupleElement) : Prop where
  type : R position.1 element.type
  optional : position.2 = element.optional

/-- The members of objects say the same of types that are related. -/
structure PropertyExpresses (R : TypeExpr → TypeId → Prop) (member : PropertyHead × Option TypeExpr)
    (property : Property) : Prop where
  head : member.1 = property.head
  type : Option.Rel R member.2 property.type

/-- The expression and the descriptor say the same of parts that are related. -/
inductive Expresses (names : Names) (R : TypeExpr → TypeId → Prop) : TypeExpr → Descriptor → Prop
  | keyword (word : Keyword) : Expresses names R (.keyword word) (.keyword word)
  | stringLiteral (value : String) : Expresses names R (.stringLiteral value) (.stringLiteral value)
  | numberLiteral (value : Double) : Expresses names R (.numberLiteral value) (.numberLiteral value)
  | booleanLiteral (value : Bool) : Expresses names R (.booleanLiteral value) (.booleanLiteral value)
  | array {expr : TypeExpr} {element : TypeId} (part : R expr element) :
      Expresses names R (.array expr) (.array element)
  | tuple {positions : List (TypeExpr × Bool)} {elements : List TupleElement}
      (parts : List.Forall₂ (ElementExpresses R) positions elements) :
      Expresses names R (.tuple positions) (.tuple elements)
  | object {members : List (PropertyHead × Option TypeExpr)} {index : Option TypeExpr}
      {properties : List Property} {signature : Option TypeId}
      (parts : List.Forall₂ (PropertyExpresses R) members properties) (rest : Option.Rel R index signature) :
      Expresses names R (.object members index) (.object ⟨properties, signature⟩)
  | union {exprs : List TypeExpr} {members : List TypeId} (parts : List.Forall₂ R exprs members) :
      Expresses names R (.union exprs) (.union members)
  | intersection {exprs : List TypeExpr} {members : List TypeId} (parts : List.Forall₂ R exprs members) :
      Expresses names R (.intersection exprs) (.intersection members)
  | reference {name : String} {id : DefinitionId} {exprs : List TypeExpr} {arguments : List TypeId}
      (meant : names.definitions name id) (parts : List.Forall₂ R exprs arguments) :
      Expresses names R (.reference name exprs) (.reference id arguments)
  | parameter {name : String} {id : ParameterId} (meant : names.parameters name id) :
      Expresses names R (.parameter name) (.parameter id)
  | indexAccess {whole key : TypeExpr} {object index : TypeId} (first : R whole object)
      (second : R key index) : Expresses names R (.indexAccess whole key) (.indexAccess object index)
  | keyof {expr : TypeExpr} {operand : TypeId} (part : R expr operand) :
      Expresses names R (.keyof expr) (.keyof operand)
  | buffer : Expresses names R .buffer .buffer
  | view (kind : ViewKind) : Expresses names R (.view kind) (.view kind)

theorem ElementExpresses.imp (h : ∀ expr type, R expr type → R' expr type) {position : TypeExpr × Bool}
    {element : TupleElement} (said : ElementExpresses R position element) : ElementExpresses R' position element :=
  ⟨h _ _ said.type, said.optional⟩

theorem PropertyExpresses.imp (h : ∀ expr type, R expr type → R' expr type)
    {member : PropertyHead × Option TypeExpr} {property : Property} (said : PropertyExpresses R member property) :
    PropertyExpresses R' member property :=
  ⟨said.head, optionRel_imp said.type h⟩

theorem ElementExpresses.read_eq {part : TypeId → Option TypeExpr} {position : TypeExpr × Bool}
    {element : TupleElement}
    (said : ElementExpresses (fun expr type => part type = some expr) position element) :
    element.read part = some position := by
  simp [TupleElement.read, said.type, said.optional.symm]

theorem PropertyExpresses.read_eq {part : TypeId → Option TypeExpr}
    {member : PropertyHead × Option TypeExpr} {property : Property}
    (said : PropertyExpresses (fun expr type => part type = some expr) member property) :
    property.read part = some member := by
  simp [Property.read, optionMapM_eq_some said.type, said.head.symm]

theorem biUnique_elementExpresses (unique : Relator.BiUnique R) : Relator.BiUnique (ElementExpresses R) := by
  constructor
  · intro position position' element h h'
    exact Prod.ext (unique.1 h.type h'.type) (h.optional.trans h'.optional.symm)
  · rintro position ⟨type, optional⟩ ⟨type', optional'⟩ h h'
    obtain rfl := unique.2 h.type h'.type
    obtain rfl := h.optional.symm.trans h'.optional
    rfl

theorem biUnique_propertyExpresses (unique : Relator.BiUnique R) : Relator.BiUnique (PropertyExpresses R) := by
  constructor
  · intro member member' property h h'
    exact Prod.ext (h.head.trans h'.head.symm) ((biUnique_optionRel unique).1 h.type h'.type)
  · rintro member ⟨name, type, optional, method, symbolKeyed⟩
      ⟨name', type', optional', method', symbolKeyed'⟩ h h'
    obtain rfl := (biUnique_optionRel unique).2 h.type h'.type
    cases h.head.symm.trans h'.head
    rfl

namespace Expresses

variable {expr expr' : TypeExpr} {descriptor descriptor' : Descriptor}

theorem weaken (implied : names.Implies names') (h : ∀ expr type, R expr type → R' expr type)
    (said : Expresses names R expr descriptor) : Expresses names' R' expr descriptor := by
  cases said with
  | keyword word => exact .keyword word
  | stringLiteral value => exact .stringLiteral value
  | numberLiteral value => exact .numberLiteral value
  | booleanLiteral value => exact .booleanLiteral value
  | array part => exact .array (h _ _ part)
  | tuple parts => exact .tuple (parts.imp fun _ _ part => part.imp h)
  | object parts rest => exact .object (parts.imp fun _ _ part => part.imp h) (optionRel_imp rest h)
  | union parts => exact .union (parts.imp h)
  | intersection parts => exact .intersection (parts.imp h)
  | reference meant parts => exact .reference (implied.definitions _ _ meant) (parts.imp h)
  | parameter meant => exact .parameter (implied.parameters _ _ meant)
  | indexAccess first second => exact .indexAccess (h _ _ first) (h _ _ second)
  | keyof part => exact .keyof (h _ _ part)
  | buffer => exact .buffer
  | view kind => exact .view kind

theorem imp (h : ∀ expr type, R expr type → R' expr type) (said : Expresses names R expr descriptor) :
    Expresses names R' expr descriptor :=
  said.weaken ⟨fun _ _ => id, fun _ _ => id⟩ h

/-- Expressions and descriptors tell their parts apart. -/
theorem biUnique (oneToOne : names.AreOneToOne) (unique : Relator.BiUnique R) :
    Relator.BiUnique (Expresses names R) := by
  have lists := unique.forall₂
  have elements := (biUnique_elementExpresses unique).forall₂
  have properties := (biUnique_propertyExpresses unique).forall₂
  have options := biUnique_optionRel unique
  constructor
  · intro expr expr' descriptor h h'
    cases h with
    | array part =>
      cases h' with | array part' => rw [unique.1 part part']
    | tuple parts =>
      cases h' with | tuple parts' => rw [elements.1 parts parts']
    | object parts rest =>
      cases h' with | object parts' rest' => rw [properties.1 parts parts', options.1 rest rest']
    | union parts =>
      cases h' with | union parts' => rw [lists.1 parts parts']
    | intersection parts =>
      cases h' with | intersection parts' => rw [lists.1 parts parts']
    | reference meant parts =>
      cases h' with
      | reference meant' parts' => rw [oneToOne.definitions.1 meant meant', lists.1 parts parts']
    | parameter meant =>
      cases h' with | parameter meant' => rw [oneToOne.parameters.1 meant meant']
    | indexAccess first second =>
      cases h' with
      | indexAccess first' second' => rw [unique.1 first first', unique.1 second second']
    | keyof part =>
      cases h' with | keyof part' => rw [unique.1 part part']
    | _ =>
      cases h'
      rfl
  · intro expr descriptor descriptor' h h'
    cases h with
    | array part =>
      cases h' with | array part' => rw [unique.2 part part']
    | tuple parts =>
      cases h' with | tuple parts' => rw [elements.2 parts parts']
    | object parts rest =>
      cases h' with | object parts' rest' => rw [properties.2 parts parts', options.2 rest rest']
    | union parts =>
      cases h' with | union parts' => rw [lists.2 parts parts']
    | intersection parts =>
      cases h' with | intersection parts' => rw [lists.2 parts parts']
    | reference meant parts =>
      cases h' with
      | reference meant' parts' => rw [oneToOne.definitions.2 meant meant', lists.2 parts parts']
    | parameter meant =>
      cases h' with | parameter meant' => rw [oneToOne.parameters.2 meant meant']
    | indexAccess first second =>
      cases h' with
      | indexAccess first' second' => rw [unique.2 first first', unique.2 second second']
    | keyof part =>
      cases h' with | keyof part' => rw [unique.2 part part']
    | _ =>
      cases h'
      rfl

/-- A descriptor is read as what it says if its parts are. -/
theorem read_eq {arena : Arena} (inArena : names.AreIn arena) {part : TypeId → Option TypeExpr}
    (said : Expresses names (fun expr type => part type = some expr) expr descriptor) :
    descriptor.read arena part = some expr := by
  cases said with
  | array part => simp [Descriptor.read, part]
  | tuple parts =>
    simp [Descriptor.read, mapM_eq_some (parts.imp fun _ _ said => said.read_eq)]
  | object parts rest =>
    simp [Descriptor.read, mapM_eq_some (parts.imp fun _ _ said => said.read_eq), optionMapM_eq_some rest]
  | union parts => simp [Descriptor.read, mapM_eq_some parts]
  | intersection parts => simp [Descriptor.read, mapM_eq_some parts]
  | reference meant parts =>
    obtain ⟨definition, known, rfl⟩ := inArena.definitions _ _ meant
    simp [Descriptor.read, known, mapM_eq_some parts]
  | parameter meant =>
    obtain ⟨parameter, known, rfl⟩ := inArena.parameters _ _ meant
    simp [Descriptor.read, known]
  | indexAccess first second => simp [Descriptor.read, first, second]
  | keyof part => simp [Descriptor.read, part]
  | _ => rfl

/-- Parts that are related at some number each are all related at one. -/
theorem exists_of_rising {P : Nat → TypeExpr → TypeId → Prop} (rising : IsRising P)
    (said : Expresses names (fun expr type => ∃ n, P n expr type) expr descriptor) :
    ∃ n, Expresses names (P n) expr descriptor := by
  have elements : IsRising fun n => ElementExpresses (P n) := fun _ _ le _ _ said => said.imp (rising le)
  have properties : IsRising fun n => PropertyExpresses (P n) := fun _ _ le _ _ said => said.imp (rising le)
  cases said with
  | array part =>
    obtain ⟨n, part⟩ := part
    exact ⟨n, .array part⟩
  | tuple parts =>
    obtain ⟨n, parts⟩ := elements.exists_forall₂ (parts.imp fun position element said => by
      obtain ⟨n, part⟩ := said.type
      exact ⟨n, part, said.optional⟩)
    exact ⟨n, .tuple parts⟩
  | object parts rest =>
    obtain ⟨n, parts⟩ := properties.exists_forall₂ (parts.imp fun member property said => by
      obtain ⟨n, part⟩ := exists_optionRel said.type
      exact ⟨n, said.head, part⟩)
    obtain ⟨m, rest⟩ := exists_optionRel rest
    exact ⟨max n m, .object (parts.imp (properties (Nat.le_max_left n m)))
      (optionRel_imp rest (rising (Nat.le_max_right n m)))⟩
  | union parts =>
    obtain ⟨n, parts⟩ := rising.exists_forall₂ parts
    exact ⟨n, .union parts⟩
  | intersection parts =>
    obtain ⟨n, parts⟩ := rising.exists_forall₂ parts
    exact ⟨n, .intersection parts⟩
  | reference meant parts =>
    obtain ⟨n, parts⟩ := rising.exists_forall₂ parts
    exact ⟨n, .reference meant parts⟩
  | indexAccess first second =>
    obtain ⟨n, first⟩ := first
    obtain ⟨m, second⟩ := second
    exact ⟨max n m, .indexAccess (rising (Nat.le_max_left n m) _ _ first)
      (rising (Nat.le_max_right n m) _ _ second)⟩
  | keyof part =>
    obtain ⟨n, part⟩ := part
    exact ⟨n, .keyof part⟩
  | keyword word => exact ⟨0, .keyword word⟩
  | stringLiteral value => exact ⟨0, .stringLiteral value⟩
  | numberLiteral value => exact ⟨0, .numberLiteral value⟩
  | booleanLiteral value => exact ⟨0, .booleanLiteral value⟩
  | parameter meant => exact ⟨0, .parameter meant⟩
  | buffer => exact ⟨0, .buffer⟩
  | view kind => exact ⟨0, .view kind⟩

end Expresses

end TypeExpr

/-! ## What expressions denote -/

namespace Arena

variable {names : Names} {a b : Arena} {expr : TypeExpr} {type : TypeId} {descriptor : Descriptor}

/-- The type is meant by the expression, whose parts are nested no deeper than this. -/
def DenotesWithin (names : Names) (arena : Arena) : Nat → TypeExpr → TypeId → Prop
  | 0, _, _ => False
  | depth + 1, expr, type => ∃ descriptor, arena.lookup? type = some descriptor ∧
      expr.Expresses names (DenotesWithin names arena depth) descriptor

/-- The type is meant by the expression. -/
def Denotes (names : Names) (arena : Arena) (expr : TypeExpr) (type : TypeId) : Prop :=
  ∃ depth, arena.DenotesWithin names depth expr type

theorem isRising_denotesWithin (names : Names) (arena : Arena) :
    IsRising (arena.DenotesWithin names) := by
  intro n m le expr type h
  induction n generalizing m expr type with
  | zero => exact h.elim
  | succ n ih =>
    obtain ⟨m, rfl⟩ := Nat.exists_eq_succ_of_ne_zero (Nat.ne_zero_of_lt le)
    obtain ⟨descriptor, found, said⟩ := h
    exact ⟨descriptor, found, said.imp fun _ _ => ih (Nat.le_of_succ_le_succ le) _ _⟩

theorem biUnique_denotesWithin (oneToOne : names.AreOneToOne) (once : a.StoresOnce) (depth : Nat) :
    Relator.BiUnique (a.DenotesWithin names depth) := by
  induction depth with
  | zero => exact ⟨nofun, nofun⟩
  | succ depth ih =>
    have parts := TypeExpr.Expresses.biUnique oneToOne ih
    constructor
    · rintro expr expr' type ⟨descriptor, found, said⟩ ⟨descriptor', found', said'⟩
      cases found.symm.trans found'
      exact parts.1 said said'
    · rintro expr type type' ⟨descriptor, found, said⟩ ⟨descriptor', found', said'⟩
      cases parts.2 said said'
      exact once.eq_of_lookup? found found'

namespace Denotes

theorem of_lookup (found : a.lookup? type = some descriptor)
    (said : expr.Expresses names (a.Denotes names) descriptor) : a.Denotes names expr type := by
  obtain ⟨depth, said⟩ := said.exists_of_rising (isRising_denotesWithin names a)
  exact ⟨depth + 1, descriptor, found, said⟩

theorem lookup (h : a.Denotes names expr type) :
    ∃ descriptor, a.lookup? type = some descriptor ∧ expr.Expresses names (a.Denotes names) descriptor := by
  obtain ⟨depth, h⟩ := h
  cases depth with
  | zero => exact h.elim
  | succ depth =>
    obtain ⟨descriptor, found, said⟩ := h
    exact ⟨descriptor, found, said.imp fun _ _ part => ⟨depth, part⟩⟩

/-- An expression means one type at most, and types that are meant by different expressions differ. -/
theorem biUnique (oneToOne : names.AreOneToOne) (once : a.StoresOnce) :
    Relator.BiUnique (a.Denotes names) := by
  have rising := isRising_denotesWithin names a
  constructor
  · rintro expr expr' type ⟨n, h⟩ ⟨m, h'⟩
    exact (biUnique_denotesWithin oneToOne once (max n m)).1 (rising (Nat.le_max_left n m) _ _ h)
      (rising (Nat.le_max_right n m) _ _ h')
  · rintro expr type type' ⟨n, h⟩ ⟨m, h'⟩
    exact (biUnique_denotesWithin oneToOne once (max n m)).2 (rising (Nat.le_max_left n m) _ _ h)
      (rising (Nat.le_max_right n m) _ _ h')

/-- What an expression means stays what it means while the arena grows. -/
theorem mono (h : a.Denotes names expr type) (grown : a.Extends b) : b.Denotes names expr type := by
  obtain ⟨depth, h⟩ := h
  refine ⟨depth, ?_⟩
  induction depth generalizing expr type with
  | zero => exact h.elim
  | succ depth ih =>
    obtain ⟨descriptor, found, said⟩ := h
    exact ⟨descriptor, grown.descriptors _ _ found, said.imp fun _ _ => ih⟩

theorem weaken {names' : Names} (h : a.Denotes names expr type) (implied : names.Implies names') :
    a.Denotes names' expr type := by
  obtain ⟨depth, h⟩ := h
  refine ⟨depth, ?_⟩
  induction depth generalizing expr type with
  | zero => exact h.elim
  | succ depth ih =>
    obtain ⟨descriptor, found, said⟩ := h
    exact ⟨descriptor, found, said.weaken implied fun _ _ => ih⟩

/-- A type is read back as the expression that it is meant by. -/
theorem reads (h : a.Denotes names expr type) (inArena : names.AreIn a) : a.ReadsAs type expr := by
  obtain ⟨depth, h⟩ := h
  refine ⟨depth, fun more le => ?_⟩
  replace h := isRising_denotesWithin names a le _ _ h
  clear le
  induction more generalizing expr type with
  | zero => exact h.elim
  | succ more ih =>
    obtain ⟨descriptor, found, said⟩ := h
    have parts : expr.Expresses names (fun expr type => a.readWithin more type = some expr) descriptor :=
      said.imp fun _ _ => ih
    simp [readWithin, found, parts.read_eq inArena]

end Denotes

/-- The type is read back as the normal form of the expression, and what it refers to is meant by the names
in there. -/
structure Holds (names : Names) (arena : Arena) (expr : TypeExpr) (type : TypeId) : Prop where
  reads : arena.ReadsAs type expr.normalize
  denotes : arena.Denotes names expr.normalize type

end Arena

end ShapeCheck
