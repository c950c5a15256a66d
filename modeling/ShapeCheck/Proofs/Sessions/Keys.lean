import ShapeCheck.Compile.Keys
import ShapeCheck.Proofs.Sessions.Brackets

set_option autoImplicit false

/-! # Keys in place

Which keys a type has, and which keys an index type selects, is found out by walks through references and
parameters. In place such a walk pushes the instantiation of every reference that it enters, and hides
those that a parameter does not see; it may fail anywhere on the way, or stop early at a type whose keys
are open.

Main facts: `Mirrors.collectKeys` and `Mirrors.indexKeys`.
-/

namespace ShapeCheck

theorem Build.liftM_bind {α β : Type} (m : Except CompileError α) (f : α → Except CompileError β) :
    (liftM (m >>= f) : Build β) = liftM m >>= fun a => liftM (f a) := by
  cases m <;> rfl

/-! ## Reading the context -/

namespace Act

variable (arena : Arena)

/-- The options as they are. -/
def options : Act CompileOptions := return (← get).options

/-- What a type parameter stands for, and how many instantiations are visible there. -/
def resolve (id : ParameterId) : Act (TypeId × Nat) :=
  reading arena fun ctx => do
    let (type, visible) ← ctx.substitution.resolve arena id
    return (type, visible.length)

/-- The name of a type, spelled within a depth. -/
def nameOf (depth : Nat) (type : TypeId) : Act String := reading arena fun ctx => ctx.nameOf depth type

end Act

namespace Mirrors

variable {α : Type} {ctx : Context}

theorem options_bind {f : CompileOptions → Act α} {b : Build α} (h : Mirrors ctx (f ctx.options) b) :
    Mirrors ctx (Act.options >>= f) b := by
  intro s options frames
  have read : (Act.options >>= f).run.run s = (f ctx.options).run.run s := by
    rw [← options]
    rfl
  rw [read]
  exact h s options frames

theorem nameOf (depth : Nat) (type : TypeId) :
    Mirrors ctx (Act.nameOf ctx.arena depth type) (liftM (ctx.nameOf depth type)) :=
  .reading fun ctx => ctx.nameOf depth type

/-- A step for what a parameter stands for sees the instantiations around that. -/
theorem resolve {id : ParameterId} {m : TypeId → Act α} {b : TypeId → Context → Build α}
    (h : ∀ type (inside : Context), inside.arena = ctx.arena → Mirrors inside (m type) (b type inside)) :
    Mirrors ctx
      (do let (type, limit) ← Act.resolve ctx.arena id
          Act.withFrames limit (m type))
      (do let (type, visible) ← ctx.resolve id
          b type visible) := by
  intro s options frames
  have read := Act.run_reading ctx.arena (fun ctx' => do
    let (type, visible) ← ctx'.substitution.resolve ctx.arena id
    return (type, visible.length)) s
  have read : (Act.resolve ctx.arena id).run.run s = _ := read
  simp only [Session.context, frames] at read
  unfold Context.resolve
  cases stands : ctx.substitution.resolve ctx.arena id with
  | error e =>
    rw [stands] at read
    rw [run_bind_of_error read]
    exact ⟨rfl, .refl s⟩
  | ok found =>
    obtain ⟨type, visible⟩ := found
    rw [stands] at read
    rw [run_bind_of_ok read]
    exact (Mirrors.withFrames (Substitution.suffix_of_resolveWithin stands)
      (h type (ctx.reading visible) rfl)) s options frames

end Mirrors

/-! ## Keys -/

namespace Act

/-- Adds the keys of several types, up to the first one whose keys are open. -/
def gatherKeys (keysOf : TypeId → Act KeySet) (known : List String) : List TypeId → Act KeySet
  | [] => return some known
  | type :: rest => do
    match ← keysOf type with
    | some keys => gatherKeys keysOf (Text.sortUnique (known ++ keys)) rest
    | none => return none

section
variable (arena : Arena) (depth : Nat)

/-- The keys of a type, for a number of steps. -/
def collectKeysWithin : Nat → TypeId → Act KeySet
  | 0, type => do
    throw (.instantiationTooDeep (← reading arena fun ctx => ctx.describe depth type) maxResolutionSteps)
  | steps + 1, type => do
    match ← arena.lookup type with
    | .object shape => return if shape.index.isNone then some shape.keys else none
    | .union members => gatherKeys (collectKeysWithin steps) [] members
    | .intersection members => gatherKeys (collectKeysWithin steps) [] members
    | .reference target arguments => do
      let definition ← arena.target type target
      withInstantiation arena definition arguments do
        let body ← definition.requireBody
        gatherKeys (collectKeysWithin steps) [] (body :: definition.bases)
    | .parameter id => do
      let (target, limit) ← resolve arena id
      withFrames limit (collectKeysWithin steps target)
    | .keyword .any | .keyword .unknown | .array _ | .tuple _ | .indexAccess _ _ => return none
    | _ => return some []

/-- The keys of a type. -/
def collectKeys (type : TypeId) : Act KeySet := collectKeysWithin arena depth maxResolutionSteps type

/-- The keys that an index type selects, for a number of steps. -/
def indexKeysWithin : Nat → TypeId → Act (List IndexKey)
  | 0, type => throw (.instantiationTooDeep ("#" ++ toString type.index) maxResolutionSteps)
  | steps + 1, type => do
    match ← arena.lookup type with
    | .stringLiteral text => return [.name text]
    | .numberLiteral value => return [.number value]
    | .keyword .string => return [.anyString]
    | .keyword .number => return [.anyNumber]
    | .union members =>
      members.foldlM (fun known member => do
        return IndexKey.addAll known (← indexKeysWithin steps member)) []
    | .parameter id => do
      let (target, limit) ← resolve arena id
      withFrames limit (indexKeysWithin steps target)
    | .reference target arguments => do
      let definition ← arena.target type target
      let body ← definition.requireBody
      withInstantiation arena definition arguments (indexKeysWithin steps body)
    | .keyof operand =>
      return match ← collectKeys arena depth operand with
        | some keys => keys.map IndexKey.name
        | none => [.anyString, .anyNumber]
    | other => throw (.unsupportedType type (other.kindName ++ " used as an index type"))

/-- The keys that an index type selects. -/
def indexKeys (type : TypeId) : Act (List IndexKey) := indexKeysWithin arena depth maxResolutionSteps type

end

end Act

namespace Mirrors

variable {α β : Type} {ctx : Context} {depth : Nat}

/-- A step in place mirrors one that needs no registry. -/
theorem lift_bind {m : Act α} {b : Except CompileError α} {f : α → Act β} {g : α → Except CompileError β}
    (h : Mirrors ctx m (liftM b)) (h' : ∀ a, Mirrors ctx (f a) (liftM (g a))) :
    Mirrors ctx (m >>= f) (liftM (b >>= g)) := by
  rw [Build.liftM_bind]
  exact h.bind h'

theorem lift_enter {definition : Definition} {arguments : List TypeId} {m : Act α}
    {b : Context → Except CompileError α}
    (h : ∀ inside : Context, inside.arena = ctx.arena → Mirrors inside m (liftM (b inside))) :
    Mirrors ctx (Act.withInstantiation ctx.arena definition arguments m)
      (liftM (do b (← ctx.enter definition arguments))) := by
  rw [Build.liftM_bind]
  exact .withInstantiation h

theorem lift_resolve {id : ParameterId} {m : TypeId → Act α} {b : TypeId → Context → Except CompileError α}
    (h : ∀ type (inside : Context), inside.arena = ctx.arena →
      Mirrors inside (m type) (liftM (b type inside))) :
    Mirrors ctx
      (do let (type, limit) ← Act.resolve ctx.arena id
          Act.withFrames limit (m type))
      (liftM (do
        let (type, visible) ← ctx.resolve id
        b type visible)) := by
  rw [Build.liftM_bind]
  exact .resolve h

theorem gatherKeys {keysOf : TypeId → Act KeySet} {keysOf' : TypeId → Except CompileError KeySet}
    (h : ∀ type, Mirrors ctx (keysOf type) (liftM (keysOf' type))) (known : List String)
    (types : List TypeId) :
    Mirrors ctx (Act.gatherKeys keysOf known types) (liftM (ShapeCheck.gatherKeys keysOf' known types)) := by
  induction types generalizing known with
  | nil => exact .pure _
  | cons type rest ih =>
    refine (h type).lift_bind fun keys? => ?_
    cases keys? with
    | none => exact .pure none
    | some keys => exact ih _

theorem collectKeysWithin (steps : Nat) :
    ∀ (ctx : Context) (type : TypeId), Mirrors ctx (Act.collectKeysWithin ctx.arena depth steps type)
      (liftM (ShapeCheck.collectKeysWithin depth steps ctx type)) := by
  induction steps with
  | zero =>
    intro ctx type
    exact (Mirrors.reading fun ctx => ctx.describe depth type).lift_bind fun _ => .throw _
  | succ steps ih =>
    intro ctx type
    have parts (inside : Context) (same : inside.arena = ctx.arena) (type : TypeId) :
        Mirrors inside (Act.collectKeysWithin ctx.arena depth steps type)
          (liftM (ShapeCheck.collectKeysWithin depth steps inside type)) := by
      rw [← same]
      exact ih inside type
    refine (Mirrors.lift _).lift_bind fun descriptor => ?_
    cases descriptor with
    | object shape => exact .pure _
    | union members => exact gatherKeys (parts ctx rfl) [] members
    | intersection members => exact gatherKeys (parts ctx rfl) [] members
    | reference target arguments =>
      refine (Mirrors.lift _).lift_bind fun definition => lift_enter fun inside same => ?_
      exact (Mirrors.lift _).lift_bind fun body => gatherKeys (parts inside same) [] _
    | parameter id => exact lift_resolve fun target inside same => parts inside same target
    | keyword word => cases word <;> exact .pure _
    | _ => exact .pure _

theorem collectKeys (type : TypeId) :
    Mirrors ctx (Act.collectKeys ctx.arena depth type) (liftM (ctx.collectKeys depth type)) :=
  collectKeysWithin maxResolutionSteps ctx type

theorem lift_foldlM {f : β → α → Act β} {g : β → α → Except CompileError β} (items : List α)
    (h : ∀ b a, Mirrors ctx (f b a) (liftM (g b a))) (start : β) :
    Mirrors ctx (items.foldlM f start) (liftM (items.foldlM g start)) := by
  induction items generalizing start with
  | nil => exact .pure start
  | cons a rest ih =>
    rw [List.foldlM_cons, List.foldlM_cons]
    exact (h start a).lift_bind fun b => ih b

theorem indexKeysWithin (steps : Nat) :
    ∀ (ctx : Context) (type : TypeId), Mirrors ctx (Act.indexKeysWithin ctx.arena depth steps type)
      (liftM (ShapeCheck.indexKeysWithin depth steps ctx type)) := by
  induction steps with
  | zero => exact fun ctx type => .throw _
  | succ steps ih =>
    intro ctx type
    have parts (inside : Context) (same : inside.arena = ctx.arena) (type : TypeId) :
        Mirrors inside (Act.indexKeysWithin ctx.arena depth steps type)
          (liftM (ShapeCheck.indexKeysWithin depth steps inside type)) := by
      rw [← same]
      exact ih inside type
    refine (Mirrors.lift _).lift_bind fun descriptor => ?_
    cases descriptor with
    | union members =>
      exact lift_foldlM members (fun known member =>
        (parts ctx rfl member).lift_bind fun keys => .pure (IndexKey.addAll known keys)) []
    | parameter id => exact lift_resolve fun target inside same => parts inside same target
    | reference target arguments =>
      refine (Mirrors.lift _).lift_bind fun definition => (Mirrors.lift _).lift_bind fun body => ?_
      exact lift_enter fun inside same => parts inside same body
    | keyof operand => exact (collectKeys operand).lift_bind fun keys? => .pure _
    | keyword word => cases word <;> first | exact .pure _ | exact .throw _
    | stringLiteral | numberLiteral => exact .pure _
    | _ => exact .throw _

theorem indexKeys (type : TypeId) :
    Mirrors ctx (Act.indexKeys ctx.arena depth type) (liftM (ctx.indexKeys depth type)) :=
  indexKeysWithin maxResolutionSteps ctx type

end Mirrors

end ShapeCheck
