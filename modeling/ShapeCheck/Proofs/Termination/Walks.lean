import ShapeCheck.Proofs.Termination.Selection

set_option autoImplicit false

/-! # Keys settle

The walks that collect the keys of a type, or those that an index selects, take a bounded number of
steps. The depth matters to them only where an error shows the name of a type.

Main facts: `settled_collectKeys` and `settled_indexKeys`.
-/

namespace ShapeCheck

/-! ## Contexts over an arena -/

namespace Context

/-- What parameters stand for was bound by references of this arena. -/
structure IsOver (arena : Arena) (ctx : Context) : Prop where
  arena_eq : ctx.arena = arena
  substitution : ctx.substitution.IsOver arena

variable {arena : Arena} {ctx inside visible : Context}

theorem isOver_root (arena : Arena) (options : CompileOptions) : IsOver arena ⟨arena, options, []⟩ :=
  ⟨rfl, Substitution.isOver_nil arena⟩

theorem IsOver.withExact (h : ctx.IsOver arena) (exact : Bool) : (ctx.withExact exact).IsOver arena :=
  ⟨h.arena_eq, h.substitution⟩

theorem IsOver.enter (h : ctx.IsOver arena) {type : TypeId} {target : DefinitionId}
    {arguments : List TypeId} {definition : Definition}
    (found : ctx.arena.lookup? type = some (.reference target arguments))
    (known : ctx.arena.definition? target = some definition)
    (entered : ctx.enter definition arguments = .ok inside) : inside.IsOver arena := by
  obtain ⟨rfl, based⟩ := h
  obtain ⟨s, opened, made⟩ := bind_eq_ok.1 entered
  cases made
  exact ⟨rfl, based.enter found known opened⟩

theorem IsOver.resolve (h : ctx.IsOver arena) {id : ParameterId} {target : TypeId}
    (stands : ctx.resolve id = .ok (target, visible)) : visible.IsOver arena := by
  obtain ⟨rfl, based⟩ := h
  obtain ⟨⟨type, s⟩, resolved, made⟩ := bind_eq_ok.1 stands
  cases made
  exact ⟨rfl, based.resolve resolved⟩

/-- Options given by their switches. -/
def optionsOf : List Bool → CompileOptions
  | [a, b, c, d, e] => ⟨a, b, c, d, e⟩
  | _ => {}

/-- There are finitely many contexts over an arena. -/
theorem finite_isOver (arena : Arena) : {ctx : Context | ctx.IsOver arena}.Finite := by
  have finite : (Set.preimage List.length (Set.Iic 5) : Set (List Bool)).Finite :=
    List.finite_length_le Bool 5
  refine (((finite.prod (Substitution.finite_isOver arena)).image
    fun pair => (⟨arena, optionsOf pair.1, pair.2⟩ : Context))).subset ?_
  rintro ⟨_, ⟨a, b, c, d, e⟩, s⟩ ⟨rfl, based⟩
  exact ⟨([a, b, c, d, e], s), ⟨by simp, based⟩, rfl⟩

end Context

/-! ## Keys -/

section
variable {arena : Arena} {ctx : Context} {α β : Type}

theorem Settled.lift_bind {m : Except CompileError α} {f : Nat → α → Except CompileError β}
    (first : Conclusive m) (second : ∀ a, m = .ok a → Settled fun depth => f depth a) :
    Settled fun depth => m >>= f depth := by
  cases m with
  | error e => exact .const first.error
  | ok a => exact second a rfl

theorem Settled.foldlM {f : Nat → β → α → Except CompileError β} {items : List α}
    (h : ∀ a ∈ items, ∀ b, Settled fun depth => f depth b a) (b : β) :
    Settled fun depth => items.foldlM (f depth) b := by
  induction items generalizing b with
  | nil => exact .ok b
  | cons a rest ih =>
    simp only [List.foldlM_cons]
    exact (h a List.mem_cons_self b).bind fun b =>
      ih (fun c inside => h c (List.mem_cons_of_mem _ inside)) b

variable (names : arena.NamesEnd)
include names

theorem settled_nameOf (based : ctx.IsOver arena) (type : TypeId) :
    Settled fun depth => ctx.nameOf depth type := by
  obtain ⟨rfl, based⟩ := based
  exact settled_typeName names based ctx.exact type

theorem settled_describe (based : ctx.IsOver arena) (type : TypeId) :
    Settled fun depth => ctx.describe depth type := by
  obtain ⟨result, conclusive, stays⟩ := settled_nameOf names based type
  cases result with
  | ok name =>
    refine ⟨.ok name, conclusive_ok name, stays.mono fun depth made => ?_⟩
    simp only [Context.describe, made]
  | error e =>
    refine ⟨.ok ("#" ++ toString type.index), conclusive_ok _, stays.mono fun depth made => ?_⟩
    cases e with
    | endless inner => exact absurd rfl (conclusive inner)
    | _ => simp only [Context.describe, made]

omit names in
theorem settled_gatherKeys {keysOf : Nat → TypeId → Except CompileError KeySet} {types : List TypeId}
    (h : ∀ type ∈ types, Settled fun depth => keysOf depth type) (collected : List String) :
    Settled fun depth => gatherKeys (keysOf depth) collected types := by
  induction types generalizing collected with
  | nil => exact .ok _
  | cons type rest ih =>
    unfold gatherKeys
    refine (h type List.mem_cons_self).bind fun found => ?_
    cases found with
    | none => exact .ok _
    | some keys => exact ih (fun other inside => h other (List.mem_cons_of_mem _ inside)) _

theorem settled_collectKeysWithin (steps : Nat) (based : ctx.IsOver arena) (type : TypeId) :
    Settled fun depth => collectKeysWithin depth steps ctx type := by
  induction steps generalizing ctx type with
  | zero =>
    exact (settled_describe names based type).bind fun name => .const nofun
  | succ steps ih =>
    unfold collectKeysWithin
    refine .lift_bind (ctx.arena.conclusive_lookup type) fun descriptor found => ?_
    rw [Arena.lookup_eq_ok] at found
    cases descriptor with
    | union members => exact settled_gatherKeys (fun member _ => ih based member) []
    | intersection members => exact settled_gatherKeys (fun member _ => ih based member) []
    | reference target arguments =>
      refine .lift_bind (ctx.arena.conclusive_target type target) fun definition known => ?_
      refine .lift_bind (ctx.conclusive_enter definition arguments) fun inside entered => ?_
      refine .lift_bind definition.conclusive_requireBody fun body present => ?_
      rw [Arena.target_eq_ok] at known
      exact settled_gatherKeys (fun part _ => ih (based.enter found known entered) part) []
    | parameter id =>
      refine .lift_bind (ctx.conclusive_resolve id) fun stands resolved => ?_
      exact ih (based.resolve resolved) stands.1
    | keyword word => cases word <;> exact .ok _
    | _ => exact .ok _

theorem settled_collectKeys (based : ctx.IsOver arena) (type : TypeId) :
    Settled fun depth => ctx.collectKeys depth type :=
  settled_collectKeysWithin names maxResolutionSteps based type

theorem settled_indexKeysWithin (steps : Nat) (based : ctx.IsOver arena) (type : TypeId) :
    Settled fun depth => indexKeysWithin depth steps ctx type := by
  induction steps generalizing ctx type with
  | zero => exact .const nofun
  | succ steps ih =>
    unfold indexKeysWithin
    refine .lift_bind (ctx.arena.conclusive_lookup type) fun descriptor found => ?_
    rw [Arena.lookup_eq_ok] at found
    cases descriptor with
    | union members =>
      refine Settled.foldlM (fun member _ known => ?_) []
      exact (ih based member).bind fun _ => .ok _
    | parameter id =>
      refine .lift_bind (ctx.conclusive_resolve id) fun stands resolved => ?_
      exact ih (based.resolve resolved) stands.1
    | reference target arguments =>
      refine .lift_bind (ctx.arena.conclusive_target type target) fun definition known => ?_
      refine .lift_bind definition.conclusive_requireBody fun body present => ?_
      refine .lift_bind (ctx.conclusive_enter definition arguments) fun inside entered => ?_
      rw [Arena.target_eq_ok] at known
      exact ih (based.enter found known entered) body
    | keyof operand =>
      exact (settled_collectKeys names based operand).bind fun _ => .ok _
    | keyword word => cases word <;> first | exact .ok _ | exact .const nofun
    | stringLiteral | numberLiteral => exact .ok _
    | _ => exact .const nofun

theorem settled_indexKeys (based : ctx.IsOver arena) (type : TypeId) :
    Settled fun depth => ctx.indexKeys depth type :=
  settled_indexKeysWithin names maxResolutionSteps based type

end

end ShapeCheck
