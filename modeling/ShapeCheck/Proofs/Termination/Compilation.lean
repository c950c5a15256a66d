import Mathlib.Data.Set.Card
import ShapeCheck.Compile.Basic
import ShapeCheck.Proofs.Termination.Walks

set_option autoImplicit false

/-! # Compilations that end

A predicate is compiled under a name that is known from then on, and a known name is never compiled
again. There are finitely many names, because there are finitely many substitutions. Only parameters
and indexed accesses are compiled as other types before a name is known, and a name is spelled before
it can be known; so a compilation ends unless a name is spelled from itself, or a type is in the end
compiled as itself.

Main facts: `settles_compileDescriptor` (one step) and `Arena.exists_outcome_compile`.
-/

namespace ShapeCheck

/-! ## Strategies -/

section
variable {arena : Arena} {known : Set String} {ctx : Context}
  {compile : Nat → Context → TypeId → Build String}

theorem settles_elementTests (parts : ∀ type, Settles known fun depth => compile depth ctx type)
    (elements : List TupleElement) (position : Nat) :
    Settles known fun depth => elementTests (compile depth) ctx position elements := by
  induction elements generalizing position with
  | nil => exact .pure _
  | cons element rest ih =>
    unfold elementTests
    exact (settles_compilePart (parts element.type)).bind fun name =>
      (ih (position + 1)).bind fun tests => .pure _

theorem settles_propertyTest? (parts : ∀ type, Settles known fun depth => compile depth ctx type)
    (property : Property) :
    Settles known fun depth => propertyTest? (compile depth) ctx property := by
  unfold propertyTest?
  split
  · exact .pure _
  · split
    · split
      · exact .pure _
      · exact .throw (by rintro _ ⟨⟩)
    · split
      · exact .throw (by rintro _ ⟨⟩)
      · exact (parts _).bind fun name => .pure _

theorem settles_keyLoop (parts : ∀ type, Settles known fun depth => compile depth ctx type)
    (shape : ObjectShape) : Settles known fun depth => keyLoop (compile depth) ctx shape := by
  unfold keyLoop
  split
  · exact (parts _).bind fun name => .get_bind fun r => .pure _
  · exact .pure _

theorem settles_objectBody (parts : ∀ type, Settles known fun depth => compile depth ctx type)
    (shape : ObjectShape) : Settles known fun depth => objectBody (compile depth) ctx shape := by
  unfold objectBody
  refine (Settles.filterMapM fun property _ => settles_propertyTest? parts property).bind fun tests => ?_
  exact (settles_keyLoop parts shape).bind fun loops => .pure _

theorem settles_memberCalls (parts : ∀ type, Settles known fun depth => compile depth ctx type)
    (members : List TypeId) : Settles known fun depth => memberCalls (compile depth) ctx members :=
  (Settles.mapM fun member _ => parts member).bind fun _ => .pure _

theorem Arena.conclusive_mergedShapeWithin (arena : Arena) (steps : Nat) (definition : Definition) :
    Conclusive (mergedShapeWithin arena steps definition) := by
  induction steps generalizing definition with
  | zero => nofun
  | succ steps ih =>
    unfold mergedShapeWithin
    refine definition.conclusive_requireBody.bind fun body _ => ?_
    split
    · rename_i own object
      clear object
      generalize definition.bases = bases
      induction bases generalizing own with
      | nil => exact conclusive_ok own
      | cons base rest below =>
        rw [List.foldlM_cons]
        refine Conclusive.bind ?_ fun shape _ => below shape
        split
        · refine (arena.conclusive_target base _).bind fun inherited _ => ?_
          exact (ih inherited).bind fun _ _ => conclusive_ok _
        · nofun
    · nofun

theorem settles_referenceBody
    (parts : ∀ inside : Context, inside.IsOver arena → ∀ type,
      Settles known fun depth => compile depth inside type)
    (based : ctx.IsOver arena) {type : TypeId} {target : DefinitionId} {definition : Definition}
    {arguments : List TypeId} (found : ctx.arena.lookup? type = some (.reference target arguments))
    (leads : ctx.arena.definition? target = some definition) :
    Settles known fun depth => referenceBody (compile depth) ctx definition arguments := by
  unfold referenceBody
  refine .lift_bind (ctx.conclusive_enter definition arguments) fun inside entered => ?_
  refine .lift_bind definition.conclusive_requireBody fun body _ => ?_
  have there : inside.IsOver arena := based.enter found leads entered
  split
  · exact (parts inside there body).bind fun name => .pure _
  · exact .lift_bind (Arena.conclusive_mergedShapeWithin _ _ _) fun shape _ =>
      settles_objectBody (parts inside there) shape

variable (names : arena.NamesEnd)
include names

theorem settles_intersectionCheck
    (parts : ∀ inside : Context, inside.IsOver arena → ∀ type,
      Settles known fun depth => compile depth inside type)
    (based : ctx.IsOver arena) (type : TypeId) (members : List TypeId) :
    Settles known fun depth => intersectionCheck depth (compile depth) ctx type members := by
  unfold intersectionCheck
  refine (settles_memberCalls (parts _ (based.withExact false)) members).bind fun calls => ?_
  split
  · refine (Settles.lift (settled_collectKeys names based type)).bind fun found => ?_
    cases found with
    | none => exact .pure _
    | some keys => exact (Settles.ensure fun _ => .pure _).bind fun name => .pure _
  · exact .pure _

theorem settles_keyofCheck (based : ctx.IsOver arena) (operand : TypeId) :
    Settles known fun depth => keyofCheck depth ctx operand := by
  unfold keyofCheck
  refine (Settles.lift (settled_collectKeys names based operand)).bind fun found => ?_
  cases found with
  | none => exact .pure _
  | some keys => exact .pure _

theorem settles_compileIndexAccess (based : ctx.IsOver arena) {type whole index : TypeId}
    (found : ctx.arena.lookup? type = some (.indexAccess whole index))
    (members : ∀ goal, Context.LeadsTo (ctx, type) goal →
      Settles known fun depth => compile depth goal.1 goal.2) :
    Settles known fun depth => compileIndexAccess depth (compile depth) ctx type whole index := by
  unfold compileIndexAccess
  refine (Settles.lift (settled_indexKeys names based index)).bind_of_gives fun keys given => ?_
  obtain ⟨depth, r, r', given⟩ := given
  have indexed : ctx.indexKeys depth index = .ok keys :=
    (Keeps.lift (I := fun _ => True) (fun _ made => made) r keys r' given trivial).2
  have selected : ∀ key ∈ keys,
      Settles known fun depth => selectedMembers depth (compile depth) ctx type whole key := by
    intro key inside
    unfold selectedMembers
    refine (settles_membersWithin fun member selects =>
      members member (.member found indexed inside selects)).bind fun names' => ?_
    split
    · exact (Settles.lift (settled_nameOf names based type)).bind fun name => .throw nofun
    · exact .pure _
  refine (Settles.mapM selected).bind fun lists => ?_
  split
  · exact .throw nofun
  · exact .pure _
  · exact (Settles.lift (settled_nameOf names based type)).bind fun name => .ensureExpr fun _ => .pure _

/-- A type settles if all types do once one more name is known, and the types do that it is compiled as
before that. -/
theorem settles_compileDescriptor (based : ctx.IsOver arena) {type : TypeId} {descriptor : Descriptor}
    (found : ctx.arena.lookup? type = some descriptor)
    (guarded : ∀ name depth, ctx.nameOf depth type = .ok name → name ∉ known →
      ∀ inside : Context, inside.IsOver arena → ∀ part,
        Settles (insert name known) fun depth => compile depth inside part)
    (unguarded : ∀ goal, Context.LeadsTo (ctx, type) goal →
      Settles known fun depth => compile depth goal.1 goal.2) :
    Settles known fun depth => compileDescriptor depth (compile depth) ctx type descriptor := by
  have building {body : Nat → Build (List Stmt)}
      (h : ∀ known', (∀ inside : Context, inside.IsOver arena → ∀ part,
        Settles known' fun depth => compile depth inside part) → Settles known' body) :
      Settles known fun depth =>
        (do Build.ensure (← ctx.nameOf depth type) none (body depth) : Build String) := by
    refine (Settles.lift (settled_nameOf names based type)).bind_of_gives fun name given => ?_
    obtain ⟨depth, r, r', given⟩ := given
    have named : ctx.nameOf depth type = .ok name :=
      (Keeps.lift (I := fun _ => True) (fun _ made => made) r name r' given trivial).2
    exact .ensure fun fresh => h _ (guarded name depth named fresh)
  have buildingExpr {body : Nat → Build Expr}
      (h : ∀ known', (∀ inside : Context, inside.IsOver arena → ∀ part,
        Settles known' fun depth => compile depth inside part) → Settles known' body) :
      Settles known fun depth =>
        (do Build.ensureExpr (← ctx.nameOf depth type) none (body depth) : Build String) :=
    building fun known' parts => (h known' parts).bind fun e => .pure [Stmt.result e]
  unfold compileDescriptor
  split
  · exact .ensureExpr fun _ => .pure _
  · cases descriptor with
    | array element =>
      refine building fun known' parts => (parts ctx based element).bind fun name => .get_bind fun r => ?_
      split <;> exact .pure _
    | tuple elements =>
      exact buildingExpr fun known' parts =>
        (settles_elementTests (parts ctx based) elements 0).bind fun tests => .pure _
    | object shape => exact building fun known' parts => settles_objectBody (parts ctx based) shape
    | union members =>
      refine buildingExpr fun known' parts => ?_
      unfold unionCheck
      split
      · exact .pure _
      · exact (settles_memberCalls (parts ctx based) members).bind fun calls => .pure _
    | intersection members =>
      exact buildingExpr fun known' parts => settles_intersectionCheck names parts based type members
    | reference target arguments =>
      refine .lift_bind (ctx.arena.conclusive_target type target) fun definition leads => ?_
      rw [Arena.target_eq_ok] at leads
      exact building fun known' parts => settles_referenceBody parts based found leads
    | parameter id =>
      refine .lift_bind (ctx.conclusive_resolve id) fun stands resolved => ?_
      exact unguarded stands.swap (.parameter found resolved)
    | indexAccess whole index => exact settles_compileIndexAccess names based found unguarded
    | keyof operand => exact buildingExpr fun known' _ => settles_keyofCheck names based operand
    | _ => exact .throw nofun

end

/-! ## Contexts that are reached -/

section
variable {arena : Arena} {ctx : Context} {type : TypeId}

theorem Context.IsOver.selects {key : IndexKey} {steps : Nat} {member : Context × TypeId}
    (based : ctx.IsOver arena) (selects : ctx.Selects key steps type member) :
    member.1.IsOver arena := by
  induction steps generalizing ctx type with
  | zero => exact selects.elim
  | succ steps ih =>
    unfold Context.Selects at selects
    split at selects
    · rename_i found
      obtain ⟨definition, inside, body, part, leads, entered, -, -, selects⟩ := selects
      exact ih (based.enter found leads entered) selects
    · obtain ⟨target, visible, resolved, selects⟩ := selects
      exact ih (based.resolve resolved) selects
    · obtain ⟨part, -, selects⟩ := selects
      exact ih based selects
    · obtain ⟨part, -, selects⟩ := selects
      exact ih based selects
    · exact selects.1 ▸ based
    · exact selects.elim

theorem Context.IsOver.leadsTo {goal : Context × TypeId} (based : ctx.IsOver arena)
    (leads : Context.LeadsTo (ctx, type) goal) : goal.1.IsOver arena := by
  cases leads with
  | parameter _ stands => exact based.resolve stands
  | member _ _ _ selects => exact based.selects selects

/-- What can be compiled: the handles of an arena in the contexts over it. -/
def Arena.goals (arena : Arena) : Set (Context × TypeId) := {ctx | ctx.IsOver arena} ×ˢ arena.handles

theorem Arena.finite_goals (arena : Arena) : arena.goals.Finite :=
  (Context.finite_isOver arena).prod arena.finite_handles

/-- Nothing is compiled as itself before a name is known: no member that an indexed access selects is,
in the end, the same access. -/
def Arena.AccessesEnd (arena : Arena) : Prop :=
  ∀ ctx type, ctx.IsOver arena → ¬ Relation.TransGen Context.LeadsTo (ctx, type) (ctx, type)

theorem acc_leadsTo (accesses : arena.AccessesEnd) (based : ctx.IsOver arena) (type : TypeId) :
    Acc (fun b a => Context.LeadsTo a b) (ctx, type) := by
  have known_of_leadsTo {a b : Context × TypeId} (based : a.1.IsOver arena)
      (leads : Context.LeadsTo a b) : a ∈ arena.goals := by
    refine ⟨based, ?_⟩
    have same := based.arena_eq
    cases leads with
    | parameter found => exact ⟨_, same ▸ found⟩
    | member found => exact ⟨_, same ▸ found⟩
  have ends : ∀ goal ∈ arena.goals, Acc (fun b a => Context.LeadsTo a b) goal := by
    refine acc_of_acyclic arena.finite_goals (fun a inside b leads => ?_) fun goal inside =>
      accesses _ _ inside.1
    have based : b.1.IsOver arena := Context.IsOver.leadsTo inside.1 leads
    by_cases known : b ∈ arena.goals
    · exact .inl known
    · exact .inr fun c leads' => known (known_of_leadsTo based leads')
  by_cases known : (ctx, type) ∈ arena.goals
  · exact ends _ known
  · exact ⟨_, fun b leads => absurd (known_of_leadsTo based leads) known⟩

/-! ## Names that are to be had -/

/-- The names of types, whatever their parameters stand for. -/
def Arena.allNames (arena : Arena) : Set String :=
  {name | ∃ (ctx : Context) (type : TypeId) (depth : Nat),
    ctx.IsOver arena ∧ ctx.nameOf depth type = .ok name}

theorem finite_allNames (arena : Arena) : arena.allNames.Finite := by
  have single (goal : Context × TypeId) :
      {name | ∃ depth, goal.1.nameOf depth goal.2 = .ok name}.Finite := by
    refine Set.Subsingleton.finite ?_
    rintro name ⟨depth, named⟩ name' ⟨depth', named'⟩
    have here := typeNameWithin_mono (le_max_left depth depth') _ _ _ name named
    have there := typeNameWithin_mono (le_max_right depth depth') _ _ _ name' named'
    exact Except.ok.inj (here.symm.trans there)
  refine (arena.finite_goals.biUnion fun goal _ => single goal).subset ?_
  rintro name ⟨ctx, type, depth, based, named⟩
  refine Set.mem_biUnion (x := (ctx, type)) ⟨based, ?_⟩ ⟨depth, named⟩
  obtain ⟨rfl, -⟩ := based
  cases depth with
  | zero => cases named
  | succ depth =>
    obtain ⟨descriptor, found, -⟩ := bind_eq_ok.1 named
    exact ⟨descriptor, Arena.lookup_eq_ok.1 found⟩

/-! ## Every compilation -/

/-- Where neither names nor accesses come back to themselves, every type settles. -/
theorem settles_compileWithin (names : arena.NamesEnd) (accesses : arena.AccessesEnd)
    (known : Set String) (based : ctx.IsOver arena) (type : TypeId) :
    Settles known fun depth => compileWithin depth ctx type := by
  -- outside on the names that are left, inside on the types that lead on before one more is known
  induction left : (arena.allNames \ known).ncard using Nat.strong_induction_on
    generalizing known ctx type with
  | h count outer =>
    subst left
    have chain := acc_leadsTo accesses based type
    generalize same : (ctx, type) = goal at chain
    induction chain generalizing ctx type with
    | intro goal _ inner =>
      subst same
      refine .of_succ ?_
      unfold compileWithin
      refine .lift_bind (ctx.arena.conclusive_lookup type) fun descriptor found => ?_
      rw [Arena.lookup_eq_ok] at found
      refine settles_compileDescriptor names based found ?_ fun goal leads =>
        inner goal leads (based.leadsTo leads) goal.2 rfl
      intro name depth named fresh inside there part
      refine outer _ ?_ _ there part rfl
      have listed : name ∈ arena.allNames := ⟨ctx, type, depth, based, named⟩
      refine Set.ncard_lt_ncard ⟨?_, ?_⟩ (finite_allNames arena).sdiff
      · exact Set.sdiff_subset_sdiff_right (Set.subset_insert name known)
      · intro all
        exact (all ⟨listed, fresh⟩).2 (Set.mem_insert name known)

end

end ShapeCheck
