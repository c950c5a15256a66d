import ShapeCheck.Proofs.Compilation.Stages
import ShapeCheck.Proofs.Recursion.Strategies
import ShapeCheck.Proofs.Termination.Documents

set_option autoImplicit false

/-! # Recursion that consumes its input

The predicate of a type hands its value on to those of the members of a union or intersection, and to
the body of a reference. If no type comes back to itself in this way, and types that share a name unfold
to types that share names, then no chain of such calls comes back to the predicate where it started:
every recursion goes on with a part of the value.

Names alone do not keep all types apart: a union all of whose members have one name has that name as
well, and its predicate then calls itself.

Main fact: `Arena.not_transGen_forwards`.
-/

namespace ShapeCheck

open Context

/-! ## Types that are guarded -/

/-- There are finitely many types in contexts, so guarded types hand a value on finitely often. -/
theorem acc_passes {arena : Arena} {root goal : Context × TypeId} (based : root.1.IsOver arena)
    (guarded : IsGuarded root) (reached : Reaches root goal) :
    Acc (fun b a => Passes a b) goal := by
  let goals : Set (Context × TypeId) :=
    {goal | Reaches root goal ∧ goal.1.IsOver arena ∧ goal.2 ∈ arena.handles}
  have finite : goals.Finite :=
    ((Context.finite_isOver arena).prod arena.finite_handles).subset fun goal known => known.2
  have known_of_passes {a b : Context × TypeId} (reached : Reaches root a) (step : Passes a b) :
      a ∈ goals := by
    have there := based.reaches reached
    refine ⟨reached, there, ?_⟩
    have same := there.arena_eq
    cases step with
    | parameter found => exact ⟨_, same ▸ found⟩
    | alternative found => exact ⟨_, same ▸ found⟩
    | conjunct found => exact ⟨_, same ▸ found⟩
    | body found => exact ⟨_, same ▸ found⟩
  have ends : ∀ goal ∈ goals, Acc (fun b a => Passes a b) goal := by
    refine acc_of_acyclic finite (fun a inside b step => ?_) fun goal inside => guarded goal inside.1
    by_cases known : b ∈ goals
    · exact .inl known
    · exact .inr fun c next => known (known_of_passes (inside.1.tail (.inl step)) next)
  by_cases known : goal ∈ goals
  · exact ends goal known
  · exact ⟨_, fun b step => absurd (known_of_passes reached step) known⟩

/-! ## Chains of calls -/

section
variable {root : Context × TypeId}

/-- A type of the first name hands its value on to one of the second name. -/
def Hands (root : Context × TypeId) (f g : String) : Prop :=
  ∃ goal next, Reaches root goal ∧ IsNamed goal f ∧ Passes goal next ∧ IsNamed next g

/-- A name that is called and that calls is that of a type, and so is one that it calls. -/
theorem hands_of_forwards {v : Validator} (all : ∀ p ∈ v.predicates, p.IsOf root)
    (apart : ToldApart root) {e f g h : String} (before : v.Forwards e f) (here : v.Forwards f g)
    (after : v.Forwards g h) : Hands root f g := by
  have not_keys {name next : String} (forwards : v.Forwards name next) (keys : List String) :
      name ≠ exactKeysName keys := by
    rintro rfl
    obtain ⟨p, listed, isNamed, own⟩ := forwards
    cases all p listed with
    | type reached named => exact apart.keys _ _ reached (isNamed ▸ named)
    | optional _ _ wraps => exact optionalName_ne_exactKeysName _ _ (wraps.symm.trans isNamed)
    | keys _ none =>
      rw [none] at own
      cases own
  have not_optional (inner : String) : f ≠ optionalName inner := by
    rintro rfl
    obtain ⟨p, listed, -, own⟩ := before
    cases all p listed with
    | type reached _ calls =>
      rcases calls _ own with ⟨next, step, named⟩ | ⟨keys, same⟩
      · exact apart.optional _ _ (reached.tail (.inl step)) named
      · exact optionalName_ne_exactKeysName _ _ same
    | optional reached named _ calls => exact apart.optional _ _ reached (calls _ own ▸ named)
    | keys _ none =>
      rw [none] at own
      cases own
  obtain ⟨p, listed, rfl, own⟩ := here
  cases all p listed with
  | type reached named calls =>
    rcases calls g own with ⟨next, step, named'⟩ | ⟨keys, same⟩
    · exact ⟨_, next, reached, named, step, named'⟩
    · exact absurd same (not_keys after keys)
  | optional _ _ wraps => exact absurd wraps (not_optional _)
  | keys same => exact absurd same (not_keys ⟨p, listed, rfl, own⟩ _)

theorem not_transGen_hands (apart : ToldApart root) {goal : Context × TypeId}
    (ends : Acc (fun b a => Passes a b) goal) (reached : Reaches root goal) {f : String}
    (named : IsNamed goal f) : ¬ Relation.TransGen (Hands root) f f := by
  induction ends generalizing f with
  | intro goal _ ih =>
    intro cycle
    obtain ⟨g, ⟨other, next, reached', named', step, called⟩, back⟩ := Relation.TransGen.head'_iff.1 cycle
    obtain ⟨next', step', same⟩ := apart.unfold other goal f reached' reached named' named next step
    have again : Relation.TransGen (Hands root) g g :=
      .tail' back ⟨other, next, reached', named', step, called⟩
    exact ih next' step' (reached.tail (.inl step')) (same g called) again

/-- Steps in the middle of a chain. -/
theorem transGen_of_inner {R S : String → String → Prop}
    (inner : ∀ e f g h, R e f → R f g → R g h → S f g) {e f g h : String} (before : R e f)
    (chain : Relation.TransGen R f g) (after : R g h) : Relation.TransGen S f g := by
  induction chain using Relation.TransGen.head_induction_on generalizing e with
  | single step => exact .single (inner _ _ _ _ before step after)
  | head step rest ih =>
    obtain ⟨next, step', -⟩ := Relation.TransGen.head'_iff.1 rest
    exact .head (inner _ _ _ _ before step step') (ih step)

end

/-- What falls at every step comes back nowhere. -/
theorem isGuarded_of_rank {root : Context × TypeId} (rank : TypeId → Nat)
    (falls : ∀ a b, Reaches root a → Passes a b → rank b.2 < rank a.2) : IsGuarded root := by
  intro goal reached cycle
  have below : ∀ next, Relation.TransGen Passes goal next →
      Reaches root next ∧ rank next.2 < rank goal.2 := by
    intro next steps
    induction steps with
    | single step => exact ⟨reached.tail (.inl step), falls _ _ reached step⟩
    | tail _ step ih => exact ⟨ih.1.tail (.inl step), Nat.lt_trans (falls _ _ ih.1 step) ih.2⟩
  exact Nat.lt_irrefl _ (below goal cycle).2

/-! ## A recursive union -/

/-- A list is null or a cell, and a cell is a number and the next list. -/
def cells : Arena where
  descriptors := Arena.initial.descriptors ++
    #[.reference ⟨0⟩ [], .reference ⟨1⟩ [], .union [⟨3⟩, ⟨15⟩], .tuple [⟨⟨5⟩, false⟩, ⟨⟨14⟩, false⟩]]
  parameters := #[]
  definitions := #[⟨"List", [], some ⟨16⟩, []⟩, ⟨"Cell", [], some ⟨17⟩, []⟩]

/-- The types that are compiled for a list, with their names. -/
def cellNames : List (TypeId × String) :=
  [(⟨14⟩, "List"), (⟨15⟩, "Cell"), (⟨16⟩, "Cell | null"), (⟨17⟩, "[number, List]"), (⟨3⟩, "null"),
    (⟨5⟩, "number")]

/-- The options of a plain compilation. -/
def plainOptions : CompileOptions := { inlineTrivialPredicates := false }

/-- The types that follow one of the arena, in the same context. -/
def followingCells (type : TypeId) : List TypeId :=
  match cells.lookup? type with
  | some (.reference target _) => ((cells.definition? target).bind Definition.body).toList
  | some descriptor => descriptor.children
  | none => []

theorem cells_step {ctx : Context} {type : TypeId} {next : Context × TypeId}
    (same : ctx = Context.root cells plainOptions)
    (step : Passes (ctx, type) next ∨ Inspects (ctx, type) next) :
    next.1 = ctx ∧ next.2 ∈ followingCells type := by
  have plain : ∀ definition ∈ cells.definitions, definition.parameters = [] ∧ definition.bases = [] := by
    decide
  have closed : ∀ descriptor ∈ cells.descriptors, ∀ id, descriptor ≠ .parameter id := by
    have all : ∀ descriptor ∈ cells.descriptors, descriptor.strategy ≠ .parameter := by decide
    rintro descriptor inside id rfl
    exact all _ inside rfl
  have entered {target : DefinitionId} {definition : Definition} {arguments : List TypeId}
      {inside : Context} (leads : cells.definition? target = some definition)
      (entered : ctx.enter definition arguments = .ok inside) : inside = ctx := by
    rw [ctx.enter_of_monomorphic (plain definition (Array.mem_of_getElem? leads))] at entered
    exact (Except.ok.inj entered).symm
  subst same
  rcases step with step | step
  · cases step with
    | parameter found => exact absurd rfl (closed _ (Array.mem_of_getElem? found) _)
    | alternative found inside =>
      refine ⟨rfl, ?_⟩
      simp only [followingCells, show cells.lookup? type = _ from found]
      exact inside
    | conjunct found inside =>
      refine ⟨rfl, ?_⟩
      simp only [followingCells, show cells.lookup? type = _ from found]
      exact inside
    | body found leads enters given =>
      refine ⟨entered leads enters, ?_⟩
      simp only [followingCells, show cells.lookup? type = _ from found, show cells.definition? _ = _ from leads,
        Option.bind_some, given]
      exact List.mem_singleton.2 rfl
  · cases step with
    | element found =>
      refine ⟨rfl, ?_⟩
      simp only [followingCells, show cells.lookup? type = _ from found]
      exact List.mem_singleton.2 rfl
    | position found inside =>
      refine ⟨rfl, ?_⟩
      simp only [followingCells, show cells.lookup? type = _ from found]
      exact List.mem_map_of_mem inside
    | member found inside =>
      refine ⟨rfl, ?_⟩
      simp only [followingCells, show cells.lookup? type = _ from found]
      exact inside
    | inherited found leads enters derived =>
      exact absurd (plain _ (Array.mem_of_getElem? leads)).2 derived

theorem mem_cellNames {goal : Context × TypeId}
    (reached : Reaches (rootGoal cells plainOptions ⟨14⟩) goal) :
    goal.1 = Context.root cells plainOptions ∧ goal.2 ∈ cellNames.map Prod.fst := by
  have closed : ∀ type ∈ cellNames.map Prod.fst, ∀ next ∈ followingCells type,
      next ∈ cellNames.map Prod.fst := by decide
  induction reached with
  | refl => exact ⟨rfl, by decide⟩
  | tail _ step ih =>
    obtain ⟨same, listed⟩ := ih
    obtain ⟨stays, follows⟩ := cells_step same step
    exact ⟨stays.trans same, closed _ listed _ follows⟩

theorem mem_cellNames_of_isNamed {goal : Context × TypeId} {name : String}
    (reached : Reaches (rootGoal cells plainOptions ⟨14⟩) goal) (named : IsNamed goal name) :
    goal.1 = Context.root cells plainOptions ∧ (goal.2, name) ∈ cellNames := by
  have spelled : ∀ entry ∈ cellNames,
      (Context.root cells plainOptions).nameOf 10 entry.1 = .ok entry.2 := by decide
  obtain ⟨same, listed⟩ := mem_cellNames reached
  obtain ⟨entry, inside, is⟩ := List.mem_map.1 listed
  have own : IsNamed goal entry.2 := ⟨10, by rw [same, ← is]; exact spelled entry inside⟩
  refine ⟨same, ?_⟩
  rw [named.unique own, ← is]
  exact inside

theorem cells_toldApart : ToldApart (rootGoal cells plainOptions ⟨14⟩) where
  unfold := by
    intro a b name reached reached' named named' c step
    have distinct : ∀ one ∈ cellNames, ∀ two ∈ cellNames, one.2 = two.2 → one = two := by decide
    obtain ⟨same, listed⟩ := mem_cellNames_of_isNamed reached named
    obtain ⟨same', listed'⟩ := mem_cellNames_of_isNamed reached' named'
    have types : a.2 = b.2 := congrArg Prod.fst (distinct _ listed _ listed' rfl)
    have goals : a = b := Prod.ext (same.trans same'.symm) types
    exact ⟨c, goals ▸ step, fun _ => id⟩
  optional := by
    intro a inner reached named
    have starts : ∀ entry ∈ cellNames, entry.2.toList.head? ≠ some 'o' := by decide
    refine starts _ (mem_cellNames_of_isNamed reached named).2 ?_
    simp [optionalName]
  keys := by
    intro a keys reached named
    have starts : ∀ entry ∈ cellNames, entry.2.toList.head? ≠ some 'k' := by decide
    refine starts _ (mem_cellNames_of_isNamed reached named).2 ?_
    simp [exactKeysName]

/-- How far a type is from one that looks at parts of the value. -/
def cellRank (type : TypeId) : Nat :=
  if type = ⟨14⟩ then 3 else if type = ⟨16⟩ then 2 else if type = ⟨15⟩ then 1 else 0

theorem cells_isGuarded : IsGuarded (rootGoal cells plainOptions ⟨14⟩) := by
  have falls : ∀ type ∈ cellNames.map Prod.fst, cells.strategy type ≠ .tuple →
      ∀ next ∈ followingCells type, cellRank next < cellRank type := by decide
  refine isGuarded_of_rank cellRank fun a b reached step => ?_
  obtain ⟨same, listed⟩ := mem_cellNames reached
  refine falls a.2 listed (fun isTuple => ?_) b.2 (cells_step same (.inl step)).2
  unfold Arena.strategy at isTuple
  cases step with
  | parameter found | alternative found | conjunct found | body found =>
    rw [← show _ = cells from congrArg Context.arena same, found] at isTuple
    cases isTuple

/-- `W<T>` is `T | string`, and the root is `W<string>`. -/
def textOrText : Arena where
  descriptors := Arena.initial.descriptors ++
    #[.parameter ⟨0⟩, .union [⟨14⟩, .ofKeyword .string], .reference ⟨0⟩ [.ofKeyword .string]]
  parameters := #[⟨"T", none⟩]
  definitions := #[⟨"W", [⟨0⟩], some ⟨15⟩, []⟩]

/-- What a type of this arena leads to at once, apart from arguments. -/
def textOrTextParts : Option Descriptor → List TypeId
  | some (.union members) => members
  | some (.intersection members) => members
  | some (.reference _ _) => [⟨15⟩]
  | _ => []

theorem textOrText_isGuarded : IsGuarded (rootGoal textOrText plainOptions ⟨16⟩) := by
  -- the reference before the union, the union before the parameter, and that before its argument
  let rank (type : TypeId) : Nat := type.index - 13
  have bare : textOrText.IsBare := ⟨by decide, by decide⟩
  have passed : ∀ descriptor ∈ textOrText.descriptors, ∀ type ∈ descriptor.arguments, rank type = 0 := by
    decide
  have parameters : ∀ type, textOrText.strategy type = .parameter → 0 < rank type := by
    intro type isParameter
    by_cases small : type.index < 14
    · have all : ∀ i < 14, textOrText.strategy ⟨i⟩ ≠ .parameter := by decide
      exact absurd isParameter (all type.index small)
    · simp only [rank]
      omega
  have members : ∀ i < 17, ∀ member ∈ textOrTextParts (textOrText.lookup? ⟨i⟩),
      rank member < rank ⟨i⟩ := by decide
  have falls {type member : TypeId} {descriptor : Descriptor}
      (found : textOrText.lookup? type = some descriptor)
      (inside : member ∈ textOrTextParts (some descriptor)) : rank member < rank type := by
    have known : type.index < 17 := (Array.getElem?_eq_some_iff.1 found).1
    rw [← found] at inside
    exact members type.index known member inside
  refine isGuarded_of_rank rank fun a b reached step => ?_
  have based : a.1.IsOver textOrText := (isOver_root textOrText plainOptions).reaches reached
  have same := based.arena_eq
  cases step with
  | @parameter ctx visible type target id found stands =>
    rw [same] at found
    obtain ⟨⟨target', s⟩, resolved, made⟩ := bind_eq_ok.1 stands
    cases made
    rw [same] at resolved
    obtain ⟨-, ⟨definition, arguments, inside, listed⟩, -⟩ :=
      resolveWithin_of_isBare bare based.substitution resolved
    have isParameter : textOrText.strategy type = .parameter := by
      simp [Arena.strategy, found, Descriptor.strategy]
    calc rank target = 0 := passed _ inside target listed
      _ < rank type := parameters type isParameter
  | @alternative ctx type member list found inside =>
    rw [same] at found
    exact falls found inside
  | @conjunct ctx type member list found inside =>
    rw [same] at found
    exact falls found inside
  | @body ctx inside type body target arguments definition found leads entered given plain =>
    rw [same] at found leads
    have only : ∀ definition ∈ textOrText.definitions, definition.body = some ⟨15⟩ := by decide
    obtain rfl : body = ⟨15⟩ := Option.some.inj (given.symm.trans (only _ (Array.mem_of_getElem? leads)))
    exact falls found (List.mem_singleton.2 rfl)

end ShapeCheck
