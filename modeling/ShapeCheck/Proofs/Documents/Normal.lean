import ShapeCheck.Descriptor.Combination
import ShapeCheck.Document.Basic
import ShapeCheck.Proofs.Repetitions

set_option autoImplicit false

/-! # Normal expressions

An arena keeps unions and intersections flat and without repetitions, so an expression that is entered is
read back in its normal form: nested unions are spread out, members that come again are left out, a single
member stands for itself, and no member at all is `never`, or `unknown` in an intersection.

Main fact: `TypeExpr.isFlat_normalize`.
-/

namespace ShapeCheck

namespace TypeExpr

/-! ## Equal expressions -/

mutual

/-- The expressions are equal. -/
def same : TypeExpr → TypeExpr → Bool
  | .keyword word, .keyword word' => word == word'
  | .buffer, .buffer => true
  | .stringLiteral value, .stringLiteral value' => value == value'
  | .numberLiteral value, .numberLiteral value' => value == value'
  | .booleanLiteral value, .booleanLiteral value' => value == value'
  | .array element, .array element' => element.same element'
  | .tuple elements, .tuple elements' => sameElements elements elements'
  | .object properties index, .object properties' index' =>
    sameProperties properties properties' && sameOption index index'
  | .union members, .union members' => sameAll members members'
  | .intersection members, .intersection members' => sameAll members members'
  | .reference target arguments, .reference target' arguments' =>
    target == target' && sameAll arguments arguments'
  | .parameter name, .parameter name' => name == name'
  | .indexAccess whole key, .indexAccess whole' key' => whole.same whole' && key.same key'
  | .keyof operand, .keyof operand' => operand.same operand'
  | .view kind, .view kind' => kind == kind'
  | _, _ => false

/-- The expressions are equal, one by one. -/
def sameAll : List TypeExpr → List TypeExpr → Bool
  | [], [] => true
  | expr :: rest, expr' :: rest' => expr.same expr' && sameAll rest rest'
  | _, _ => false

/-- Both expressions are missing, or they are equal. -/
def sameOption : Option TypeExpr → Option TypeExpr → Bool
  | none, none => true
  | some expr, some expr' => expr.same expr'
  | _, _ => false

/-- The positions of two tuples are equal. -/
def sameElements : List (TypeExpr × Bool) → List (TypeExpr × Bool) → Bool
  | [], [] => true
  | (expr, optional) :: rest, (expr', optional') :: rest' =>
    expr.same expr' && optional == optional' && sameElements rest rest'
  | _, _ => false

/-- The members of two objects are equal. -/
def sameProperties :
    List (PropertyHead × Option TypeExpr) → List (PropertyHead × Option TypeExpr) → Bool
  | [], [] => true
  | (head, expr) :: rest, (head', expr') :: rest' =>
    head == head' && sameOption expr expr' && sameProperties rest rest'
  | _, _ => false

end

mutual

theorem same_iff (expr expr' : TypeExpr) : expr.same expr' = true ↔ expr = expr' := by
  cases expr with
  | array element => cases expr' <;> simp [same, same_iff element]
  | tuple elements => cases expr' <;> simp [same, sameElements_iff elements]
  | object properties index =>
    cases expr' <;> simp [same, sameProperties_iff properties, sameOption_iff index]
  | union members => cases expr' <;> simp [same, sameAll_iff members]
  | intersection members => cases expr' <;> simp [same, sameAll_iff members]
  | reference target arguments => cases expr' <;> simp [same, sameAll_iff arguments]
  | indexAccess whole key => cases expr' <;> simp [same, same_iff whole, same_iff key]
  | keyof operand => cases expr' <;> simp [same, same_iff operand]
  | _ => cases expr' <;> simp [same]

theorem sameAll_iff (exprs exprs' : List TypeExpr) : sameAll exprs exprs' = true ↔ exprs = exprs' := by
  cases exprs with
  | nil => cases exprs' <;> simp [sameAll]
  | cons expr rest => cases exprs' <;> simp [sameAll, same_iff expr, sameAll_iff rest]

theorem sameOption_iff (expr? expr?' : Option TypeExpr) :
    sameOption expr? expr?' = true ↔ expr? = expr?' := by
  cases expr? with
  | none => cases expr?' <;> simp [sameOption]
  | some expr => cases expr?' <;> simp [sameOption, same_iff expr]

theorem sameElements_iff (elements elements' : List (TypeExpr × Bool)) :
    sameElements elements elements' = true ↔ elements = elements' := by
  cases elements with
  | nil => cases elements' <;> simp [sameElements]
  | cons element rest =>
    match element, elements' with
    | _, [] => simp [sameElements]
    | (expr, _), (_, _) :: _ => simp [sameElements, same_iff expr, sameElements_iff rest]

theorem sameProperties_iff (properties properties' : List (PropertyHead × Option TypeExpr)) :
    sameProperties properties properties' = true ↔ properties = properties' := by
  cases properties with
  | nil => cases properties' <;> simp [sameProperties]
  | cons property rest =>
    match property, properties' with
    | _, [] => simp [sameProperties]
    | (_, expr?), (_, _) :: _ => simp [sameProperties, sameOption_iff expr?, sameProperties_iff rest]

end

instance : BEq TypeExpr := ⟨same⟩

instance : LawfulBEq TypeExpr where
  eq_of_beq h := (same_iff _ _).1 h
  rfl := (same_iff _ _).2 rfl

end TypeExpr

/-! ## Unions and intersections of expressions -/

namespace Combination

/-- The members of an expression of this kind. -/
def memberExprs? : Combination → TypeExpr → Option (List TypeExpr)
  | union, .union members => some members
  | intersection, .intersection members => some members
  | _, _ => none

/-- The expression of this kind with some members. -/
def expr : Combination → List TypeExpr → TypeExpr
  | union => .union
  | intersection => .intersection

/-- The expression for no members. -/
def neutralExpr : Combination → TypeExpr
  | union => .keyword .never
  | intersection => .keyword .unknown

/-- What a member contributes: its own members if it is of this kind, and itself otherwise. -/
def spread (c : Combination) (member : TypeExpr) : List TypeExpr :=
  (c.memberExprs? member).getD [member]

/-- The normal form of an expression of this kind, if its members are in normal form. -/
def normalExpr (c : Combination) (members : List TypeExpr) : TypeExpr :=
  match (members.flatMap c.spread).eraseDups with
  | [] => c.neutralExpr
  | [member] => member
  | members => c.expr members

theorem memberExprs?_eq_some_iff {c : Combination} {whole : TypeExpr} {members : List TypeExpr} :
    c.memberExprs? whole = some members ↔ whole = c.expr members := by
  cases c <;> cases whole <;> simp [memberExprs?, expr]

end Combination

namespace TypeExpr

/-! ## Normal forms -/

mutual

/-- The expression with all its unions and intersections in normal form. -/
def normalize : TypeExpr → TypeExpr
  | .array element => .array element.normalize
  | .tuple elements => .tuple (normalizeElements elements)
  | .object properties index => .object (normalizeProperties properties) (normalizeOption index)
  | .union members => Combination.union.normalExpr (normalizeAll members)
  | .intersection members => Combination.intersection.normalExpr (normalizeAll members)
  | .reference target arguments => .reference target (normalizeAll arguments)
  | .indexAccess whole key => .indexAccess whole.normalize key.normalize
  | .keyof operand => .keyof operand.normalize
  | expr => expr

/-- The normal forms of several expressions. -/
def normalizeAll : List TypeExpr → List TypeExpr
  | [] => []
  | expr :: rest => expr.normalize :: normalizeAll rest

/-- The normal form of an expression that may be missing. -/
def normalizeOption : Option TypeExpr → Option TypeExpr
  | none => none
  | some expr => some expr.normalize

/-- The positions of a tuple, with the normal forms of their types. -/
def normalizeElements : List (TypeExpr × Bool) → List (TypeExpr × Bool)
  | [] => []
  | (expr, optional) :: rest => (expr.normalize, optional) :: normalizeElements rest

/-- The members of an object, with the normal forms of their types. -/
def normalizeProperties :
    List (PropertyHead × Option TypeExpr) → List (PropertyHead × Option TypeExpr)
  | [] => []
  | (head, expr) :: rest => (head, normalizeOption expr) :: normalizeProperties rest

end

/-- The members of a union are no unions, those of an intersection are no intersections, and so on inside
of them. -/
inductive IsFlat : TypeExpr → Prop
  | intro {whole : TypeExpr}
      (leaves : ∀ (c : Combination) members, c.memberExprs? whole = some members →
        ∀ member ∈ members, c.memberExprs? member = none)
      (parts : ∀ (c : Combination) members, c.memberExprs? whole = some members →
        ∀ member ∈ members, IsFlat member) : IsFlat whole

theorem isFlat_of_none {expr : TypeExpr} (h : ∀ c : Combination, c.memberExprs? expr = none) :
    IsFlat expr :=
  .intro (fun c _ isMembers => absurd ((h c).symm.trans isMembers) nofun)
    fun c _ isMembers => absurd ((h c).symm.trans isMembers) nofun

/-- What a flat member contributes needs no further spreading. -/
theorem IsFlat.spread {c : Combination} {expr : TypeExpr} (h : IsFlat expr) :
    ∀ leaf ∈ c.spread expr, c.memberExprs? leaf = none ∧ IsFlat leaf := by
  intro leaf inside
  unfold Combination.spread at inside
  cases isMembers : c.memberExprs? expr with
  | none =>
    rw [isMembers] at inside
    obtain rfl := List.mem_singleton.1 inside
    exact ⟨isMembers, h⟩
  | some members =>
    rw [isMembers] at inside
    cases h with
    | intro leaves parts =>
      exact ⟨leaves c members isMembers leaf inside, parts c members isMembers leaf inside⟩

theorem isFlat_normalExpr (c : Combination) {members : List TypeExpr}
    (h : ∀ member ∈ members, IsFlat member) : IsFlat (c.normalExpr members) := by
  have leaf (leaf : TypeExpr) (inside : leaf ∈ (members.flatMap c.spread).eraseDups) :
      c.memberExprs? leaf = none ∧ IsFlat leaf := by
    obtain ⟨member, listed, inside⟩ := List.mem_flatMap.1 (List.mem_eraseDups.1 inside)
    exact (h member listed).spread leaf inside
  unfold Combination.normalExpr
  generalize (members.flatMap c.spread).eraseDups = leaves at leaf
  match leaves with
  | [] => exact isFlat_of_none fun c' => by cases c <;> cases c' <;> rfl
  | [member] => exact (leaf member (List.mem_singleton_self member)).2
  | first :: second :: rest =>
    have own (c' : Combination) (inner : List TypeExpr)
        (isMembers : c'.memberExprs? (c.expr (first :: second :: rest)) = some inner) :
        c' = c ∧ inner = first :: second :: rest := by
      have whole := Combination.memberExprs?_eq_some_iff.1 isMembers
      cases c <;> cases c' <;> simp_all [Combination.expr]
    refine .intro (fun c' inner isMembers => ?_) fun c' inner isMembers => ?_ <;>
      obtain ⟨rfl, rfl⟩ := own c' inner isMembers
    · exact fun member inside => (leaf member inside).1
    · exact fun member inside => (leaf member inside).2

mutual

theorem isFlat_normalize (expr : TypeExpr) : IsFlat expr.normalize := by
  cases expr with
  | union members => exact isFlat_normalExpr .union (isFlat_normalizeAll members)
  | intersection members => exact isFlat_normalExpr .intersection (isFlat_normalizeAll members)
  | _ =>
    refine isFlat_of_none fun c => ?_
    cases c <;> rfl

theorem isFlat_normalizeAll (exprs : List TypeExpr) : ∀ expr ∈ normalizeAll exprs, IsFlat expr := by
  cases exprs with
  | nil => exact nofun
  | cons expr rest =>
    rintro other (_ | ⟨_, later⟩)
    · exact isFlat_normalize expr
    · exact isFlat_normalizeAll rest other later

end

end TypeExpr

end ShapeCheck
