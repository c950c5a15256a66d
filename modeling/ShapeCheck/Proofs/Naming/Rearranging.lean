import ShapeCheck.Compile.Basic
import ShapeCheck.Proofs.Agreement.Registries
import ShapeCheck.Proofs.Inheritance.Keys
import ShapeCheck.Proofs.Naming.Depth
import ShapeCheck.Proofs.Simulation.Descriptors

set_option autoImplicit false

/-! # Names and the order of members

Types that differ in the order of properties, or in the order and repetition of the members of unions
and intersections, have the same name, at whatever level they differ. Members are named first and
sorted afterwards, so related members have to have equal names before they are compared: the relation
is one on whole types, closed under taking parts (`Arena.IsRearrangement`).

Main fact: `Arena.named_alike_of_rearranged`.
-/

namespace ShapeCheck

/-! ## Types that differ in order -/

/-- Every member of either list is related to one of the other. -/
structure SameMembers (R : TypeId → TypeId → Prop) (members members' : List TypeId) : Prop where
  left : ∀ a ∈ members, ∃ b ∈ members', R a b
  right : ∀ b ∈ members', ∃ a ∈ members, R a b

/-- The shapes have the same properties in some order, and the same index signature. -/
structure ObjectShape.Rearranges (R : TypeId → TypeId → Prop) (shape shape' : ObjectShape) : Prop where
  properties : ∃ permuted, shape.properties.Perm permuted ∧
    List.Forall₂ (Property.Pairs R) permuted shape'.properties
  index : Option.Rel R shape.index shape'.index

namespace Descriptor

/-- The descriptors say the same of related parts, whatever the order of properties and however members
are ordered and repeated. -/
inductive Rearranges (R : TypeId → TypeId → Prop) : Descriptor → Descriptor → Prop
  | same (descriptor : Descriptor) : Rearranges R descriptor descriptor
  | array {element element' : TypeId} (h : R element element') :
      Rearranges R (.array element) (.array element')
  | tuple {elements elements' : List TupleElement}
      (h : List.Forall₂ (TupleElement.Pairs R) elements elements') :
      Rearranges R (.tuple elements) (.tuple elements')
  | object {shape shape' : ObjectShape} (h : shape.Rearranges R shape') :
      Rearranges R (.object shape) (.object shape')
  | union {members members' : List TypeId} (h : SameMembers R members members') :
      Rearranges R (.union members) (.union members')
  | intersection {members members' : List TypeId} (h : SameMembers R members members') :
      Rearranges R (.intersection members) (.intersection members')
  | reference (target : DefinitionId) {arguments arguments' : List TypeId}
      (h : List.Forall₂ R arguments arguments') :
      Rearranges R (.reference target arguments) (.reference target arguments')
  | indexAccess {whole whole' key key' : TypeId} (h : R whole whole') (h' : R key key') :
      Rearranges R (.indexAccess whole key) (.indexAccess whole' key')
  | keyof {operand operand' : TypeId} (h : R operand operand') :
      Rearranges R (.keyof operand) (.keyof operand')

end Descriptor

namespace Arena

/-- Related types are equal, or have related parts in some order. -/
def IsRearrangement (arena : Arena) (R : TypeId → TypeId → Prop) : Prop :=
  ∀ a b, R a b → a = b ∨ ∃ d d', arena.lookup? a = some d ∧ arena.lookup? b = some d' ∧ d.Rearranges R d'

/-- The types are equal up to the order of properties and the order and repetition of the members of
unions and intersections, at every level. -/
def Rearranged (arena : Arena) (a b : TypeId) : Prop := ∃ R, arena.IsRearrangement R ∧ R a b

end Arena

/-! ## Either way around -/

theorem ObjectShape.Rearranges.flip {R : TypeId → TypeId → Prop} {shape shape' : ObjectShape}
    (h : shape.Rearranges R shape') : shape'.Rearranges (flip R) shape := by
  obtain ⟨permuted, order, pairs⟩ := h.properties
  obtain ⟨permuted', pairs', order'⟩ := List.perm_comp_forall₂ order pairs
  refine ⟨⟨permuted', order'.symm, ?_⟩, optionRel_flip h.index⟩
  exact pairs'.flip.imp fun _ _ pair => pair.flip

theorem Descriptor.Rearranges.flip {R : TypeId → TypeId → Prop} {d d' : Descriptor}
    (h : d.Rearranges R d') : d'.Rearranges (flip R) d := by
  cases h with
  | same => exact .same d
  | array related => exact .array related
  | tuple related => exact .tuple (related.flip.imp fun _ _ pair => pair.flip)
  | object related => exact .object related.flip
  | union related => exact .union ⟨related.right, related.left⟩
  | intersection related => exact .intersection ⟨related.right, related.left⟩
  | reference target related => exact .reference target related.flip
  | indexAccess whole key => exact .indexAccess whole key
  | keyof related => exact .keyof related

theorem Arena.IsRearrangement.flip {arena : Arena} {R : TypeId → TypeId → Prop}
    (h : arena.IsRearrangement R) : arena.IsRearrangement (flip R) := by
  intro a b related
  rcases h b a related with rfl | ⟨d, d', found, found', parts⟩
  · exact .inl rfl
  · exact .inr ⟨d', d, found', found, parts.flip⟩

/-! ## Names of lists -/

section
variable {ε α β : Type} {as as' : List α} {ns : List β} {f : α → Except ε β}

theorem extends_mapM_of_forall₂ {g : α → Except ε β}
    (h : List.Forall₂ (fun a b => Extends (f a) (g b)) as as') :
    Extends (as.mapM f) (as'.mapM g) := by
  intro ns made
  rw [mapM_eq_ok] at made ⊢
  induction h generalizing ns with
  | nil =>
    cases made
    exact .nil
  | cons here _ ih =>
    cases made with
    | cons first rest => exact .cons (here _ first) (ih _ rest)

theorem exists_mapM_eq_ok (h : ∀ a ∈ as, ∃ b, f a = .ok b) : ∃ ns, as.mapM f = .ok ns := by
  induction as with
  | nil => exact ⟨[], rfl⟩
  | cons a rest ih =>
    obtain ⟨first, below⟩ := List.forall_mem_cons.1 h
    obtain ⟨b, here⟩ := first
    obtain ⟨ns, made⟩ := ih below
    exact ⟨b :: ns, mapM_eq_ok.2 (.cons here (mapM_eq_ok.1 made))⟩

theorem mapM_eq_ok_of_perm (order : as.Perm as') (made : as.mapM f = .ok ns) :
    ∃ ns', as'.mapM f = .ok ns' ∧ ns.Perm ns' := by
  obtain ⟨ns', each, order'⟩ := List.perm_comp_forall₂ order.symm (mapM_eq_ok.1 made)
  exact ⟨ns', mapM_eq_ok.2 each, order'.symm⟩

end

namespace Text

theorem sort_eq_of_perm {texts texts' : List String} (order : texts.Perm texts') :
    sort texts = sort texts' := by
  have ascends (texts : List String) : (sort texts).Pairwise (· ≤ ·) := by
    have sorted : (sort texts).Pairwise fun a b => atMost a b = true :=
      List.pairwise_mergeSort
        (fun a b c first second => by
          simp only [atMost, Bool.not_eq_true', decide_eq_false_iff_not, String.not_lt] at first second ⊢
          exact String.le_trans first second)
        (fun a b => by
          simp only [atMost, Bool.or_eq_true, Bool.not_eq_true', decide_eq_false_iff_not, String.not_lt]
          exact String.le_total a b) texts
    exact sorted.imp fun {a b} atMost_ => by
      simpa only [atMost, Bool.not_eq_true', decide_eq_false_iff_not, String.not_lt] using atMost_
  refine List.Perm.eq_of_pairwise (fun a b _ _ => String.le_antisymm) (ascends texts) (ascends texts') ?_
  exact (List.mergeSort_perm texts _).trans (order.trans (List.mergeSort_perm texts' _).symm)

theorem sortUnique_eq_of_mem_iff {texts texts' : List String} (same : ∀ text, text ∈ texts ↔ text ∈ texts') :
    sortUnique texts = sortUnique texts' :=
  eq_of_mem_iff (pairwise_sortUnique texts) (pairwise_sortUnique texts') fun text => by
    rw [mem_sortUnique, mem_sortUnique, same]

end Text

/-! ## Names of rearranged types -/

section
variable {arena : Arena} {R : TypeId → TypeId → Prop}
  {name : Substitution → Bool → TypeId → Except CompileError String}
  (named : ∀ s exact a b, R a b → Extends (name s exact a) (name s exact b))
include named

theorem Property.Pairs.nameWith_extends {property property' : Property} (h : property.Pairs R property')
    (s : Substitution) (exact : Bool) :
    Extends (property.nameWith name s exact) (property'.nameWith name s exact) := by
  have typed := h.type
  unfold Property.nameWith
  rw [h.method, h.label_eq]
  cases here : property.type <;> cases there : property'.type <;> rw [here, there] at typed <;>
    cases typed
  · exact .refl _
  · split
    · exact .refl _
    · exact (named s exact _ _ ‹_›).bind fun _ => .refl _

/-- Properties have the same names once they are sorted. -/
theorem ObjectShape.Rearranges.nameWith_extends {shape shape' : ObjectShape}
    (h : shape.Rearranges R shape') (s : Substitution) (exact : Bool) :
    Extends (shape.nameWith name s exact) (shape'.nameWith name s exact) := by
  intro text made
  obtain ⟨permuted, order, pairs⟩ := h.properties
  obtain ⟨members, listed, made⟩ := bind_eq_ok.1 made
  obtain ⟨index, signed, made⟩ := bind_eq_ok.1 made
  -- first the properties in the order of the other shape, then their counterparts
  obtain ⟨members', listed, sameTexts⟩ :=
    mapM_eq_ok_of_perm (order.filter (!·.symbolKeyed)) listed
  have paired : (⟨permuted, shape.index⟩ : ObjectShape).Pairs R shape' := ⟨pairs, h.index⟩
  have visible := paired.visible
  have listed := extends_mapM_of_forall₂
    (visible.imp fun _ _ pair => pair.nameWith_extends named s exact) members' listed
  refine bind_eq_ok.2 ⟨members', listed, bind_eq_ok.2 ⟨index, ?_, ?_⟩⟩
  · refine extends_mapM_of_forall₂ ?_ index signed
    have indexed := h.index
    cases here : shape.index <;> cases there : shape'.index <;> rw [here, there] at indexed <;>
      cases indexed
    · exact .nil
    · exact .cons ((named s exact _ _ ‹_›).bind fun _ => .refl _) .nil
  · rw [← Text.sort_eq_of_perm sameTexts]
    exact made

/-- Lists of related members have the same set of names. -/
theorem membersNameWith_extends_of_sameMembers {members members' : List TypeId}
    (h : SameMembers R members members') (s : Substitution) (exact : Bool) (separator : String) :
    Extends (membersNameWith name s exact separator members)
      (membersNameWith name s exact separator members') := by
  intro text made
  obtain ⟨names, each, made⟩ := bind_eq_ok.1 made
  have each := mapM_eq_ok.1 each
  have nameOf (b : TypeId) (hb : b ∈ members') : ∃ n ∈ names, name s exact b = .ok n := by
    obtain ⟨a, ha, related⟩ := h.right b hb
    obtain ⟨n, inside, first⟩ := exists_right_of_forall₂ each ha
    exact ⟨n, inside, named s exact a b related n first⟩
  obtain ⟨names', each'⟩ :=
    exists_mapM_eq_ok fun b hb => (nameOf b hb).imp fun _ found => found.2
  refine bind_eq_ok.2 ⟨names', each', ?_⟩
  have each' := mapM_eq_ok.1 each'
  have sameNames : Text.sortUnique names' = Text.sortUnique names := by
    refine Text.sortUnique_eq_of_mem_iff fun n => ⟨fun inside => ?_, fun inside => ?_⟩
    · obtain ⟨b, hb, found⟩ := exists_left_of_forall₂ each' inside
      obtain ⟨n', listed, found'⟩ := nameOf b hb
      obtain rfl := Except.ok.inj (found.symm.trans found')
      exact listed
    · obtain ⟨a, ha, found⟩ := exists_left_of_forall₂ each inside
      obtain ⟨b, hb, related⟩ := h.left a ha
      obtain ⟨n', listed, found'⟩ := exists_right_of_forall₂ each' hb
      obtain rfl := Except.ok.inj ((named s exact a b related n found).symm.trans found')
      exact listed
  rw [sameNames]
  exact made

theorem referenceNameWith_extends_of_forall₂ {target : DefinitionId} {arguments arguments' : List TypeId}
    (h : List.Forall₂ R arguments arguments') (s : Substitution) (exact : Bool) :
    Extends (referenceNameWith arena name s exact target arguments)
      (referenceNameWith arena name s exact target arguments') := by
  -- what is given is related, and what is left out has the same default
  have all (parameters : List ParameterId) {arguments arguments' : List TypeId}
      (h : List.Forall₂ R arguments arguments') :
      List.Forall₂ (fun a b : Except CompileError TypeId =>
          Extends (do name s exact (← a)) (do name s exact (← b)))
        (arena.allArguments parameters arguments) (arena.allArguments parameters arguments') := by
    induction parameters generalizing arguments arguments' with
    | nil => exact .nil
    | cons parameter rest ih =>
      cases h with
      | nil => exact .cons (.refl _) (ih .nil)
      | cons here below => exact .cons (named s exact _ _ here) (ih below)
  unfold referenceNameWith
  dsimp only
  split
  · exact .refl _
  · split
    · exact .refl _
    · exact (extends_mapM_of_forall₂ (all _ h)).bind fun _ => .refl _

end

namespace Arena

variable {arena : Arena} {R : TypeId → TypeId → Prop}

/-- Related types have the same name, if they have one, within every depth. -/
theorem IsRearrangement.typeName_extends (closed : arena.IsRearrangement R) (depth : Nat) :
    ∀ (s : Substitution) (exact : Bool) (a b : TypeId), R a b →
      ShapeCheck.Extends (typeNameWithin arena depth s exact a) (typeNameWithin arena depth s exact b) := by
  induction depth with
  | zero => exact fun s exact a b _ n made => by cases made
  | succ depth ih =>
    intro s exact a b related
    rcases closed a b related with rfl | ⟨d, d', found, found', parts⟩
    · exact .refl _
    unfold typeNameWithin
    rw [show arena.lookup a = .ok d by simp [lookup, found],
      show arena.lookup b = .ok d' by simp [lookup, found']]
    show ShapeCheck.Extends (d.nameWith arena (typeNameWithin arena depth) s exact)
      (d'.nameWith arena (typeNameWithin arena depth) s exact)
    cases parts with
    | same => exact .refl _
    | array h => exact (ih s exact _ _ h).bind fun _ => .refl _
    | tuple h =>
      refine (extends_mapM_of_forall₂ (h.imp fun element element' pair => ?_)).bind fun _ => .refl _
      unfold TupleElement.nameWith
      rw [pair.optional]
      exact (ih s exact _ _ pair.type).bind fun _ => .refl _
    | object h => exact (h.nameWith_extends ih s exact).bind fun _ => .refl _
    | union h => exact membersNameWith_extends_of_sameMembers ih h s exact " | "
    | intersection h =>
      exact (membersNameWith_extends_of_sameMembers ih h s false " & ").bind fun _ => .refl _
    | reference target h =>
      exact (referenceNameWith_extends_of_forall₂ ih h s exact).bind fun _ => .refl _
    | indexAccess h h' =>
      exact (ih s false _ _ h).bind fun _ => (ih s false _ _ h').bind fun _ => .refl _
    | keyof h => exact (ih s false _ _ h).bind fun _ => .refl _

theorem Rearranged.typeNameWithin_iff {a b : TypeId} (h : arena.Rearranged a b) (depth : Nat)
    (s : Substitution) (exact : Bool) (n : String) :
    typeNameWithin arena depth s exact a = .ok n ↔ typeNameWithin arena depth s exact b = .ok n := by
  obtain ⟨R, closed, related⟩ := h
  exact ⟨closed.typeName_extends depth s exact a b related n,
    closed.flip.typeName_extends depth s exact b a related n⟩

end Arena

/-! ## One predicate for both -/

/-- A name for which a predicate has been asked is known from then on. -/
theorem Build.known_of_gives_ensure {name name' : String} {reason : Option Reason}
    {body : Build (List Stmt)} {r t : Registry} (outcome : Gives (ensure name reason body) r name' t) :
    name' = name ∧ t.contains name = true := by
  by_cases known : r.contains name = true
  · obtain ⟨rfl, rfl⟩ := (gives_ensure_known known).unique outcome
    exact ⟨rfl, known⟩
  · obtain ⟨rfl, stmts, u, -, rfl⟩ := gives_ensure_fresh known outcome
    exact ⟨rfl, Registry.contains_complete u ⟨name', Expr.parameterName, stmts, reason⟩⟩

/-- Where a predicate has been built under a name, whatever has that name is built already. -/
theorem Build.gives_ensure_named {named named' : Except CompileError String} {reason reason' : Option Reason}
    {body body' : Build (List Stmt)} {r t : Registry} {n : String} (same : Extends named named')
    (outcome : Gives (do ensure (← named) reason body : Build String) r n t) :
    Gives (do ensure (← named') reason' body' : Build String) t n t := by
  obtain ⟨n', spelled, outcome⟩ := Build.gives_lift_bind.1 outcome
  obtain ⟨rfl, known⟩ := Build.known_of_gives_ensure outcome
  exact Build.gives_lift_bind.2 ⟨n, same n spelled, Build.gives_ensure_known known⟩

namespace Arena

/-- The type has a predicate under its own name. A parameter has the predicate of what it stands for,
and an indexed access that of the member that it selects. -/
def NamesPredicate (arena : Arena) (type : TypeId) : Prop :=
  ∀ descriptor, arena.lookup? type = some descriptor →
    (∀ id, descriptor ≠ .parameter id) ∧ ∀ whole key, descriptor ≠ .indexAccess whole key

variable {ctx : Context} {depth : Nat} {a b : TypeId} {r t : Registry} {n : String}

/-- A type that is compiled again is found. -/
theorem gives_compileDescriptor_again {compile : Context → TypeId → Build String} {R : TypeId → TypeId → Prop}
    {d d' : Descriptor} (parts : d.Rearranges R d') (parameter : ∀ id, d ≠ .parameter id)
    (access : ∀ whole key, d ≠ .indexAccess whole key)
    (same : ShapeCheck.Extends (ctx.nameOf depth a) (ctx.nameOf depth b))
    (outcome : Gives (compileDescriptor depth compile ctx a d) r n t) :
    Gives (compileDescriptor depth compile ctx b d') t n t := by
  have leaf {d : Descriptor} {leaf : Leaf} (isLeaf : d.leaf? = some leaf)
      (outcome : Gives (compileDescriptor depth compile ctx a d) r n t) :
      Gives (compileDescriptor depth compile ctx b d) t n t := by
    simp only [compileDescriptor, isLeaf] at outcome ⊢
    obtain ⟨rfl, known⟩ := Build.known_of_gives_ensure outcome
    exact Build.gives_ensure_known known
  have reference {target : DefinitionId} {arguments arguments' : List TypeId}
      (outcome : Gives (compileDescriptor depth compile ctx a (.reference target arguments)) r n t) :
      Gives (compileDescriptor depth compile ctx b (.reference target arguments')) t n t := by
    obtain ⟨definition, found, outcome⟩ := Build.gives_lift_bind.1 outcome
    refine Build.gives_lift_bind.2 ⟨definition, ?_, Build.gives_ensure_named same outcome⟩
    unfold Arena.target at found ⊢
    split at found
    · exact found
    · cases found
  cases parts with
  | same =>
    cases d with
    | keyword word =>
      cases known : word.leaf? with
      | some l => exact leaf known outcome
      | none =>
        simp only [compileDescriptor, Descriptor.leaf?, known] at outcome
        exact absurd outcome gives_throw
    | stringLiteral | numberLiteral | booleanLiteral | buffer | view => exact leaf rfl outcome
    | array | tuple | object | union | intersection | keyof =>
      exact Build.gives_ensure_named same outcome
    | reference => exact reference outcome
    | parameter id => exact absurd rfl (parameter id)
    | indexAccess whole key => exact absurd rfl (access whole key)
  | array | tuple | object | union | intersection | keyof =>
    exact Build.gives_ensure_named same outcome
  | reference => exact reference outcome
  | indexAccess => exact absurd rfl (access _ _)

/-- Types that are equal up to the order of properties, and the order and repetition of the members of
unions and intersections, have the same name or none. So the second of them to be compiled gets the
predicate of the first, and the registry stays as it is. -/
theorem named_alike_of_rearranged {arena : Arena} {a b : TypeId} (h : arena.Rearranged a b) :
    (∀ (depth : Nat) (s : Substitution) (exact : Bool) (n : String),
      typeNameWithin arena depth s exact a = .ok n ↔ typeNameWithin arena depth s exact b = .ok n) ∧
    (arena.NamesPredicate a → ∀ (depth : Nat) (options : CompileOptions) (s : Substitution)
      (r t : Registry) (n : String), Gives (compileWithin depth ⟨arena, options, s⟩ a) r n t →
        Gives (compileWithin depth ⟨arena, options, s⟩ b) t n t) := by
  refine ⟨h.typeNameWithin_iff, fun own depth options s r t n outcome => ?_⟩
  obtain _ | depth := depth
  · exact absurd outcome gives_throw
  have same : ShapeCheck.Extends (Context.nameOf ⟨arena, options, s⟩ depth a)
      (Context.nameOf ⟨arena, options, s⟩ depth b) := fun n => (h.typeNameWithin_iff depth s _ n).1
  obtain ⟨d, found, outcome⟩ := Build.gives_lift_bind.1 outcome
  obtain ⟨d', found', R, parts⟩ : ∃ d', arena.lookup b = .ok d' ∧ ∃ R, d.Rearranges R d' := by
    obtain ⟨R, closed, related⟩ := h
    rcases closed a b related with rfl | ⟨e, e', here, there, parts⟩
    · exact ⟨d, found, R, .same d⟩
    · have : arena.lookup a = .ok e := by simp [lookup, here]
      obtain rfl := Except.ok.inj (this.symm.trans found)
      exact ⟨e', by simp [lookup, there], R, parts⟩
  have known : arena.lookup? a = some d := by
    unfold lookup at found
    split at found
    · cases found
      assumption
    · cases found
  obtain ⟨parameter, access⟩ := own d known
  exact Build.gives_lift_bind.2
    ⟨d', found', gives_compileDescriptor_again parts parameter access same outcome⟩

end Arena

/-- Lists of boxes around a text or a record, where the record and the union are written in two orders,
and lists of texts and numbers in two orders. -/
def boxLists : Arena where
  descriptors := Arena.initial.descriptors ++
    #[.object ⟨[⟨"a", some ⟨8⟩, false, false, false⟩, ⟨"b", some ⟨5⟩, true, false, false⟩], none⟩,
      .object ⟨[⟨"b", some ⟨5⟩, true, false, false⟩, ⟨"a", some ⟨8⟩, false, false, false⟩], none⟩,
      .union [⟨14⟩, ⟨8⟩, ⟨15⟩], .union [⟨8⟩, ⟨15⟩], .reference ⟨0⟩ [⟨16⟩], .reference ⟨0⟩ [⟨17⟩],
      .array ⟨18⟩, .array ⟨19⟩, .parameter ⟨0⟩,
      .object ⟨[⟨"content", some ⟨22⟩, false, false, false⟩], none⟩,
      .union [⟨8⟩, ⟨5⟩], .union [⟨5⟩, ⟨8⟩], .array ⟨24⟩, .array ⟨25⟩]
  parameters := #[⟨"T", none⟩]
  definitions := #[⟨"Box", [⟨0⟩], some ⟨23⟩, []⟩]

/-- The types of `boxLists` that are written in two orders. -/
def boxListPairs : List (Nat × Nat) := [(14, 15), (16, 17), (18, 19), (20, 21), (24, 25), (26, 27)]

theorem rearranged_boxLists {a b : Nat} (listed : (a, b) ∈ boxListPairs) :
    boxLists.Rearranged ⟨a⟩ ⟨b⟩ := by
  let R (a b : TypeId) : Prop := a = b ∨ (a.index, b.index) ∈ boxListPairs
  refine ⟨R, ?_, .inr listed⟩
  rintro ⟨a⟩ ⟨b⟩ (same | listed)
  · exact .inl same
  have step (i j : Nat) (listed : (i, j) ∈ boxListPairs) : R ⟨i⟩ ⟨j⟩ := .inr listed
  simp only [boxListPairs, List.mem_cons, Prod.mk.injEq, List.not_mem_nil, or_false] at listed
  rcases listed with ⟨rfl, rfl⟩ | ⟨rfl, rfl⟩ | ⟨rfl, rfl⟩ | ⟨rfl, rfl⟩ | ⟨rfl, rfl⟩ | ⟨rfl, rfl⟩
  · refine .inr ⟨_, _, rfl, rfl, .object ⟨⟨_, .swap _ _ _, .cons ?_ (.cons ?_ .nil)⟩, .none⟩⟩
    · exact ⟨rfl, .some (.inl rfl), rfl, rfl, rfl⟩
    · exact ⟨rfl, .some (.inl rfl), rfl, rfl, rfl⟩
  · refine .inr ⟨_, _, rfl, rfl, .union ⟨?_, ?_⟩⟩
    · simp only [List.forall_mem_cons]
      exact ⟨⟨_, .tail _ (.head _), step 14 15 (by decide)⟩, ⟨_, .head _, .inl rfl⟩,
        ⟨_, .tail _ (.head _), .inl rfl⟩, by simp⟩
    · simp only [List.forall_mem_cons]
      exact ⟨⟨_, .tail _ (.head _), .inl rfl⟩, ⟨_, .head _, step 14 15 (by decide)⟩, by simp⟩
  · exact .inr ⟨_, _, rfl, rfl, .reference ⟨0⟩ (.cons (step 16 17 (by decide)) .nil)⟩
  · exact .inr ⟨_, _, rfl, rfl, .array (step 18 19 (by decide))⟩
  · refine .inr ⟨_, _, rfl, rfl, .union ⟨?_, ?_⟩⟩ <;> simp only [List.forall_mem_cons]
    · exact ⟨⟨_, .tail _ (.head _), .inl rfl⟩, ⟨_, .head _, .inl rfl⟩, by simp⟩
    · exact ⟨⟨_, .tail _ (.head _), .inl rfl⟩, ⟨_, .head _, .inl rfl⟩, by simp⟩
  · exact .inr ⟨_, _, rfl, rfl, .array (step 24 25 (by decide))⟩

/-- The lists of boxes have one name, and the second lists of texts and numbers are found in the registry
that the first ones leave. -/
theorem named_alike_boxLists : boxLists.Rearranged ⟨20⟩ ⟨21⟩ ∧ boxLists.Rearranged ⟨26⟩ ⟨27⟩ ∧
    (∃ n, typeNameWithin boxLists 9 [] true ⟨20⟩ = .ok n ∧
      typeNameWithin boxLists 9 [] true ⟨21⟩ = .ok n) ∧
    ∃ t, Gives (compileWithin 4 ⟨boxLists, {}, []⟩ ⟨26⟩) .empty "Array<number | string>" t ∧
      Gives (compileWithin 4 ⟨boxLists, {}, []⟩ ⟨27⟩) t "Array<number | string>" t := by
  have boxes := rearranged_boxLists (a := 20) (b := 21) (by decide)
  have lists := rearranged_boxLists (a := 26) (b := 27) (by decide)
  refine ⟨boxes, lists, ?_, ?_⟩
  · have spelled : (typeNameWithin boxLists 9 [] true ⟨20⟩).toOption.isSome = true := by decide +kernel
    obtain ⟨n, spelled⟩ := Option.isSome_iff_exists.1 spelled
    have first := toOption_eq_some.1 spelled
    exact ⟨n, first, ((Arena.named_alike_of_rearranged boxes).1 9 [] true n).1 first⟩
  · have built : ((compileWithin 4 ⟨boxLists, {}, []⟩ ⟨26⟩).run.run .empty).1.toOption =
        some "Array<number | string>" := by decide +kernel
    rcases made : (compileWithin 4 ⟨boxLists, {}, []⟩ ⟨26⟩).run.run .empty with ⟨result, t⟩
    rw [made] at built
    obtain rfl := toOption_eq_some.1 built
    refine ⟨t, made, (Arena.named_alike_of_rearranged lists).2 (fun d found => ?_) 4 {} [] .empty t _ made⟩
    obtain rfl : Descriptor.array ⟨24⟩ = d := Option.some.inj found
    exact ⟨nofun, nofun⟩

end ShapeCheck
