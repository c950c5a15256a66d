import Mathlib.Logic.Relation
import ShapeCheck.Proofs.Narrowing.Selection

set_option autoImplicit false

/-! # What predicates are made for

A predicate is made for a type in its place, checked for superfluous keys or not, for an optional part,
or for a set of keys. `Subject.Needs` says for the sake of what others are compiled, and `Subject.Bears`
under which name a subject is found: a name of its own, or, for parameters and for accesses whose members
all have one name, that of what it is compiled as. In a compilation where subjects are told apart, no
name is registered for two different ones.

Main facts: `Subject.Bears.unique_of_twins` (subjects that are alike have the same name),
`Subject.Bears.namedAlike` (subjects of one name have one name without the check, too) and
`Subject.bears_compileWithin` (a compilation returns the name that its subject bears).
-/

namespace ShapeCheck

/-! ## Subjects -/

/-- What a predicate is made for: a type, an optional part, or a set of keys. -/
inductive Subject
  | ofType (exact : Bool) (a : Reading)
  | optional (exact : Bool) (a : Reading)
  | keySet (keys : List String)

/-- The subject of a part that may be optional. -/
def Subject.ofChoice (exact : Bool) (choice : Choice) : Subject :=
  if choice.optional then .optional exact choice.reading else .ofType exact choice.reading

/-- The members of the shape that are checked have the type, or all others have it. -/
def ObjectShape.Checks (shape : ObjectShape) (part : TypeId) : Prop :=
  (∃ property ∈ shape.properties, property.symbolKeyed = false ∧ property.method = false ∧
    property.type = some part) ∨ shape.index = some part

/-- The subjects that are compiled for the sake of another one. -/
inductive Subject.Needs (arena : Arena) : Subject → Subject → Prop
  | optional (exact : Bool) (a : Reading) : Needs arena (.optional exact a) (.ofType exact a)
  | parameter {exact : Bool} {s visible : Substitution} {type target : TypeId} {id : ParameterId}
      (found : arena.lookup? type = some (.parameter id))
      (stands : s.resolve arena id = .ok (target, visible)) :
      Needs arena (.ofType exact (s, type)) (.ofType exact (visible, target))
  | element {exact : Bool} {s : Substitution} {type element : TypeId}
      (found : arena.lookup? type = some (.array element)) :
      Needs arena (.ofType exact (s, type)) (.ofType exact (s, element))
  | position {exact : Bool} {s : Substitution} {type : TypeId} {elements : List TupleElement}
      {element : TupleElement} (found : arena.lookup? type = some (.tuple elements))
      (inside : element ∈ elements) :
      Needs arena (.ofType exact (s, type)) (.ofChoice exact ⟨(s, element.type), element.optional⟩)
  | member {exact : Bool} {s : Substitution} {type part : TypeId} {shape : ObjectShape}
      (found : arena.lookup? type = some (.object shape)) (checks : shape.Checks part) :
      Needs arena (.ofType exact (s, type)) (.ofType exact (s, part))
  | alternative {exact : Bool} {s : Substitution} {type member : TypeId} {members : List TypeId}
      (found : arena.lookup? type = some (.union members)) (inside : member ∈ members) :
      Needs arena (.ofType exact (s, type)) (.ofType exact (s, member))
  | conjunct {exact : Bool} {s : Substitution} {type member : TypeId} {members : List TypeId}
      (found : arena.lookup? type = some (.intersection members)) (inside : member ∈ members) :
      Needs arena (.ofType exact (s, type)) (.ofType false (s, member))
  | keys {s : Substitution} {type : TypeId} {members : List TypeId} {options : CompileOptions}
      {depth : Nat} {keys : List String} (found : arena.lookup? type = some (.intersection members))
      (collected : Context.collectKeys ⟨arena, options, s⟩ depth type = .ok (some keys)) :
      Needs arena (.ofType true (s, type)) (.keySet keys)
  | body {exact : Bool} {s inside : Substitution} {type body : TypeId} {target : DefinitionId}
      {arguments : List TypeId} {definition : Definition}
      (found : arena.lookup? type = some (.reference target arguments))
      (leads : arena.definition? target = some definition)
      (entered : s.enter arena definition arguments = .ok inside) (given : definition.body = some body)
      (plain : definition.bases = []) :
      Needs arena (.ofType exact (s, type)) (.ofType exact (inside, body))
  | inherited {exact : Bool} {s inside : Substitution} {type part : TypeId} {target : DefinitionId}
      {arguments : List TypeId} {definition : Definition} {shape : ObjectShape}
      (found : arena.lookup? type = some (.reference target arguments))
      (leads : arena.definition? target = some definition)
      (entered : s.enter arena definition arguments = .ok inside) (derived : definition.bases ≠ [])
      (merged : arena.mergedShape definition = .ok shape) (checks : shape.Checks part) :
      Needs arena (.ofType exact (s, type)) (.ofType exact (inside, part))
  | choice {exact : Bool} {s : Substitution} {type whole index : TypeId} {options : CompileOptions}
      {depth : Nat} {lists : List (List Choice)} {choice : Choice}
      (found : arena.lookup? type = some (.indexAccess whole index))
      (chosen : arena.choices options depth s whole index = .ok lists) (inside : choice ∈ lists.flatten) :
      Needs arena (.ofType exact (s, type)) (.ofChoice exact choice)

/-- What is compiled when a root is. -/
def Subject.IsBuilt (arena : Arena) (root subject : Subject) : Prop :=
  Relation.ReflTransGen (Needs arena) root subject

/-! ## Names -/

/-- There is a key, and a choice for each key. -/
def AreFilled (lists : List (List Choice)) : Prop := lists ≠ [] ∧ ∀ list ∈ lists, list ≠ []

theorem AreFilled.flatten_ne_nil {lists : List (List Choice)} (h : AreFilled lists) : lists.flatten ≠ [] := by
  obtain ⟨some, full⟩ := h
  obtain ⟨list, inside⟩ := List.exists_mem_of_ne_nil lists some
  obtain ⟨choice, listed⟩ := List.exists_mem_of_ne_nil list (full list inside)
  exact List.ne_nil_of_mem (List.mem_flatten_of_mem inside listed)

/-- The type is compiled as others, and may get no predicate of its own. -/
def Descriptor.forwards : Descriptor → Bool
  | .parameter _ | .indexAccess _ _ => true
  | _ => false

/-- The name under which a subject is found, and whether that name is its own. An access is found under
the name of its members if they all have the same. -/
inductive Subject.Bears (arena : Arena) : Bool → Subject → String → Prop
  | type {exact : Bool} {s : Substitution} {type : TypeId} {descriptor : Descriptor} {depth : Nat}
      {name : String} (found : arena.lookup? type = some descriptor) (plain : descriptor.forwards = false)
      (spelled : typeNameWithin arena depth s exact type = .ok name) :
      Bears arena true (.ofType exact (s, type)) name
  | parameter {own exact : Bool} {s visible : Substitution} {type target : TypeId} {id : ParameterId}
      {name : String} (found : arena.lookup? type = some (.parameter id))
      (stands : s.resolve arena id = .ok (target, visible))
      (below : Bears arena own (.ofType exact (visible, target)) name) :
      Bears arena false (.ofType exact (s, type)) name
  | single {own : Choice → Bool} {exact : Bool} {s : Substitution} {type whole index : TypeId}
      {options : CompileOptions} {depth : Nat} {lists : List (List Choice)} {name : String}
      (found : arena.lookup? type = some (.indexAccess whole index))
      (chosen : arena.choices options depth s whole index = .ok lists) (filled : AreFilled lists)
      (each : ∀ choice ∈ lists.flatten, Bears arena (own choice) (.ofChoice exact choice) name) :
      Bears arena false (.ofType exact (s, type)) name
  | several {own : Choice → Bool} {names : Choice → String} {exact : Bool} {s : Substitution}
      {type whole index : TypeId} {options : CompileOptions} {depth depth' : Nat}
      {lists : List (List Choice)} {one two : Choice} {name : String}
      (found : arena.lookup? type = some (.indexAccess whole index))
      (chosen : arena.choices options depth s whole index = .ok lists) (filled : AreFilled lists)
      (each : ∀ choice ∈ lists.flatten, Bears arena (own choice) (.ofChoice exact choice) (names choice))
      (inside : one ∈ lists.flatten) (inside' : two ∈ lists.flatten) (apart : names one ≠ names two)
      (spelled : typeNameWithin arena depth' s exact type = .ok name) :
      Bears arena true (.ofType exact (s, type)) name
  | optional {own exact : Bool} {a : Reading} {inner : String}
      (below : Bears arena own (.ofType exact a) inner) :
      Bears arena true (.optional exact a) (optionalName inner)
  | keySet (keys : List String) : Bears arena true (.keySet keys) (exactKeysName keys)

/-! ## Subjects that are alike -/

/-- The word for the check for superfluous keys stands in front of the name of such a type. -/
def Descriptor.isMarked : Descriptor → Bool
  | .object _ | .intersection _ | .reference _ _ | .indexAccess _ _ | .keyof _ => true
  | _ => false

/-- The check for superfluous keys can make a difference for the type: something that is marked is there,
inside of arrays, tuples and unions at most. -/
inductive Arena.IsMarked (arena : Arena) : Reading → Prop
  | here {a b : Reading} {descriptor : Descriptor} (stands : arena.StandsFor a b)
      (found : arena.lookup? b.2 = some descriptor) (marked : descriptor.isMarked = true) : IsMarked arena a
  | part {a b : Reading} {descriptor : Descriptor} {part : TypeId} (stands : arena.StandsFor a b)
      (found : arena.lookup? b.2 = some descriptor) (inside : part ∈ descriptor.children)
      (below : IsMarked arena (b.1, part)) : IsMarked arena a

/-- The subjects are the same, and checked for superfluous keys alike wherever that makes a difference. -/
def Subject.Alike (arena : Arena) : Subject → Subject → Prop
  | .ofType exact a, .ofType exact' a' | .optional exact a, .optional exact' a' =>
    arena.Alike a a' ∧ (exact = exact' ∨ ¬ arena.IsMarked a)
  | .keySet keys, .keySet keys' => keys = keys'
  | _, _ => False

/-- No name is registered for two different subjects. -/
def Subject.ToldApart (arena : Arena) (root : Subject) : Prop :=
  ∀ subject subject' name, IsBuilt arena root subject → IsBuilt arena root subject' →
    Bears arena true subject name → Bears arena true subject' name → subject.Alike arena subject'

/-! ## Names of subjects that are alike -/

/-- The subjects are alike, with the same check. -/
inductive Subject.Twins (arena : Arena) : Subject → Subject → Prop
  | ofType {exact : Bool} {a a' : Reading} (alike : arena.Alike a a') :
      Twins arena (.ofType exact a) (.ofType exact a')
  | optional {exact : Bool} {a a' : Reading} (alike : arena.Alike a a') :
      Twins arena (.optional exact a) (.optional exact a')
  | keySet (keys : List String) : Twins arena (.keySet keys) (.keySet keys)

namespace Subject

variable {arena : Arena}

theorem Twins.symm {subject subject' : Subject} (h : subject.Twins arena subject') :
    subject'.Twins arena subject := by
  cases h with
  | ofType alike => exact .ofType alike.symm
  | optional alike => exact .optional alike.symm
  | keySet keys => exact .keySet keys

theorem Twins.trans {subject subject' subject'' : Subject} (h : subject.Twins arena subject')
    (h' : subject'.Twins arena subject'') : subject.Twins arena subject'' := by
  cases h with
  | ofType alike =>
    cases h' with
    | ofType alike' => exact .ofType (alike.trans alike')
  | optional alike =>
    cases h' with
    | optional alike' => exact .optional (alike.trans alike')
  | keySet keys => exact h'

theorem Twins.ofChoice {choice choice' : Choice} (h : choice.Alike arena choice') (exact : Bool) :
    (Subject.ofChoice exact choice).Twins arena (Subject.ofChoice exact choice') := by
  unfold Subject.ofChoice
  rw [h.optional]
  split
  · exact .optional h.reading
  · exact .ofType h.reading

/-- A type that bears a name stands for one that is no parameter and bears the name as well. -/
theorem Bears.settle {own exact : Bool} {a : Reading} {name : String}
    (h : Bears arena own (.ofType exact a) name) : ∃ own' b, arena.Alike a b ∧
      IsBuilt arena (.ofType exact a) (.ofType exact b) ∧
      (∀ id, arena.lookup? b.2 ≠ some (.parameter id)) ∧ Bears arena own' (.ofType exact b) name := by
  generalize same : Subject.ofType exact a = subject at h
  induction h generalizing a with
  | type found plain spelled =>
    cases same
    refine ⟨true, _, .refl arena _, .refl, fun id parameter => ?_, .type found plain spelled⟩
    cases found.symm.trans parameter
    cases plain
  | parameter found stands below ih =>
    cases same
    obtain ⟨own', b, alike, built, notParameter, bears⟩ := ih rfl
    refine ⟨own', b, ?_, .head (.parameter found stands) built, notParameter, bears⟩
    exact (Arena.standsFor_of_resolveWithin found stands).alike.trans alike
  | single found chosen filled each =>
    cases same
    refine ⟨false, _, .refl arena _, .refl, fun id parameter => ?_, .single found chosen filled each⟩
    cases found.symm.trans parameter
  | several found chosen filled each inside inside' apart spelled =>
    cases same
    refine ⟨true, _, .refl arena _, .refl, fun id parameter => ?_,
      .several found chosen filled each inside inside' apart spelled⟩
    cases found.symm.trans parameter
  | optional | keySet => cases same

/-- The name is that of all choices, or they have different names and it is spelled. -/
def Gathers (arena : Arena) (exact : Bool) (a : Reading) (choices : List Choice) (names : Choice → String)
    (name : String) : Prop :=
  (∀ choice ∈ choices, names choice = name) ∨
    (∃ one ∈ choices, ∃ two ∈ choices, names one ≠ names two) ∧
      ∃ depth, typeNameWithin arena depth a.1 exact a.2 = .ok name

/-- The name of an access comes from those of its choices. -/
theorem Bears.access {own exact : Bool} {a : Reading} {whole index : TypeId} {name : String}
    (h : Bears arena own (.ofType exact a) name)
    (found : arena.lookup? a.2 = some (.indexAccess whole index)) :
    ∃ (options : CompileOptions) (depth : Nat) (lists : List (List Choice)) (own' : Choice → Bool)
      (names : Choice → String), arena.choices options depth a.1 whole index = .ok lists ∧
        AreFilled lists ∧ Gathers arena exact a lists.flatten names name ∧
          ∀ choice ∈ lists.flatten, Bears arena (own' choice) (.ofChoice exact choice) (names choice) := by
  cases h with
  | type found' plain =>
    cases found.symm.trans found'
    cases plain
  | parameter found' => cases found.symm.trans found'
  | single found' chosen filled each =>
    cases found.symm.trans found'
    exact ⟨_, _, _, _, fun _ => name, chosen, filled, .inl fun _ _ => rfl, each⟩
  | several found' chosen filled each inside inside' apart spelled =>
    cases found.symm.trans found'
    exact ⟨_, _, _, _, _, chosen, filled, .inr ⟨⟨_, inside, _, inside', apart⟩, _, spelled⟩, each⟩

theorem Gathers.unique {exact : Bool} {a a' : Reading} {choices choices' : List Choice}
    {names names' : Choice → String} {name name' : String} (alike : arena.Alike a a')
    (h : Gathers arena exact a choices names name) (h' : Gathers arena exact a' choices' names' name')
    (some : choices ≠ []) (related : List.Forall₂ (Choice.Alike arena) choices choices')
    (same : ∀ choice ∈ choices, ∀ choice' ∈ choices', choice.Alike arena choice' →
      names choice = names' choice') : name = name' := by
  have left {choice' : Choice} (inside : choice' ∈ choices') :
      ∃ choice ∈ choices, names choice = names' choice' := by
    obtain ⟨choice, listed, alike⟩ := exists_left_of_forall₂ related inside
    exact ⟨choice, listed, same choice listed choice' inside alike⟩
  have right {choice : Choice} (inside : choice ∈ choices) :
      ∃ choice' ∈ choices', names choice = names' choice' := by
    obtain ⟨choice', listed, alike⟩ := exists_right_of_forall₂ related inside
    exact ⟨choice', listed, same choice inside choice' listed alike⟩
  rcases h with all | ⟨⟨one, inside, two, inside', apart⟩, depth, spelled⟩
  · rcases h' with all' | ⟨⟨one, inside, two, inside', apart⟩, -⟩
    · obtain ⟨choice, inside⟩ := List.exists_mem_of_ne_nil choices some
      obtain ⟨choice', inside', equal⟩ := right inside
      rw [← all choice inside, equal, all' choice' inside']
    · obtain ⟨choice, listed, equal⟩ := left inside
      obtain ⟨choice', listed', equal'⟩ := left inside'
      exact absurd (by rw [← equal, ← equal', all choice listed, all choice' listed']) apart
  · rcases h' with all' | ⟨-, depth', spelled'⟩
    · obtain ⟨choice, listed, equal⟩ := right inside
      obtain ⟨choice', listed', equal'⟩ := right inside'
      exact absurd (by rw [equal, equal', all' choice listed, all' choice' listed']) apart
    · exact (alike.typeNameWithin exact exact depth depth').related spelled spelled' rfl

/-- Where all choices have one name, it is that of the whole. -/
theorem Gathers.eq_of_forall {exact : Bool} {a : Reading} {choices : List Choice}
    {names : Choice → String} {name common : String} (h : Gathers arena exact a choices names name)
    (some : choices ≠ []) (all : ∀ choice ∈ choices, names choice = common) : name = common := by
  rcases h with all' | ⟨⟨one, inside, two, inside', apart⟩, -⟩
  · obtain ⟨choice, inside⟩ := List.exists_mem_of_ne_nil choices some
    rw [← all' choice inside, all choice inside]
  · exact absurd (by rw [all one inside, all two inside']) apart

section
variable (number : arena.lookup? (.ofKeyword .number) = some (.keyword .number))
include number

/-- The name of a type that is like an access comes from those of choices that are like those of the
access. -/
theorem Bears.access_of_alike {own exact : Bool} {a a' : Reading} {whole index : TypeId}
    {options : CompileOptions} {depth : Nat} {lists : List (List Choice)} {name : String}
    (found : arena.lookup? a.2 = some (.indexAccess whole index))
    (chosen : arena.choices options depth a.1 whole index = .ok lists) (alike : arena.Alike a a')
    (h : Bears arena own (.ofType exact a') name) :
    ∃ (b : Reading) (choices : List Choice) (own' : Choice → Bool) (names : Choice → String),
      arena.Alike a b ∧ List.Forall₂ (Choice.Alike arena) lists.flatten choices ∧
        Gathers arena exact b choices names name ∧
          ∀ choice ∈ choices, Bears arena (own' choice) (.ofChoice exact choice) (names choice) := by
  obtain ⟨own', b, alike', -, notParameter, bears⟩ := h.settle
  have alike := alike.trans alike'
  have forms := alike.forms (fun id parameter => by cases found.symm.trans parameter) notParameter
  rw [found] at forms
  cases found' : arena.lookup? b.2 <;> rw [found'] at forms <;> cases forms
  rename_i pair
  cases pair with
  | plain isPlain => exact isPlain.elim
  | indexAccess wholes indexes =>
    obtain ⟨options', depth', lists', own'', names, chosen', -, gathers, each⟩ := bears.access found'
    have related := (Arena.Alike.choices number wholes indexes options options' depth depth').related
      chosen chosen'
    exact ⟨b, lists'.flatten, own'', names, alike, List.rel_flatten related, gathers, each⟩

/-- Accesses that are alike have the same name if their choices do. -/
theorem Gathers.unique_of_alike {own exact : Bool} {s : Substitution} {type whole index : TypeId}
    {a' : Reading} {options : CompileOptions} {depth : Nat} {lists : List (List Choice)}
    {names : Choice → String} {name name' : String}
    (found : arena.lookup? type = some (.indexAccess whole index))
    (chosen : arena.choices options depth s whole index = .ok lists) (filled : AreFilled lists)
    (gathers : Gathers arena exact (s, type) lists.flatten names name)
    (same : ∀ choice ∈ lists.flatten, ∀ own' subject' name',
      (Subject.ofChoice exact choice).Twins arena subject' → Bears arena own' subject' name' →
        names choice = name')
    (alike : arena.Alike (s, type) a') (h' : Bears arena own (.ofType exact a') name') : name = name' := by
  obtain ⟨b, choices, own', names', alike', related, gathers', each⟩ :=
    h'.access_of_alike number (a := (s, type)) found chosen alike
  refine gathers.unique alike' gathers' filled.flatten_ne_nil related ?_
  exact fun choice inside choice' inside' alike =>
    same choice inside _ _ _ (.ofChoice alike exact) (each choice' inside')

/-- Subjects that are alike have the same name. -/
theorem Bears.unique_of_twins {own own' : Bool} {subject subject' : Subject} {name name' : String}
    (h : Bears arena own subject name) (twins : subject.Twins arena subject')
    (h' : Bears arena own' subject' name') : name = name' := by
  induction h generalizing own' subject' name' with
  | @type exact s type descriptor depth name found plain spelled =>
    cases twins with
    | ofType alike =>
      obtain ⟨own'', b, alike', -, notParameter, bears⟩ := h'.settle
      have alike := alike.trans alike'
      have notParameter' (id : ParameterId) : arena.lookup? type ≠ some (.parameter id) := by
        rintro parameter
        cases found.symm.trans parameter
        cases plain
      have forms := alike.forms notParameter' notParameter
      rw [found] at forms
      cases bears with
      | type found' plain' spelled' =>
        exact (alike.typeNameWithin exact exact depth _).related spelled spelled' rfl
      | parameter found' => exact absurd found' (notParameter _)
      | single found' | several found' =>
        rw [found'] at forms
        cases forms with
        | some pair =>
          cases pair with
          | plain isPlain => exact isPlain.elim
          | indexAccess => cases plain
  | @parameter own exact s visible type target id name found stands below ih =>
    cases twins with
    | ofType alike =>
      exact ih (.ofType ((Arena.standsFor_of_resolveWithin found stands).alike.symm.trans alike)) h'
  | single found chosen filled each ih =>
    cases twins with
    | ofType alike =>
      exact Gathers.unique_of_alike number found chosen filled (.inl fun _ _ => rfl)
        (fun choice inside _ _ _ => ih choice inside) alike h'
  | several found chosen filled each inside inside' apart spelled ih =>
    cases twins with
    | ofType alike =>
      exact Gathers.unique_of_alike number found chosen filled
        (.inr ⟨⟨_, inside, _, inside', apart⟩, _, spelled⟩) (fun choice inside _ _ _ => ih choice inside)
        alike h'
  | optional below ih =>
    cases twins with
    | optional alike =>
      cases h' with
      | optional below' => rw [ih (.ofType alike) below']
  | keySet keys =>
    cases twins
    cases h'
    rfl

end

/-! ## Names without the check -/

/-- The subject without the check for superfluous keys. -/
def loosely : Subject → Subject
  | .ofType _ a => .ofType false a
  | .optional _ a => .optional false a
  | .keySet keys => .keySet keys

theorem loosely_ofChoice (exact : Bool) (choice : Choice) :
    (Subject.ofChoice exact choice).loosely = Subject.ofChoice false choice := by
  unfold Subject.ofChoice
  split <;> rfl

theorem Alike.loosely {subject subject' : Subject} (h : subject.Alike arena subject') :
    subject.loosely.Twins arena subject'.loosely := by
  cases subject <;> cases subject' <;> first | exact h.elim | skip
  · exact .ofType h.1
  · exact .optional h.1
  · obtain rfl := h
    exact .keySet _

/-- Without the check, what is alike to the two has one name. -/
def NamedAlike (arena : Arena) (subject subject' : Subject) : Prop :=
  ∀ own twin name own' twin' name', subject.loosely.Twins arena twin → Bears arena own twin name →
    subject'.loosely.Twins arena twin' → Bears arena own' twin' name' → name = name'

theorem NamedAlike.symm {subject subject' : Subject} (h : NamedAlike arena subject subject') :
    NamedAlike arena subject' subject :=
  fun _ _ _ _ _ _ twins bears twins' bears' => (h _ _ _ _ _ _ twins' bears' twins bears).symm

theorem NamedAlike.of_standsFor {exact : Bool} {a b : Reading} {subject : Subject}
    (h : NamedAlike arena (.ofType exact b) subject) (stands : arena.StandsFor a b) :
    NamedAlike arena (.ofType exact a) subject := by
  intro own twin name own' twin' name' twins
  exact h own twin name own' twin' name' (.trans (.ofType stands.alike.symm) twins)

section
variable (number : arena.lookup? (.ofKeyword .number) = some (.keyword .number))
include number

/-- An access is named as its choices are if these are all named as something else. -/
theorem NamedAlike.of_choices {exact : Bool} {s : Substitution} {type whole index : TypeId}
    {options : CompileOptions} {depth : Nat} {lists : List (List Choice)} {subject : Subject}
    (found : arena.lookup? type = some (.indexAccess whole index))
    (chosen : arena.choices options depth s whole index = .ok lists) (filled : AreFilled lists)
    (each : ∀ choice ∈ lists.flatten, NamedAlike arena (.ofChoice exact choice) subject) :
    NamedAlike arena (.ofType exact (s, type)) subject := by
  intro own twin name own' twin' name' twins bears twins' bears'
  cases twins with
  | ofType alike =>
    obtain ⟨b, choices, own'', names, -, related, gathers, bear⟩ :=
      bears.access_of_alike number (a := (s, type)) found chosen alike
    have some : choices ≠ [] := by
      rintro rfl
      exact filled.flatten_ne_nil (List.forall₂_nil_right_iff.1 related)
    refine gathers.eq_of_forall some fun choice' inside' => ?_
    obtain ⟨choice, inside, alike⟩ := exists_left_of_forall₂ related inside'
    refine each choice inside _ _ _ _ _ _ ?_ (bear choice' inside') twins' bears'
    rw [loosely_ofChoice]
    exact .ofChoice alike false

variable {root : Subject} (apart : ToldApart arena root)
include apart

/-- A registered name tells what is named alike without the check as well. -/
theorem Bears.namedAlike_of_registered {own : Bool} {subject subject' : Subject} {name : String}
    (built : IsBuilt arena root subject) (built' : IsBuilt arena root subject')
    (h : Bears arena true subject name) (h' : Bears arena own subject' name) :
    NamedAlike arena subject subject' := by
  have registered (other : Subject) (built' : IsBuilt arena root other) (h' : Bears arena true other name) :
      NamedAlike arena subject other := by
    intro own twin name' own' twin' name'' twins bears twins' bears'
    have same := (apart subject other name built built' h h').loosely
    exact bears.unique_of_twins number (twins.symm.trans (same.trans twins')) bears'
  induction h' with
  | type found plain spelled => exact registered _ built' (.type found plain spelled)
  | several found chosen filled each inside inside' apart spelled =>
    exact registered _ built' (.several found chosen filled each inside inside' apart spelled)
  | optional below => exact registered _ built' (.optional below)
  | keySet keys => exact registered _ built' (.keySet keys)
  | parameter found stands below ih =>
    refine NamedAlike.symm (.of_standsFor (.symm (ih ?_ h registered))
      (Arena.standsFor_of_resolveWithin found stands))
    exact .tail built' (.parameter found stands)
  | single found chosen filled each ih =>
    refine NamedAlike.symm (.of_choices number found chosen filled fun choice inside => ?_)
    exact (ih choice inside (.tail built' (.choice found chosen inside)) h registered).symm

/-- Subjects that are found under one name have one name without the check. -/
theorem Bears.namedAlike {own own' : Bool} {subject subject' : Subject} {name : String}
    (built : IsBuilt arena root subject) (built' : IsBuilt arena root subject')
    (h : Bears arena own subject name) (h' : Bears arena own' subject' name) :
    NamedAlike arena subject subject' := by
  have registered {subject : Subject} (built : IsBuilt arena root subject)
      (h : Bears arena true subject name) (h' : Bears arena own' subject' name) :
        NamedAlike arena subject subject' :=
    namedAlike_of_registered number apart built built' h h'
  induction h with
  | type found plain spelled => exact registered built (.type found plain spelled) h'
  | several found chosen filled each inside inside' different spelled =>
    exact registered built (.several found chosen filled each inside inside' different spelled) h'
  | optional below => exact registered built (.optional below) h'
  | keySet keys => exact registered built (.keySet keys) h'
  | parameter found stands below ih =>
    exact .of_standsFor (ih (.tail built (.parameter found stands)) h' registered)
      (Arena.standsFor_of_resolveWithin found stands)
  | single found chosen filled each ih =>
    refine .of_choices number found chosen filled fun choice inside => ?_
    exact ih choice inside (.tail built (.choice found chosen inside)) h' registered

end

end Subject

/-! ## Names that a compilation returns -/

theorem exists_ne_of_eraseDups {names : List String} (some : names.eraseDups ≠ [])
    (several : ∀ name, names.eraseDups ≠ [name]) : ∃ one ∈ names, ∃ two ∈ names, one ≠ two := by
  cases names with
  | nil => exact absurd rfl some
  | cons one rest =>
    rw [List.eraseDups_cons] at several
    have others : (rest.filter fun name => !name == one).eraseDups ≠ [] := fun none =>
      several one (by rw [none])
    obtain ⟨two, listed⟩ := List.exists_mem_of_ne_nil _ others
    obtain ⟨inside, different⟩ := List.mem_filter.1 (List.mem_eraseDups.1 listed)
    refine ⟨one, List.mem_cons_self, two, List.mem_cons_of_mem _ inside, ?_⟩
    rintro rfl
    simp at different

namespace Build

/-- A step that is not looked at. -/
theorem keeps_nothing {α : Type} (m : Build α) : Keeps (fun _ => True) m fun _ => True :=
  fun _ _ _ _ _ => ⟨trivial, trivial⟩

theorem keeps_ensure (name : String) (reason : Option Reason) (body : Build (List Stmt)) :
    Keeps (fun _ => True) (ensure name reason body) (· = name) := by
  unfold ensure
  refine Keeps.get_bind fun r _ => ?_
  split
  · exact .pure rfl
  · refine (keeps_nothing _).bind fun _ _ => (keeps_nothing _).bind fun _ _ => ?_
    exact (keeps_nothing _).bind fun _ _ => .pure rfl

end Build

namespace Subject

section
variable {arena : Arena} {options : CompileOptions} {compile : Context → TypeId → Build String}
  (compiled : ∀ s type, Keeps (fun _ => True) (compile ⟨arena, options, s⟩ type) fun name =>
    ∃ own, Bears arena own (.ofType options.superfluousPropertyCheck (s, type)) name)
include compiled

theorem bears_compilePart (choice : Choice) :
    Keeps (fun _ => True)
      (compilePart compile ⟨arena, options, choice.reading.1⟩ choice.reading.2 choice.optional)
      fun name => ∃ own, Bears arena own (.ofChoice options.superfluousPropertyCheck choice) name := by
  unfold compilePart ofChoice
  refine (compiled _ _).bind fun name ⟨own, bears⟩ => ?_
  split
  · refine (Build.keeps_ensure _ _ _).mono ?_
    rintro _ rfl
    exact ⟨true, .optional bears⟩
  · exact .pure ⟨own, bears⟩

omit compiled in
/-- The members that an access selects are built for its sake. -/
theorem selectedMembers_keeps {I : Registry → Prop} {Q : Choice → String → Prop} {root : Subject} {depth : Nat}
    {s : Substitution} {type whole index : TypeId} {keys : List IndexKey}
    (parts : ∀ choice, IsBuilt arena root (.ofChoice options.superfluousPropertyCheck choice) →
      Keeps I (compilePart compile ⟨arena, options, choice.reading.1⟩ choice.reading.2 choice.optional)
        (Q choice))
    (found : arena.lookup? type = some (.indexAccess whole index))
    (built : IsBuilt arena root (.ofType options.superfluousPropertyCheck (s, type)))
    (indexed : Context.indexKeys ⟨arena, options, s⟩ depth index = .ok keys) :
    Keeps I (keys.mapM (selectedMembers depth compile ⟨arena, options, s⟩ type whole)) fun names =>
      ∃ lists, arena.choices options depth s whole index = .ok lists ∧
        List.Forall₂ (Covers Q) lists names ∧ ∀ list ∈ lists, list ≠ [] := by
  intro r names t made holds
  -- where names are found members are selected, so these are built
  obtain ⟨-, lists, chosen, -⟩ := (isLogic_keeps fun _ => True).selectedMembers (Q := fun _ _ => True)
    (fun choice (_ : True) => Build.keeps_nothing _) indexed (fun _ _ => trivial) r names t made trivial
  refine (isLogic_keeps I).selectedMembers parts indexed (fun choice promised => ?_) r names t made holds
  exact .tail built (.choice found chosen (promised lists chosen))

variable (number : arena.lookup? (.ofKeyword .number) = some (.keyword .number))
include number

omit compiled in
/-- An access whose choices have several names bears the name that is spelled. -/
theorem bears_of_several {exact : Bool} {s : Substitution} {type whole index : TypeId} {depth depth' : Nat}
    {lists : List (List Choice)} {names : List (List String)} {name : String}
    (found : arena.lookup? type = some (.indexAccess whole index))
    (chosen : arena.choices options depth s whole index = .ok lists) (filled : AreFilled lists)
    (covers : List.Forall₂ (Covers fun choice name =>
      ∃ own, Bears arena own (.ofChoice exact choice) name) lists names)
    (none : names.flatten.eraseDups ≠ []) (single : ∀ name, names.flatten.eraseDups ≠ [name])
    (spelled : typeNameWithin arena depth' s exact type = .ok name) :
    Bears arena true (.ofType exact (s, type)) name := by
  have cover := Covers.flatten covers
  obtain ⟨x, listed, y, listed', different⟩ := exists_ne_of_eraseDups none single
  have each (choice : Choice) (inside : choice ∈ lists.flatten) : ∃ name own,
      Bears arena own (.ofChoice exact choice) name :=
    let ⟨name, _, own, bears⟩ := cover.named choice inside
    ⟨name, own, bears⟩
  have named (name : String) (listed : name ∈ names.flatten) : ∃ choice ∈ lists.flatten, ∃ own,
      Bears arena own (.ofChoice exact choice) name := cover.chosen name listed
  choose! names own bears using each
  obtain ⟨one, inside, own, bears'⟩ := named x listed
  obtain ⟨two, inside', own', bears''⟩ := named y listed'
  obtain rfl := bears'.unique_of_twins number (.ofChoice ⟨.refl arena _, rfl⟩ _) (bears one inside)
  obtain rfl := bears''.unique_of_twins number (.ofChoice ⟨.refl arena _, rfl⟩ _) (bears two inside')
  exact .several found chosen filled bears inside inside' different spelled

theorem bears_compileIndexAccess {s : Substitution} {type whole index : TypeId} (depth : Nat)
    (found : arena.lookup? type = some (.indexAccess whole index)) :
    Keeps (fun _ => True) (compileIndexAccess depth compile ⟨arena, options, s⟩ type whole index)
      fun name => ∃ own, Bears arena own (.ofType options.superfluousPropertyCheck (s, type)) name := by
  unfold compileIndexAccess
  refine Keeps.lift_bind fun keys indexed => ?_
  have parts (choice : Choice) (_ : True) := bears_compilePart compiled choice
  refine ((isLogic_keeps _).selectedMembers parts indexed fun _ _ => trivial).bind ?_
  rintro names ⟨lists, chosen, covers, full⟩
  have cover := Covers.flatten covers
  have filled (some : names.flatten ≠ []) : AreFilled lists := by
    refine ⟨?_, full⟩
    rintro rfl
    cases covers
    exact some rfl
  split
  · exact .throw _
  · rename_i name only
    have all (other : String) (inside : other ∈ names.flatten) : other = name := by
      rw [← List.mem_eraseDups, only] at inside
      simpa using inside
    have each (choice : Choice) (inside : choice ∈ lists.flatten) :
        ∃ own, Bears arena own (.ofChoice options.superfluousPropertyCheck choice) name := by
      obtain ⟨other, listed, bears⟩ := cover.named choice inside
      exact all other listed ▸ bears
    have some : names.flatten ≠ [] := by
      intro none
      rw [none] at only
      cases only
    choose! own bears using each
    exact .pure ⟨false, .single found chosen (filled some) bears⟩
  · rename_i none single
    refine Keeps.lift_bind fun name spelled => (Build.keeps_ensure _ _ _).mono ?_
    rintro _ rfl
    have some : names.flatten ≠ [] := by
      intro empty
      rw [empty] at none
      exact none rfl
    exact ⟨true, bears_of_several number found chosen (filled some) covers none single spelled⟩

end

section
variable {arena : Arena} (number : arena.lookup? (.ofKeyword .number) = some (.keyword .number))
include number

/-- The compilation returns the name that its subject bears. -/
theorem bears_compileWithin (depth : Nat) (options : CompileOptions) (s : Substitution) (type : TypeId) :
    Keeps (fun _ => True) (compileWithin depth ⟨arena, options, s⟩ type) fun name =>
      ∃ own, Bears arena own (.ofType options.superfluousPropertyCheck (s, type)) name := by
  induction depth generalizing s type with
  | zero => exact .throw _
  | succ depth ih =>
    refine Keeps.lift_bind fun descriptor found => ?_
    have found : arena.lookup? type = some descriptor := Arena.lookup_eq_ok.1 found
    have ensured {m : Nat} {name : String} {reason : Option Reason} {body : Build (List Stmt)}
        (plain : descriptor.forwards = false)
        (spelled : typeNameWithin arena m s options.superfluousPropertyCheck type = .ok name) :
        Keeps (fun _ => True) (Build.ensure name reason body) fun name =>
          ∃ own, Bears arena own (.ofType options.superfluousPropertyCheck (s, type)) name := by
      refine (Build.keeps_ensure _ _ _).mono ?_
      rintro _ rfl
      exact ⟨true, .type found plain spelled⟩
    unfold compileDescriptor
    split
    · rename_i leaf isLeaf
      refine ensured (m := 1) ?_ ?_
      · cases descriptor <;> first | rfl | cases isLeaf
      · rw [typeNameWithin, Arena.lookup_eq_ok.2 found]
        exact descriptor.leaf?_name isLeaf arena _ _ _
    cases descriptor with
    | array | tuple | object | union | intersection | keyof =>
      exact Keeps.lift_bind fun name spelled => ensured rfl spelled
    | reference =>
      exact Keeps.lift_bind fun definition _ => Keeps.lift_bind fun name spelled => ensured rfl spelled
    | parameter id =>
      refine Keeps.lift_bind fun stood stands => ?_
      obtain ⟨target, visible⟩ := stood
      obtain ⟨outer, resolved, rfl⟩ := Context.resolve_eq_ok stands
      refine (ih outer target).mono ?_
      rintro name ⟨own, bears⟩
      exact ⟨false, .parameter found resolved bears⟩
    | indexAccess whole index => exact bears_compileIndexAccess ih number depth found
    | _ => exact .throw _

end

end Subject

end ShapeCheck
