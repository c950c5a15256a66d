import ShapeCheck.Proofs.Narrowing.Likeness
import ShapeCheck.Proofs.Narrowing.Subjects

set_option autoImplicit false

/-! # Telling subjects apart

Whether the subjects that are built for a root are told apart can be computed where these are finitely many:
a list of subjects is closed if it has all that is compiled for the sake of its members, and its members are
told apart if two of them have one name only where a list of pairs shows that they are alike. An access that
selects several members may stand above the list, but not in it.

Main facts: `Subject.mem_of_needed?` and `Subject.toldApart_of_tells`.
-/

namespace ShapeCheck

deriving instance DecidableEq for Subject

/-- The types of the members that are checked, and that of the index signature. -/
def ObjectShape.checked (shape : ObjectShape) : List TypeId :=
  (shape.properties.filter fun property => !property.symbolKeyed && !property.method).filterMap
    Property.type ++ shape.index.toList

theorem ObjectShape.mem_checked {shape : ObjectShape} {part : TypeId} (h : shape.Checks part) :
    part ∈ shape.checked := by
  rcases h with ⟨property, inside, texts, field, typed⟩ | indexed
  · refine List.mem_append_left _ (List.mem_filterMap.2 ⟨property, List.mem_filter.2 ⟨inside, ?_⟩, typed⟩)
    simp [texts, field]
  · exact List.mem_append_right _ (Option.mem_toList.2 indexed)

/-- Which members an access selects does not depend on the options or the allowed depth. -/
theorem Arena.choices_unique {arena : Arena} {options options' : CompileOptions} {depth depth' : Nat}
    {s : Substitution} {whole index : TypeId} {lists lists' : List (List Choice)}
    (chosen : arena.choices options depth s whole index = .ok lists)
    (chosen' : arena.choices options' depth' s whole index = .ok lists') : lists = lists' := by
  obtain ⟨keys, found, picked⟩ := bind_eq_ok.1 chosen
  obtain ⟨keys', found', picked'⟩ := bind_eq_ok.1 chosen'
  obtain rfl := ((Alike.refl arena (s, index)).indexKeys options options' depth depth').related found found'
  exact Except.ok.inj (picked.symm.trans picked')

namespace Subject

theorem Twins.refl {arena : Arena} (subject : Subject) : subject.Twins arena subject := by
  cases subject with
  | ofType exact a => exact .ofType (.refl arena a)
  | optional exact a => exact .optional (.refl arena a)
  | keySet keys => exact .keySet keys

theorem Twins.alike {arena : Arena} {subject subject' : Subject} (h : subject.Twins arena subject') :
    subject.Alike arena subject' := by
  cases h with
  | ofType alike | optional alike => exact ⟨alike, .inl rfl⟩
  | keySet keys => exact rfl

/-! ## What is compiled for the sake of a subject -/

/-- What a reference needs: nothing, if it cannot be entered. -/
def neededByReference? (arena : Arena) (exact : Bool) (s : Substitution) (target : DefinitionId)
    (arguments : List TypeId) : Option (List Subject) := do
  let definition ← arena.definition? target
  match s.enter arena definition arguments with
  | .error _ => return []
  | .ok inside =>
    if definition.bases = [] then return [.ofType exact (inside, ← definition.body)]
    else
      return (← (arena.mergedShape definition).toOption).checked.map fun part => .ofType exact (inside, part)

/-- What an intersection needs. -/
def neededByIntersection? (arena : Arena) (depth : Nat) (exact : Bool) (s : Substitution) (type : TypeId)
    (members : List TypeId) : Option (List Subject) := do
  let conjuncts := members.map fun member => Subject.ofType false (s, member)
  if exact then
    let keys? ← (Context.collectKeys ⟨arena, {}, s⟩ depth type).toOption
    return conjuncts ++ keys?.toList.map .keySet
  else return conjuncts

/-- The subjects that are compiled for the sake of another one, unless there is an error. -/
def needed? (arena : Arena) (depth : Nat) : Subject → Option (List Subject)
  | .optional exact a => some [.ofType exact a]
  | .keySet _ => some []
  | .ofType exact (s, type) =>
    match arena.lookup? type with
    | some (.parameter id) => (s.resolve arena id).toOption.map fun found => [.ofType exact (found.2, found.1)]
    | some (.array element) => some [.ofType exact (s, element)]
    | some (.tuple elements) =>
      some (elements.map fun element => .ofChoice exact ⟨(s, element.type), element.optional⟩)
    | some (.object shape) => some (shape.checked.map fun part => .ofType exact (s, part))
    | some (.union members) => some (members.map fun member => .ofType exact (s, member))
    | some (.intersection members) => neededByIntersection? arena depth exact s type members
    | some (.reference target arguments) => neededByReference? arena exact s target arguments
    | some (.indexAccess whole index) =>
      (arena.choices {} depth s whole index).toOption.map fun lists => lists.flatten.map (.ofChoice exact)
    | _ => some []

theorem mem_of_needed? {arena : Arena} {depth : Nat} {subject other : Subject} {list : List Subject}
    (all : subject.needed? arena depth = some list) (needs : Needs arena subject other) : other ∈ list := by
  cases needs with
  | optional =>
    obtain rfl := Option.some.inj all
    exact List.mem_cons_self
  | parameter found stands =>
    simp only [needed?, found, stands] at all
    obtain rfl := Option.some.inj all
    exact List.mem_cons_self
  | element found =>
    simp only [needed?, found] at all
    obtain rfl := Option.some.inj all
    exact List.mem_cons_self
  | position found inside | alternative found inside =>
    simp only [needed?, found] at all
    obtain rfl := Option.some.inj all
    exact List.mem_map_of_mem inside
  | member found checks =>
    simp only [needed?, found] at all
    obtain rfl := Option.some.inj all
    exact List.mem_map_of_mem (ObjectShape.mem_checked checks)
  | @conjunct exact s type member members found inside =>
    simp only [needed?, found, neededByIntersection?] at all
    have listed : Subject.ofType false (s, member) ∈
        members.map fun member => Subject.ofType false (s, member) := List.mem_map_of_mem inside
    split at all
    · obtain ⟨keys?, -, rest⟩ := Option.bind_eq_some_iff.1 all
      obtain rfl := Option.some.inj rest
      exact List.mem_append_left _ listed
    · obtain rfl := Option.some.inj all
      exact listed
  | @keys s type members options depth' keys found collected =>
    simp only [needed?, found, neededByIntersection?, if_true] at all
    obtain ⟨keys?, collected', rest⟩ := Option.bind_eq_some_iff.1 all
    obtain rfl := Option.some.inj rest
    rw [toOption_eq_some] at collected'
    have same := ((Arena.Alike.refl arena (s, type)).collectKeys options {} depth' depth).related collected
      collected'
    subst same
    exact List.mem_append_right _ (List.mem_singleton_self _)
  | body found leads entered given plain =>
    simp only [needed?, found] at all
    obtain ⟨definition', leads', all⟩ := Option.bind_eq_some_iff.1 all
    obtain rfl := Option.some.inj (leads.symm.trans leads')
    simp only [entered, if_pos plain] at all
    obtain ⟨body', given', all⟩ := Option.bind_eq_some_iff.1 all
    obtain rfl := Option.some.inj (given.symm.trans given')
    obtain rfl := Option.some.inj all
    exact List.mem_cons_self
  | inherited found leads entered derived merged checks =>
    simp only [needed?, found] at all
    obtain ⟨definition', leads', all⟩ := Option.bind_eq_some_iff.1 all
    obtain rfl := Option.some.inj (leads.symm.trans leads')
    simp only [entered, if_neg derived] at all
    obtain ⟨shape', merged', all⟩ := Option.bind_eq_some_iff.1 all
    obtain rfl := Except.ok.inj (merged.symm.trans (toOption_eq_some.1 merged'))
    obtain rfl := Option.some.inj all
    exact List.mem_map_of_mem (ObjectShape.mem_checked checks)
  | choice found chosen inside =>
    simp only [needed?, found] at all
    obtain ⟨lists, chosen', rfl⟩ := Option.map_eq_some_iff.1 all
    obtain rfl := Arena.choices_unique chosen (toOption_eq_some.1 chosen')
    exact List.mem_map_of_mem inside

/-! ## Names of their own -/

/-- The name that is registered for a subject. A parameter has none; accesses are not asked. -/
def ownName? (arena : Arena) (depth : Nat) : Subject → Option String
  | .keySet keys => some (exactKeysName keys)
  | .ofType exact (s, type) => do
    if (← arena.lookup? type).forwards then none else (typeNameWithin arena depth s exact type).toOption
  | .optional exact (s, type) => do
    if (← arena.lookup? type).forwards then none
    else return optionalName (← (typeNameWithin arena depth s exact type).toOption)

theorem bears_of_ownName? {arena : Arena} {depth : Nat} {subject : Subject} {name : String}
    (named : subject.ownName? arena depth = some name) : Bears arena true subject name := by
  cases subject with
  | keySet keys =>
    obtain rfl := Option.some.inj named
    exact .keySet keys
  | ofType exact a =>
    obtain ⟨descriptor, found, named⟩ := Option.bind_eq_some_iff.1 named
    split at named
    · cases named
    · rename_i plain
      exact .type found (by simpa using plain) (toOption_eq_some.1 named)
  | optional exact a =>
    obtain ⟨descriptor, found, named⟩ := Option.bind_eq_some_iff.1 named
    split at named
    · cases named
    · rename_i plain
      obtain ⟨inner, spelled, rest⟩ := Option.bind_eq_some_iff.1 named
      obtain rfl := Option.some.inj rest
      exact .optional (.type found (by simpa using plain) (toOption_eq_some.1 spelled))

/-- The type of the subject is a parameter, or an access that selects one member. -/
def isForwarded (arena : Arena) (depth : Nat) : Subject → Bool
  | .ofType _ (s, type) =>
    match arena.lookup? type with
    | some (.parameter _) => true
    | some (.indexAccess whole index) =>
      match arena.choices {} depth s whole index with
      | .ok lists => lists.flatten.length = 1
      | .error _ => false
    | _ => false
  | _ => false

theorem not_bears_of_isForwarded {arena : Arena} {depth : Nat} {subject : Subject}
    (forwarded : subject.isForwarded arena depth) (name : String) : ¬ Bears arena true subject name := by
  intro bears
  cases bears with
  | type found plain =>
    simp only [isForwarded, found] at forwarded
    split at forwarded
    · rename_i same
      cases same
      cases plain
    · rename_i same
      cases same
      cases plain
    · cases forwarded
  | several found chosen _ _ inside inside' apart =>
    simp only [isForwarded, found] at forwarded
    split at forwarded
    · rename_i lists chosen'
      obtain rfl := Arena.choices_unique chosen chosen'
      obtain ⟨choice, single⟩ := List.length_eq_one_iff.1 (of_decide_eq_true forwarded)
      rw [single] at inside inside'
      exact apart (by rw [List.mem_singleton.1 inside, List.mem_singleton.1 inside'])
    · cases forwarded
  | optional | keySet => cases forwarded

/-! ## Tables of names -/

/-- The subjects are the same, or the list pairs their types. -/
def likened (pairs : List (Reading × Reading)) : Subject → Subject → Bool
  | .ofType exact a, .ofType exact' a' | .optional exact a, .optional exact' a' =>
    exact = exact' && Arena.isPaired pairs a a'
  | .keySet keys, .keySet keys' => keys = keys'
  | _, _ => false

theorem twins_of_likened {arena : Arena} {pairs : List (Reading × Reading)}
    (alike : ∀ pair ∈ pairs, arena.Alike pair.1 pair.2) {subject subject' : Subject}
    (h : likened pairs subject subject' = true) : subject.Twins arena subject' := by
  unfold likened at h
  split at h
  · obtain ⟨same, paired⟩ := Bool.and_eq_true_iff.1 h
    obtain rfl := of_decide_eq_true same
    exact .ofType (Arena.alike_of_isPaired alike paired)
  · obtain ⟨same, paired⟩ := Bool.and_eq_true_iff.1 h
    obtain rfl := of_decide_eq_true same
    exact .optional (Arena.alike_of_isPaired alike paired)
  · obtain rfl := of_decide_eq_true h
    exact .keySet _
  · cases h

section
variable (arena : Arena) (depth : Nat) (pairs : List (Reading × Reading)) (table : List (Subject × Option String))

/-- All that is built for the subject is in the table. -/
def isServed (subject : Subject) : Bool :=
  (subject.needed? arena depth).elim false (·.all (· ∈ table.map Prod.fst))

/-- The subject has the name, or none if it is a parameter or an access to one member. -/
def isNamed (subject : Subject) (name? : Option String) : Bool :=
  if subject.isForwarded arena depth then name?.isNone
  else name?.isSome && subject.ownName? arena depth = name?

/-- The table has all that is built for its subjects, and the names that they have. The types of the pairs
are alike, and two subjects have the same name only if they are paired. -/
def tells : Bool :=
  arena.areLike pairs && table.all (fun entry => entry.1.isServed arena depth table) &&
    table.all (fun entry => entry.1.isNamed arena depth entry.2) &&
      decide (table.Pairwise fun entry entry' =>
        entry.2 = entry'.2 → entry.2 = none ∨ likened pairs entry.1 entry'.1 = true)

end

section
variable {arena : Arena} {depth : Nat} {pairs : List (Reading × Reading)}
  {table : List (Subject × Option String)}

theorem mem_of_isServed {subject other : Subject} (served : subject.isServed arena depth table = true)
    (needs : Needs arena subject other) : other ∈ table.map Prod.fst := by
  unfold isServed at served
  cases all : subject.needed? arena depth with
  | none =>
    rw [all] at served
    cases served
  | some others =>
    rw [all] at served
    exact of_decide_eq_true (List.all_eq_true.1 served other (mem_of_needed? all needs))

/-- A subject that is named has that name and no other one. -/
theorem eq_of_isNamed (number : arena.lookup? (.ofKeyword .number) = some (.keyword .number))
    {subject : Subject} {name? : Option String} {name : String}
    (named : subject.isNamed arena depth name? = true) (bears : Bears arena true subject name) :
    name? = some name := by
  unfold isNamed at named
  split at named
  · rename_i forwarded
    exact absurd bears (not_bears_of_isForwarded forwarded name)
  · obtain ⟨some, same⟩ := Bool.and_eq_true_iff.1 named
    obtain ⟨other, rfl⟩ := Option.isSome_iff_exists.1 some
    rw [bears.unique_of_twins number (.refl _) (bears_of_ownName? (of_decide_eq_true same))]

section
variable (told : tells arena depth pairs table = true)
include told

theorem mem_of_tells {subject other : Subject} (listed : subject ∈ table.map Prod.fst)
    (needs : Needs arena subject other) : other ∈ table.map Prod.fst := by
  simp only [tells, Bool.and_eq_true, List.all_eq_true] at told
  obtain ⟨entry, inside, rfl⟩ := List.mem_map.1 listed
  exact mem_of_isServed (told.1.1.2 entry inside) needs

theorem mem_of_isBuilt {root subject : Subject} (start : root ∈ table.map Prod.fst)
    (built : IsBuilt arena root subject) : subject ∈ table.map Prod.fst := by
  induction built with
  | refl => exact start
  | tail _ needs ih => exact mem_of_tells told ih needs

variable (number : arena.lookup? (.ofKeyword .number) = some (.keyword .number))
include number

theorem entry_of_tells {subject : Subject} {name : String} (listed : subject ∈ table.map Prod.fst)
    (bears : Bears arena true subject name) : (subject, some name) ∈ table := by
  simp only [tells, Bool.and_eq_true, List.all_eq_true] at told
  obtain ⟨⟨_, name?⟩, inside, rfl⟩ := List.mem_map.1 listed
  rwa [← eq_of_isNamed number (told.1.2 _ inside) bears]

/-- Subjects of a table of names are alike if one name is registered for both. -/
theorem alike_of_tells {subject subject' : Subject} {name : String}
    (listed : subject ∈ table.map Prod.fst) (listed' : subject' ∈ table.map Prod.fst)
    (bears : Bears arena true subject name) (bears' : Bears arena true subject' name) :
    subject.Alike arena subject' := by
  have entry := entry_of_tells told number listed bears
  have entry' := entry_of_tells told number listed' bears'
  simp only [tells, Bool.and_eq_true, decide_eq_true_eq] at told
  obtain ⟨⟨⟨like, -⟩, -⟩, distinct⟩ := told
  by_cases same : subject = subject'
  · exact same ▸ (Twins.refl subject).alike
  -- the table does not say in which order the two stand in it
  have paired := distinct.imp (S := fun entry entry' => entry.2 = entry'.2 → entry.2 = none ∨
    entry.1.Twins arena entry'.1) fun h same =>
      (h same).imp_right (twins_of_likened (Arena.alike_of_areLike like))
  have symmetric : Std.Symm fun entry entry' : Subject × Option String => entry.2 = entry'.2 →
      entry.2 = none ∨ entry.1.Twins arena entry'.1 :=
    ⟨fun _ _ h same => (h same.symm).imp same.trans Twins.symm⟩
  have either := paired.forall entry entry' (fun equal => same (congrArg Prod.fst equal)) rfl
  exact (either.resolve_left nofun).alike

/-- With a table of names, no name is registered for two different subjects. -/
theorem toldApart_of_tells {root : Subject} (start : root ∈ table.map Prod.fst) : ToldApart arena root :=
  fun _ _ _ built built' => alike_of_tells told number (mem_of_isBuilt told start built)
    (mem_of_isBuilt told start built')

/-- An access, with a table of names for its choices in which its own name does not stand. -/
theorem toldApart_of_choices {exact : Bool} {s : Substitution} {type whole index : TypeId}
    {options : CompileOptions} {depth' : Nat} {lists : List (List Choice)} {name : String}
    (found : arena.lookup? type = some (.indexAccess whole index))
    (chosen : arena.choices options depth' s whole index = .ok lists)
    (listed : ∀ choice ∈ lists.flatten, .ofChoice exact choice ∈ table.map Prod.fst)
    (spelled : typeNameWithin arena depth' s exact type = .ok name)
    (fresh : some name ∉ table.map Prod.snd) : ToldApart arena (.ofType exact (s, type)) := by
  have known {subject : Subject} (built : IsBuilt arena (.ofType exact (s, type)) subject) :
      subject = .ofType exact (s, type) ∨ subject ∈ table.map Prod.fst := by
    rcases Relation.ReflTransGen.cases_head built with rfl | ⟨first, needs, below⟩
    · exact .inl rfl
    · refine .inr (mem_of_isBuilt told ?_ below)
      cases needs with
      | choice found' chosen' inside =>
        cases found.symm.trans found'
        cases Arena.choices_unique chosen chosen'
        exact listed _ inside
      | _ found' => cases found.symm.trans found'
  have apart {subject : Subject} {other : String} (inside : subject ∈ table.map Prod.fst)
      (bears : Bears arena true subject other) (bears' : Bears arena true (.ofType exact (s, type)) other) :
      False := by
    cases bears' with
    | type found' plain =>
      cases found.symm.trans found'
      cases plain
    | several _ _ _ _ _ _ _ spelled' =>
      obtain rfl := ((Arena.Alike.refl arena (s, type)).typeNameWithin exact exact depth' _).related spelled
        spelled' rfl
      exact fresh (List.mem_map_of_mem (f := Prod.snd) (entry_of_tells told number inside bears))
  intro subject subject' other built built' bears bears'
  rcases known built with rfl | inside
  · rcases known built' with rfl | inside'
    · exact (Twins.refl _).alike
    · exact (apart inside' bears' bears).elim
  · rcases known built' with rfl | inside'
    · exact (apart inside bears bears').elim
    · exact alike_of_tells told number inside inside' bears bears'

end

end

end Subject

end ShapeCheck
