import ShapeCheck.Proofs.Defaults.Readings
import ShapeCheck.Proofs.Documents.Compilation

set_option autoImplicit false

/-! # Arguments that are left out

A reference that leaves out arguments is named with the defaults of their parameters, read around the
reference like the arguments. Inside of the definition the same defaults are bound with the parameters of
the definition. So a reference means the same as the one with its defaults written out where the defaults
mean the same around the definition and inside of it: they mention no parameter, or only ones that the
reference leaves as they are.

Main fact: `Context.compile_omittedArguments`. A default that mentions another parameter is not found
when the reference is named (`exists_unbound_default`).
-/

namespace ShapeCheck

variable {arena : Arena}

/-! ## Instantiations with and without the arguments -/

namespace Instantiation

/-- The two entries bind a parameter to the same type, the second one perhaps outside instead of inside, if
the type is one of some defaults. -/
def IsMoved (defaults : List TypeId) (entry entry' : ParameterId × Binding) : Prop :=
  entry = entry' ∨ ∃ id, ∃ type ∈ defaults, entry = (id, ⟨type, .same⟩) ∧ entry' = (id, ⟨type, .outer⟩)

variable {defaults arguments : List TypeId} {bindings bindings' : Instantiation}
  {entry entry' : ParameterId × Binding} {id : ParameterId}

theorem IsMoved.fst_eq (moved : IsMoved defaults entry entry') : entry.1 = entry'.1 := by
  rcases moved with rfl | ⟨id, type, -, rfl, rfl⟩ <;> rfl

theorem IsMoved.type_eq (moved : IsMoved defaults entry entry') : entry.2.type = entry'.2.type := by
  rcases moved with rfl | ⟨id, type, -, rfl, rfl⟩ <;> rfl

/-- A parameter is bound in neither, or the two bindings are the same up to a move. -/
theorem lookup_of_isMoved (moved : List.Forall₂ (IsMoved defaults) bindings bindings')
    (id : ParameterId) :
    (bindings.lookup id = none ∧ bindings'.lookup id = none) ∨
      ∃ binding binding', bindings.lookup id = some binding ∧ bindings'.lookup id = some binding' ∧
        IsMoved defaults (id, binding) (id, binding') := by
  induction moved with
  | nil => exact .inl ⟨rfl, rfl⟩
  | @cons entry entry' rest rest' here _ ih =>
    obtain ⟨key, binding⟩ := entry
    obtain ⟨key', binding'⟩ := entry'
    obtain rfl : key = key' := here.fst_eq
    by_cases own : id = key
    · subst own
      refine .inr ⟨binding, binding', ?_, ?_, here⟩
      · rw [List.lookup_cons_self]
      · rw [List.lookup_cons_self]
    · have other : (id == key) = false := beq_eq_false_iff_ne.2 own
      rw [List.lookup_cons, List.lookup_cons, other]
      exact ih

theorem bind_isMoved (moved : List.Forall₂ (IsMoved defaults) bindings bindings') {binding binding' : Binding}
    (here : IsMoved defaults (id, binding) (id, binding')) :
    List.Forall₂ (IsMoved defaults) (bindings.bind arena id binding) (bindings'.bind arena id binding') := by
  have known : (bindings.lookup id).isSome = (bindings'.lookup id).isSome := by
    rcases lookup_of_isMoved moved id with ⟨h, h'⟩ | ⟨found, found', h, h', -⟩
    · rw [h, h']
    · rw [h, h']
      rfl
  have same : binding.type = binding'.type := here.type_eq
  unfold bind
  rw [known, same]
  split
  · exact moved
  split
  · exact moved
  · exact List.rel_append moved (.cons here .nil)

theorem bindAll_isMoved (moved : List.Forall₂ (IsMoved defaults) bindings bindings')
    (scope : BindingScope) (parameters : List ParameterId) (arguments : List TypeId) :
    List.Forall₂ (IsMoved defaults) (bindings.bindAll arena scope parameters arguments)
      (bindings'.bindAll arena scope parameters arguments) := by
  induction parameters generalizing bindings bindings' arguments with
  | nil => exact moved
  | cons parameter rest ih =>
    cases arguments with
    | cons argument arguments => exact ih (bind_isMoved moved (.inl rfl)) arguments
    | nil =>
      unfold bindAll
      split
      · exact ih (bind_isMoved moved (.inl rfl)) []
      · exact ih moved []

/-- Written out, the defaults are bound outside. -/
theorem bindAll_written {parameters : List ParameterId} {written : List TypeId}
    (moved : List.Forall₂ (IsMoved defaults) bindings bindings')
    (declared : (parameters.drop arguments.length).map arena.default? = written.map some)
    (among : ∀ type ∈ written, type ∈ defaults) :
    List.Forall₂ (IsMoved defaults) (bindings.bindAll arena .outer parameters arguments)
      (bindings'.bindAll arena .outer parameters (arguments ++ written)) := by
  induction parameters generalizing bindings bindings' arguments written with
  | nil => exact moved
  | cons parameter rest ih =>
    cases arguments with
    | cons argument arguments => exact ih (bind_isMoved moved (.inl rfl)) declared among
    | nil =>
      cases written with
      | nil => cases declared
      | cons type written =>
        obtain ⟨isDefault, declared⟩ : arena.default? parameter = some type ∧
            (rest.drop ([] : List TypeId).length).map arena.default? = written.map some := by
          simpa using declared
        rw [bindAll, isDefault]
        have here : IsMoved defaults (parameter, ⟨type, .same⟩) (parameter, ⟨type, .outer⟩) :=
          .inr ⟨parameter, type, among type List.mem_cons_self, rfl, rfl⟩
        exact ih (bind_isMoved moved here) declared
          fun other listed => among other (List.mem_cons_of_mem _ listed)

theorem bindBases_isMoved {stop : CompileError → Prop}
    (moved : List.Forall₂ (IsMoved defaults) bindings bindings') (steps : Nat) (definition : Definition) :
    Follows stop (List.Forall₂ (IsMoved defaults)) (bindBases arena steps bindings definition)
      (bindBases arena steps bindings' definition) := by
  induction steps generalizing bindings bindings' definition with
  | zero => exact Follows.error _ _
  | succ steps ih =>
    have same : List.Forall₂ Eq definition.bases definition.bases := List.forall₂_same.2 fun _ _ => rfl
    unfold bindBases
    refine Follows.foldlM same ?_ moved
    rintro bindings bindings' base _ moved rfl
    split
    · split
      · exact ih (bindAll_isMoved moved _ _ _) _
      · exact moved
    · exact moved

end Instantiation

/-! ## The two references -/

/-- A reference that leaves out arguments, and the same one with its defaults written out. -/
structure Arena.WritesOut (arena : Arena) (omitted written : TypeId) (target : DefinitionId)
    (definition : Definition) (arguments defaults : List TypeId) : Prop where
  omitted : arena.lookup? omitted = some (.reference target arguments)
  written : arena.lookup? written = some (.reference target (arguments ++ defaults))
  known : arena.definition? target = some definition
  declared : (definition.parameters.drop arguments.length).map arena.default? = defaults.map some

namespace Arena.WritesOut

variable {omitted written : TypeId} {target : DefinitionId} {definition : Definition}
  {arguments defaults : List TypeId}

/-- Both references are named with the same arguments. -/
theorem allArguments_eq (out : arena.WritesOut omitted written target definition arguments defaults) :
    arena.allArguments definition.parameters arguments =
      arena.allArguments definition.parameters (arguments ++ defaults) := by
  have declared := out.declared
  clear out
  generalize definition.parameters = parameters at declared ⊢
  induction parameters generalizing arguments defaults with
  | nil => rfl
  | cons parameter rest ih =>
    cases arguments with
    | cons argument arguments => exact congrArg (Except.ok argument :: ·) (ih declared)
    | nil =>
      cases defaults with
      | nil => cases declared
      | cons type defaults =>
        obtain ⟨isDefault, declared⟩ : arena.default? parameter = some type ∧
            (rest.drop ([] : List TypeId).length).map arena.default? = defaults.map some := by
          simpa using declared
        rw [Arena.allArguments, isDefault, ih declared]
        rfl

/-- Inside of the two references, everything that is written in the parameters of the definition, and of
all that it inherits, is read alike. -/
theorem enter (out : arena.WritesOut omitted written target definition arguments defaults)
    (complete : arena.IsComplete False) (supplied : arena.IsSupplied) {s : Substitution}
    (passes : ∀ made, Instantiation.ofArguments arena definition arguments = .ok made →
      ∀ type ∈ defaults, ∀ id ∈ (arena.treeOf type).parameters, s.PassesBy made id) :
    Follows CompileError.IsTooDeep
      (fun inside inside' => ∀ part, arena.WrittenIn (arena.boundParameters definition) part →
        Substitution.ReadsAlike arena inside inside' part)
      (s.enter arena definition arguments) (s.enter arena definition (arguments ++ defaults)) := by
  unfold Substitution.enter
  refine Follows.bind (R := fun made made' => List.Forall₂ (Instantiation.IsMoved defaults) made made' ∧
      Instantiation.ofArguments arena definition arguments = .ok made) ?_ fun made made' ⟨moved, bound⟩ => ?_
  · have moved : Follows CompileError.IsTooDeep (List.Forall₂ (Instantiation.IsMoved defaults))
        (Instantiation.ofArguments arena definition arguments)
        (Instantiation.ofArguments arena definition (arguments ++ defaults)) :=
      Instantiation.bindBases_isMoved
        (Instantiation.bindAll_written .nil out.declared fun type listed => listed) _ _
    cases made : Instantiation.ofArguments arena definition arguments with
    | error e =>
      rw [made] at moved
      cases made' : Instantiation.ofArguments arena definition (arguments ++ defaults) with
      | error e' => exact Follows.error _ _
      | ok bindings =>
        rw [made'] at moved
        exact moved
    | ok bindings =>
      rw [made] at moved
      obtain ⟨bindings', made', moved⟩ := moved.exists_ok
      rw [made']
      exact ⟨moved, rfl⟩
  · have empty : made.isEmpty = made'.isEmpty := by
      rw [Bool.eq_iff_iff, List.isEmpty_iff_length_eq_zero, List.isEmpty_iff_length_eq_zero,
        moved.length_eq]
    rw [← empty]
    by_cases nothing : made.isEmpty = true
    · rw [if_pos nothing, if_pos nothing]
      exact fun part _ => .inl rfl
    · rw [if_neg nothing, if_neg nothing]
      split
      · exact Follows.error _ _
      · intro part partWritten
        refine .inr ⟨_, .rebound (keepsDefaults_boundParameters supplied out.known) ?_, partWritten⟩
        intro id listed
        have mentioned : arena.WrittenIn (arena.treeOf omitted).parameters omitted :=
          ⟨Arena.index_lt_of_lookup? out.omitted, fun _ own => own⟩
        obtain ⟨within, -⟩ := Instantiation.within_ofArguments complete.sound supplied out.omitted out.known
          mentioned bound
        rcases Instantiation.lookup_of_isMoved moved id with
          ⟨h, h'⟩ | ⟨binding, binding', h, h', same | ⟨other, type, isDefault, first, second⟩⟩
        · exact .free h h'
        · obtain ⟨-, rfl⟩ := Prod.mk.inj same
          refine .kept h h' fun scope => ?_
          have own := within.of_lookup h
          rwa [scope] at own
        · obtain ⟨rfl, rfl⟩ := Prod.mk.inj first
          obtain ⟨-, rfl⟩ := Prod.mk.inj second
          have own := within.of_lookup h
          exact .moved h h' ⟨own.1, fun other open' => open'⟩ (passes made bound type isDefault)

end Arena.WritesOut

/-- Types that are read alike, and the two references. -/
def Context.OmitsOrReads (arena : Arena) (s : Substitution) (omitted written : TypeId) (ctx : Context)
    (type : TypeId) (ctx' : Context) (type' : TypeId) : Prop :=
  ctx.ReadsAlike arena type ctx' type' ∨
    ctx' = ctx ∧ ctx.arena = arena ∧ ctx.substitution = s ∧ type = omitted ∧ type' = written

variable {omitted written : TypeId} {target : DefinitionId} {definition : Definition}
  {arguments defaults : List TypeId}

theorem isSimulation_omitsOrReads (complete : arena.IsComplete False) (supplied : arena.IsSupplied)
    (out : arena.WritesOut omitted written target definition arguments defaults) {s : Substitution}
    (passes : ∀ made, Instantiation.ofArguments arena definition arguments = .ok made →
      ∀ type ∈ defaults, ∀ id ∈ (arena.treeOf type).parameters, s.PassesBy made id) :
    IsSimulation CompileError.IsTooDeep (Context.OmitsOrReads arena s omitted written) where
  options := by
    rintro ctx type ctx' type' (alike | ⟨rfl, -⟩)
    · exact alike.options
    · rfl
  withExact := by
    rintro ctx type ctx' type' exact (alike | ⟨rfl, based, reads, rfl, rfl⟩)
    · exact .inl (alike.withExact exact)
    · exact .inr ⟨rfl, based, reads, rfl, rfl⟩
  keyword := by
    rintro ctx type ctx' type' word (alike | ⟨rfl, based, -⟩)
    · exact .inl (alike.keyword complete.sound word)
    · exact .inl ⟨based, based, rfl, rfl, .inl rfl⟩
  descriptors := by
    rintro ctx type ctx' type' (alike | ⟨rfl, rfl, rfl, rfl, rfl⟩)
    · exact alike.pairs complete supplied .inl
    · rw [out.omitted, out.written]
      refine .some (.reference ⟨rfl, ?_⟩)
      rw [out.known]
      refine .some ⟨rfl, ?_, rfl, ?_⟩
      · rw [← out.allArguments_eq]
        refine List.forall₂_same.2 fun argument _ => (Follows.refl argument).mono ?_
        rintro part _ rfl
        exact .inl ⟨rfl, rfl, rfl, rfl, .inl rfl⟩
      · refine (out.enter complete supplied passes).mono fun inside inside' within => ?_
        exact Context.insideAlike complete rfl out.known fun part partWritten =>
          .inl ⟨rfl, rfl, rfl, rfl, within part partWritten⟩

/-! ## Compiling both -/

/-- A reference that leaves out arguments is named and compiled as the one with its defaults written out,
in every context, if no default mentions a parameter that the reference changes. It may be nested too
deeply where the other is not, since its defaults are read inside of the reference. -/
theorem Context.compile_omittedArguments {ctx : Context} (complete : ctx.arena.IsComplete False)
    (supplied : ctx.arena.IsSupplied)
    (out : ctx.arena.WritesOut omitted written target definition arguments defaults)
    (passes : ∀ made, Instantiation.ofArguments ctx.arena definition arguments = .ok made →
      ∀ type ∈ defaults, ∀ id ∈ (ctx.arena.treeOf type).parameters, ctx.substitution.PassesBy made id)
    (depth : Nat) :
    ctx.nameOf (depth + 1) omitted = ctx.nameOf (depth + 1) written ∧
      ∀ r : Registry,
        (∃ e, e.IsTooDeep ∧ ((compileWithin (depth + 1) ctx omitted).run.run r).1 = .error e) ∨
          ∀ name r', Gives (compileWithin (depth + 1) ctx omitted) r name r' ↔
            Gives (compileWithin (depth + 1) ctx written) r name r' := by
  constructor
  · have here : ctx.arena.lookup omitted = .ok (.reference target arguments) :=
      Arena.lookup_eq_ok.2 out.omitted
    have there : ctx.arena.lookup written = .ok (.reference target (arguments ++ defaults)) :=
      Arena.lookup_eq_ok.2 out.written
    unfold Context.nameOf typeNameWithin
    rw [here, there]
    simp only [Bind.bind, Except.bind, Descriptor.nameWith, referenceNameWith, out.known,
      out.allArguments_eq]
  · intro r
    have sim := isSimulation_omitsOrReads complete supplied out passes
    have together : ctx.OmitsOrReads ctx.arena ctx.substitution omitted written omitted ctx written :=
      .inr ⟨rfl, rfl, rfl, rfl, rfl⟩
    have follows := sim.compileWithin (depth + 1) together r
    rcases made : (compileWithin (depth + 1) ctx omitted).run.run r with ⟨x, s⟩
    rcases made' : (compileWithin (depth + 1) ctx written).run.run r with ⟨y, t⟩
    rw [made, made'] at follows
    unfold Gives
    rw [made, made']
    cases x with
    | error e =>
      cases y with
      | error e' =>
        right
        intro name r'
        constructor <;> rintro ⟨⟩
      | ok name => exact .inl ⟨e, follows, rfl⟩
    | ok name =>
      cases y with
      | error e' => exact follows.elim
      | ok name' =>
        obtain ⟨rfl, rfl⟩ : name = name' ∧ s = t := follows
        exact .inr fun name r' => Iff.rfl

/-- Pages of items have a cursor, which is a text unless said otherwise. The root has pages of numbers,
with and without the cursor. -/
def pages : Document where
  definitions := [⟨"Page", [⟨"Item", none⟩, ⟨"Cursor", some (.keyword .string)⟩], [],
    .object [(⟨"items", false, false, false⟩, some (.array (.parameter "Item"))),
      (⟨"next", false, false, false⟩, some (.parameter "Cursor"))] none⟩]
  root := .tuple [(.reference "Page" [.keyword .number], false),
    (.reference "Page" [.keyword .number, .keyword .string], false)]

/-- The arena that the pages are entered into. -/
def pagesArena : Arena where
  descriptors := Arena.initial.descriptors ++ #[.parameter ⟨0⟩, .parameter ⟨1⟩, .array ⟨14⟩,
    .object ⟨[⟨"items", some ⟨16⟩, false, false, false⟩, ⟨"next", some ⟨15⟩, false, false, false⟩], none⟩,
    .reference ⟨0⟩ [⟨5⟩], .reference ⟨0⟩ [⟨5⟩, ⟨8⟩], .tuple [⟨⟨18⟩, false⟩, ⟨⟨19⟩, false⟩]]
  parameters := #[⟨"Item", none⟩, ⟨"Cursor", some ⟨8⟩⟩]
  definitions := #[⟨"Page", [⟨0⟩, ⟨1⟩], some ⟨17⟩, []⟩]

theorem lower_pages : pages.lower .initial = (.ok ⟨20⟩, pagesArena) := by decide +kernel

theorem pages_isComplete : pagesArena.IsComplete False := by
  obtain ⟨sound, bodies, -⟩ := pages.isSound_lower lower_pages
  exact ⟨sound.weaken, bodies⟩

theorem pages_isSupplied : pagesArena.IsSupplied := by
  have only (target : DefinitionId) (definition : Definition)
      (known : pagesArena.definition? target = some definition) :
      target = ⟨0⟩ ∧ definition = ⟨"Page", [⟨0⟩, ⟨1⟩], some ⟨17⟩, []⟩ := by
    obtain ⟨inside, rfl⟩ := Array.getElem?_eq_some_iff.1 known
    obtain ⟨index⟩ := target
    obtain rfl : index = 0 := by simpa [pagesArena] using inside
    exact ⟨rfl, rfl⟩
  constructor
  · intro type target arguments definition found known id left
    obtain ⟨rfl, rfl⟩ := only target definition known
    -- every reference passes an item, so at most the cursor is left out
    have passes : ∀ descriptor ∈ pagesArena.descriptors, descriptor ≠ .reference ⟨0⟩ [] := by decide
    obtain ⟨first, rest, rfl⟩ : ∃ first rest, arguments = first :: rest := by
      cases arguments with
      | nil => exact absurd rfl (passes _ (Array.mem_of_getElem? found))
      | cons first rest => exact ⟨first, rest, rfl⟩
    obtain rfl : id = ⟨1⟩ := by
      have later : id ∈ [(⟨1⟩ : ParameterId)] := List.mem_of_mem_drop left
      simpa using later
    refine ⟨⟨8⟩, rfl, by decide, ?_⟩
    have closed : (pagesArena.treeOf ⟨8⟩).parameters = [] := by decide
    rw [closed]
    exact nofun
  · intro target definition known before id after split type isDefault
    obtain rfl : type = ⟨8⟩ := by
      obtain ⟨info, there, declared⟩ := Option.bind_eq_some_iff.1 isDefault
      have text : ∀ info ∈ pagesArena.parameters, info.default ∈ [none, some ⟨8⟩] := by decide
      have among := text info (Array.mem_of_getElem? there)
      rw [declared] at among
      simpa using among
    refine ⟨by decide, ?_⟩
    have closed : (pagesArena.treeOf ⟨8⟩).parameters = [] := by decide
    rw [closed]
    exact nofun

/-- A page of numbers with the cursor left out is the page of numbers whose cursor is a text. -/
theorem compile_omittedArguments_pages :
    (Context.root pagesArena {}).nameOf (6 + 1) ⟨18⟩ = (Context.root pagesArena {}).nameOf (6 + 1) ⟨19⟩ ∧
      ∃ r, Gives (compileWithin (6 + 1) (Context.root pagesArena {}) ⟨18⟩) .empty "Page<number, string>" r ∧
        Gives (compileWithin (6 + 1) (Context.root pagesArena {}) ⟨19⟩) .empty "Page<number, string>" r := by
  have out : (Context.root pagesArena {}).arena.WritesOut ⟨18⟩ ⟨19⟩ ⟨0⟩
      ⟨"Page", [⟨0⟩, ⟨1⟩], some ⟨17⟩, []⟩ [⟨5⟩] [⟨8⟩] := ⟨rfl, rfl, rfl, rfl⟩
  have closed : (pagesArena.treeOf ⟨8⟩).parameters = [] := by decide
  have built : ((compileWithin (6 + 1) (Context.root pagesArena {}) ⟨18⟩).run.run .empty).1.toOption =
      some "Page<number, string>" := by rfl
  obtain ⟨named, compiled⟩ := Context.compile_omittedArguments pages_isComplete pages_isSupplied out (by
    intro made _ type listed id mentioned
    obtain rfl := List.mem_singleton.1 listed
    rw [Context.root, closed] at mentioned
    cases mentioned) 6
  refine ⟨named, ?_⟩
  rcases compiled .empty with ⟨e, -, stopped⟩ | same
  · rw [stopped] at built
    cases built
  · rcases made : (compileWithin (6 + 1) (Context.root pagesArena {}) ⟨18⟩).run.run .empty with ⟨result, r⟩
    rw [made] at built
    obtain rfl := toOption_eq_some.1 built
    exact ⟨r, made, (same _ r).1 made⟩

/-! ## A default that mentions another parameter -/

/-- Trees have branches, which are lists of items unless said otherwise. The root has trees of texts, with
and without the branches. -/
def branches : Document where
  definitions := [⟨"Tree", [⟨"Item", none⟩, ⟨"Branch", some (.array (.parameter "Item"))⟩], [],
    .object [(⟨"item", false, false, false⟩, some (.parameter "Item")),
      (⟨"branch", false, false, false⟩, some (.parameter "Branch"))] none⟩]
  root := .tuple [(.reference "Tree" [.keyword .string], false),
    (.reference "Tree" [.keyword .string, .array (.keyword .string)], false)]

/-- The arena that the trees are entered into. -/
def branchesArena : Arena where
  descriptors := Arena.initial.descriptors ++ #[.parameter ⟨0⟩, .parameter ⟨1⟩, .array ⟨14⟩,
    .object ⟨[⟨"item", some ⟨14⟩, false, false, false⟩, ⟨"branch", some ⟨15⟩, false, false, false⟩], none⟩,
    .reference ⟨0⟩ [⟨8⟩], .array ⟨8⟩, .reference ⟨0⟩ [⟨8⟩, ⟨19⟩], .tuple [⟨⟨18⟩, false⟩, ⟨⟨20⟩, false⟩]]
  parameters := #[⟨"Item", none⟩, ⟨"Branch", some ⟨16⟩⟩]
  definitions := #[⟨"Tree", [⟨0⟩, ⟨1⟩], some ⟨17⟩, []⟩]

/-- A default that mentions another parameter is read around the reference when the reference is named,
where this parameter stands for nothing. With the default written out the reference compiles. -/
theorem exists_unbound_default :
    ∃ omitted written v, branches.lower .initial = (.ok ⟨21⟩, branchesArena) ∧
      branchesArena.lookup? omitted = some (.reference ⟨0⟩ [.ofKeyword .string]) ∧
        branchesArena.lookup? written = some (.reference ⟨0⟩ [.ofKeyword .string, ⟨19⟩]) ∧
          branchesArena.lookup? ⟨19⟩ = some (.array (.ofKeyword .string)) ∧
            branchesArena.compile omitted {} = .error (.unboundParameter "Item") ∧
              branchesArena.compile written {} = .ok v ∧ v.root = "Tree<string, Array<string>>" := by
  have lowered : branches.lower .initial = (.ok ⟨21⟩, branchesArena) := by decide +kernel
  have fails : branchesArena.compile ⟨18⟩ {} = .error (.unboundParameter "Item") := by rfl
  have compiles : (branchesArena.compile ⟨20⟩ {}).toOption.map (·.root) =
      some "Tree<string, Array<string>>" := by decide +kernel
  obtain ⟨v, made, named⟩ := Option.map_eq_some_iff.1 compiles
  exact ⟨⟨18⟩, ⟨20⟩, v, lowered, rfl, rfl, rfl, fails, toOption_eq_some.1 made, named⟩

end ShapeCheck
