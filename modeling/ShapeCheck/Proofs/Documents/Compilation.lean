import ShapeCheck.Compile.Basic
import ShapeCheck.Proofs.Compilation.Errors
import ShapeCheck.Proofs.Documents.Contexts
import ShapeCheck.Proofs.Documents.Lowering

set_option autoImplicit false

/-! # Nothing is missing in a lowered document

Every strategy compiles parts that fit the context it compiles them in, so it fails only as the
compilation of a part does, or with an error of its own that says something else. This is proved once for
each strategy and then for all types by induction on the depth.

Main fact: `Document.not_isDangling_of_compile`.
-/

namespace ShapeCheck

variable {full : Prop} {ctx : Context} {type : TypeId}

/-! ## Composite types -/

section
variable {depth : Nat} {compile : Context → TypeId → Build String}
  (compiled : ∀ (ctx : Context) (type : TypeId), ctx.Fits full type →
    OnlyFails (Allowed full) (compile ctx type))
include compiled

/-- An object whose parts fit. -/
theorem onlyFails_objectBody_of_fits {shape : ObjectShape}
    (fits : ∀ part ∈ (Descriptor.object shape).children, ctx.Fits full part) :
    OnlyFails (Allowed full) (objectBody compile ctx shape) := by
  refine onlyFails_objectBody (fun property listed _ => ⟨?_, ?_, ?_⟩) fun part indexed => ?_
  · exact fun _ _ => ⟨nofun, fun _ => nofun⟩
  · exact fun _ _ => ⟨nofun, fun _ => nofun⟩
  · intro _ part typed
    have among : part ∈ (Descriptor.object shape).children :=
      List.mem_append_left _ (List.mem_filterMap.2 ⟨property, listed, typed⟩)
    exact compiled ctx part (fits part among)
  · have among : part ∈ (Descriptor.object shape).children :=
      List.mem_append_right _ (by simp [indexed])
    exact compiled ctx part (fits part among)

variable {definition : Definition} {id : DefinitionId} {arguments : List TypeId}

theorem onlyFails_referenceBody (fits : ctx.Fits full type)
    (found : ctx.arena.lookup? type = some (.reference id arguments))
    (known : ctx.arena.definition? id = some definition) :
    OnlyFails (Allowed full) (referenceBody compile ctx definition arguments) := by
  unfold referenceBody
  have entering : OnlyErrors (Allowed full) (ctx.enter definition arguments) :=
    Context.Fits.onlyErrors_enter ctx definition arguments
  refine OnlyFails.lift_bind entering fun inside entered => ?_
  obtain ⟨body, given⟩ := Option.isSome_iff_exists.1 (fits.complete.bodies id definition known)
  have bodied : definition.requireBody = .ok body := by simp [Definition.requireBody, given]
  rw [bodied]
  refine OnlyFails.lift_bind (.ok body) fun _ same => ?_
  obtain rfl := Except.ok.inj same
  split
  · exact (compiled inside body (fits.body found known entered given)).bind fun name => .pure _
  · -- the context inside of a reference has the same arena
    obtain ⟨s, -, made⟩ := bind_eq_ok.1 entered
    obtain rfl := Except.ok.inj made
    obtain ⟨errors, parts⟩ := fits.mergedShape found known entered
    exact OnlyFails.lift_bind errors fun shape merged =>
      onlyFails_objectBody_of_fits compiled (parts shape merged)

/-! ## Indexed access -/

omit compiled in
theorem onlyFails_firstNonempty {α : Type} {find : TypeId → Build (List α)} {types : List TypeId}
    (h : ∀ type ∈ types, OnlyFails (Allowed full) (find type)) :
    OnlyFails (Allowed full) (firstNonempty find types) := by
  induction types with
  | nil => exact .pure []
  | cons type rest ih =>
    refine (h type List.mem_cons_self).bind fun found => ?_
    split
    · exact ih fun other listed => h other (List.mem_cons_of_mem _ listed)
    · exact .pure _

theorem onlyFails_objectMembers {shape : ObjectShape}
    (fits : ∀ part ∈ (Descriptor.object shape).children, ctx.Fits full part) (key : IndexKey) :
    OnlyFails (Allowed full) (objectMembers compile ctx shape key) := by
  have declared (name : String) (property : Property) (found : shape.property? name = some property) :
      property ∈ shape.properties := List.mem_of_find?_eq_some found
  unfold objectMembers
  dsimp only
  split
  · rename_i property found
    have listed : property ∈ shape.properties := by
      cases key with
      | name text => exact declared text property found
      | number x => exact declared x.text property found
      | anyString | anyNumber => cases found
    split
    · exact .pure []
    split
    · exact .throw ⟨by rintro ⟨⟩, fun _ => by rintro ⟨⟩⟩
    · rename_i part typed
      have among : part ∈ (Descriptor.object shape).children :=
        List.mem_append_left _ (List.mem_filterMap.2 ⟨property, listed, typed⟩)
      exact (onlyFails_compilePart (compiled ctx part (fits part among)) _).bind fun name => .pure _
  · split
    · rename_i part indexed
      have among : part ∈ (Descriptor.object shape).children :=
        List.mem_append_right _ (by simp [indexed])
      exact (compiled ctx part (fits part among)).bind fun name => .pure _
    · exact .pure []

theorem onlyFails_arrayMembers {element : TypeId} (fits : ctx.Fits full element) (key : IndexKey) :
    OnlyFails (Allowed full) (arrayMembers compile ctx element key) := by
  unfold arrayMembers
  split
  · exact (compiled ctx element fits).bind fun name => .pure _
  · exact (compiled ctx element fits).bind fun name => .pure _
  · exact (compiled ctx _ (fits.builtin rfl)).bind fun name => .pure _
  · exact .pure []

theorem onlyFails_tupleMembers (fits : ctx.Fits full type) {elements : List TupleElement}
    (inside : ∀ element ∈ elements, ctx.Fits full element.type) (key : IndexKey) :
    OnlyFails (Allowed full) (tupleMembers compile ctx elements key) := by
  unfold tupleMembers
  split
  · split
    · rename_i element found
      have listed : element ∈ elements := by
        split at found
        · exact List.mem_of_getElem? found
        · cases found
      exact (onlyFails_compilePart (compiled ctx element.type (inside element listed)) _).bind fun name => .pure _
    · exact .pure []
  · refine (OnlyFails.mapM fun element listed => ?_).bind fun names => .pure _
    exact compiled ctx element.type (inside element listed)
  · exact (compiled ctx _ (fits.builtin rfl)).bind fun name => .pure _
  · exact .pure []

theorem onlyFails_membersWithin (key : IndexKey) (steps : Nat) (fits : ctx.Fits full type) :
    OnlyFails (Allowed full) (membersWithin compile key steps ctx type) := by
  induction steps generalizing ctx type with
  | zero => exact .throw (CompileError.isAllowed_tooDeep _ _)
  | succ steps ih =>
    unfold membersWithin
    obtain ⟨descriptor, found⟩ := fits.exists_lookup?
    have parts (part : TypeId) (listed : part ∈ descriptor.children) : ctx.Fits full part :=
      fits.child found listed
    simp only [Arena.lookup, found, Build.liftM_ok, pure_bind]
    cases descriptor with
    | object shape => exact onlyFails_objectMembers compiled parts key
    | array element => exact onlyFails_arrayMembers compiled (parts element List.mem_cons_self) key
    | tuple elements =>
      exact onlyFails_tupleMembers compiled fits
        (fun element listed => parts element.type (List.mem_map_of_mem listed)) key
    | reference target arguments =>
      obtain ⟨definition, body, known, leads, isBody, given⟩ := fits.exists_target found
      simp only [leads, isBody, Build.liftM_ok, pure_bind]
      refine OnlyFails.lift_bind (Context.Fits.onlyErrors_enter ctx definition arguments) ?_
      refine fun inside entered => onlyFails_firstNonempty fun part listed => ih ?_
      rcases List.mem_cons.1 listed with rfl | isBase
      · exact fits.body found known entered given
      · exact fits.base found known entered isBase
    | parameter id =>
      obtain ⟨errors, results⟩ := fits.resolve found
      exact OnlyFails.lift_bind errors fun stands resolved => ih (results _ _ resolved)
    | union members =>
      exact (OnlyFails.mapM fun member listed => ih (parts member listed)).bind fun found => .pure _
    | intersection members =>
      exact onlyFails_firstNonempty fun member listed => ih (parts member listed)
    | _ => exact .pure []

theorem onlyFails_compileIndexAccess (fits : ctx.Fits full type) {whole index : TypeId}
    (isWhole : ctx.Fits full whole) (isIndex : ctx.Fits full index) :
    OnlyFails (Allowed full) (compileIndexAccess depth compile ctx type whole index) := by
  have selected (key : IndexKey) :
      OnlyFails (Allowed full) (selectedMembers depth compile ctx type whole key) := by
    unfold selectedMembers
    refine (onlyFails_membersWithin compiled key maxResolutionSteps isWhole).bind fun found => ?_
    split
    · refine OnlyFails.lift_bind (fits.nameOf depth) fun name _ => .throw ?_
      refine CompileError.isAllowed_unsupported (c := 'i') ?_ (by decide)
      simp [String.toList_append]
    · exact .pure found
  unfold compileIndexAccess
  refine OnlyFails.lift_bind (isIndex.indexKeys depth) fun keys _ => ?_
  refine (OnlyFails.mapM fun key _ => selected key).bind fun found => ?_
  split
  · exact .throw (CompileError.isAllowed_unsupported (c := 'i') rfl (by decide))
  · exact .pure _
  · exact OnlyFails.lift_bind (fits.nameOf depth) fun name _ => Build.onlyFails_ensureExpr (.pure _)

/-! ## All types -/

theorem onlyFails_compileDescriptor (fits : ctx.Fits full type) {descriptor : Descriptor}
    (found : ctx.arena.lookup? type = some descriptor) :
    OnlyFails (Allowed full) (compileDescriptor depth compile ctx type descriptor) := by
  have parts (part : TypeId) (listed : part ∈ descriptor.children) : ctx.Fits full part :=
    fits.child found listed
  have named {build : String → Build String} (h : ∀ name, OnlyFails (Allowed full) (build name)) :
      OnlyFails (Allowed full) ((liftM (ctx.nameOf depth type) : Build String) >>= build) :=
    OnlyFails.lift_bind (fits.nameOf depth) fun name _ => h name
  unfold compileDescriptor
  split
  · exact Build.onlyFails_ensureExpr (.pure _)
  split
  · exact named fun name => Build.onlyFails_ensure
      (onlyFails_arrayBody (compiled ctx _ (parts _ List.mem_cons_self)))
  · exact named fun name => Build.onlyFails_ensureExpr (onlyFails_tupleCheck fun element listed =>
      compiled ctx element.type (parts element.type (List.mem_map_of_mem listed)))
  · exact named fun name => Build.onlyFails_ensure (onlyFails_objectBody_of_fits compiled parts)
  · exact named fun name => Build.onlyFails_ensureExpr
      (onlyFails_unionCheck fun member listed => compiled ctx member (parts member listed))
  · refine named fun name => Build.onlyFails_ensureExpr (onlyFails_intersectionCheck (fun member listed => ?_)
      fun _ => fits.collectKeys depth)
    exact compiled _ member ((parts member listed).withExact false)
  · obtain ⟨definition, -, known, leads, -, -⟩ := fits.exists_target found
    simp only [leads, Build.liftM_ok, pure_bind]
    exact named fun name => Build.onlyFails_ensure (onlyFails_referenceBody compiled fits found known)
  · obtain ⟨errors, results⟩ := fits.resolve found
    exact OnlyFails.lift_bind errors fun stands resolved => compiled _ _ (results _ _ resolved)
  · exact onlyFails_compileIndexAccess compiled fits (parts _ (by simp [Descriptor.children]))
      (parts _ (by simp [Descriptor.children]))
  · exact named fun name => Build.onlyFails_ensureExpr
      (onlyFails_keyofCheck ((parts _ List.mem_cons_self).collectKeys depth))
  · exact .throw (isAllowed_kind type _).1

end

theorem onlyFails_compileWithin (depth : Nat) (fits : ctx.Fits full type) :
    OnlyFails (Allowed full) (compileWithin depth ctx type) := by
  induction depth generalizing ctx type with
  | zero => exact .throw ⟨nofun, fun _ => nofun⟩
  | succ depth ih =>
    obtain ⟨descriptor, found⟩ := fits.exists_lookup?
    simp only [compileWithin, Arena.lookup, found, Build.liftM_ok, pure_bind]
    exact onlyFails_compileDescriptor (fun ctx type => ih) fits found

theorem onlyFails_compileRoot (fits : ctx.Fits full type) :
    OnlyFails (Allowed full) (ctx.compileRoot type) := by
  unfold Context.compileRoot
  split
  · exact onlyFails_compileWithin _ (fits.builtin rfl)
  · refine (onlyFails_compileWithin _ fits).bind fun name => ?_
    split
    · exact Build.onlyFails_optional name
    · exact .pure name

/-- The root of a lowered document fits the context that it is compiled in. -/
theorem Document.fits_lower {document : Document} {root : TypeId} {arena : Arena}
    (lowered : document.lower .initial = (.ok root, arena)) (options : CompileOptions) :
    (Context.root arena options).Fits document.PassesAll root := by
  obtain ⟨sound, bodies, written⟩ := document.isSound_lower lowered
  have reads : Substitution.Reads document.PassesAll arena [] root :=
    Substitution.reads_of_writtenIn written fun _ _ => nofun
  exact ⟨⟨sound, bodies⟩, trivial, reads⟩

/-- A lowered document that cannot be compiled lacks no body, type or definition, and no base is
anything but a reference. If all its references pass all arguments, no parameter is unbound either. -/
theorem Document.not_isDangling_of_compile {document : Document} {root : TypeId} {arena : Arena}
    (lowered : document.lower .initial = (.ok root, arena)) {options : CompileOptions} {e : CompileError}
    (failed : arena.compile root options = .error e) :
    ¬ e.IsDangling ∧ (document.PassesAll → ¬ e.IsUnbound) := by
  have fits := document.fits_lower lowered options
  unfold Arena.compile at failed
  rcases made : ((Context.root arena options).compileRoot root).run.run .empty with ⟨result, registry⟩
  rw [made] at failed
  cases result with
  | error e' =>
    obtain rfl := Except.error.inj failed
    exact onlyFails_compileRoot fits .empty e' registry made
  | ok name => cases failed

/-- A box for a type, holding a symbol: symbols cannot be checked. -/
def boxedSymbol : Document where
  definitions := [⟨"Box", [⟨"T", none⟩], [],
    .object [(⟨"value", false, false, false⟩, some (.parameter "T"))] none⟩]
  root := .reference "Box" [.keyword .symbol]

/-- The arena that the box is entered into. -/
def boxedSymbolArena : Arena where
  descriptors := Arena.initial.descriptors ++ #[.parameter ⟨0⟩,
    .object ⟨[⟨"value", some ⟨14⟩, false, false, false⟩], none⟩, .reference ⟨0⟩ [⟨10⟩]]
  parameters := #[⟨"T", none⟩]
  definitions := #[⟨"Box", [⟨0⟩], some ⟨15⟩, []⟩]

theorem not_isDangling_of_compile_boxedSymbol :
    boxedSymbol.lower .initial = (.ok ⟨16⟩, boxedSymbolArena) ∧
      boxedSymbolArena.compile ⟨16⟩ {} = .error (.unsupportedType ⟨10⟩ "symbol") ∧
        ¬ (CompileError.unsupportedType ⟨10⟩ "symbol").IsDangling ∧ boxedSymbol.PassesAll ∧
          ¬ (CompileError.unsupportedType ⟨10⟩ "symbol").IsUnbound := by
  have lowered : boxedSymbol.lower .initial = (.ok ⟨16⟩, boxedSymbolArena) := by decide +kernel
  have failed : boxedSymbolArena.compile ⟨16⟩ {} = .error (.unsupportedType ⟨10⟩ "symbol") := by
    rfl
  have passes : boxedSymbol.PassesAll := by
    unfold Document.PassesAll
    decide
  obtain ⟨there, bound⟩ := boxedSymbol.not_isDangling_of_compile lowered failed
  exact ⟨lowered, failed, there, passes, bound passes⟩

end ShapeCheck
