import ShapeCheck.Proofs.Meaning.Correctness
import ShapeCheck.Proofs.Meaning.Twins

set_option autoImplicit false

/-! # Names are keys

A compilation builds one predicate for each name, so it is sound to build a type under its name only
if all types of that name have the same values. They do if their names tell how they are put together,
and then two compilations agree on types of one name as well.

Main facts: `Arena.Legible.admits_iff` and `Arena.verdict_iff_of_typeName_eq`.
-/

namespace ShapeCheck

/-! ## Names of parts and key sets -/

theorem isPiece_optionalName {inner : String} (h : Text.IsPiece typeStops inner) :
    Text.IsPiece formStops (optionalName inner) := by
  have chars : (optionalName inner).toList = "optional".toList ++ '<' :: (inner.toList ++ ['>']) := by
    simp [optionalName]
  refine ⟨fun empty => by simp [empty] at chars, ?_⟩
  rw [chars]
  exact Form.closed_brackets ('<', '>') (by decide) (.of_chars (by decide)) (h.2.mono (by simp))

theorem toList_exactKeysName (keys : List String) : (exactKeysName keys).toList =
    "keys".toList ++ ' ' :: '\x7b' :: ((", ".intercalate (keys.map Text.quote)).toList ++ ['\x7d']) := by
  simp [exactKeysName]

theorem isPiece_exactKeysName (keys : List String) : Text.IsPiece ['|'] (exactKeysName keys) := by
  refine ⟨fun empty => ?_, ?_⟩
  · have chars := toList_exactKeysName keys
    rw [empty] at chars
    cases chars
  · have quoted : Text.Closed [] (", ".intercalate (keys.map Text.quote)).toList :=
      Text.closed_intercalate (.of_chars (by decide)) fun text inside => by
        obtain ⟨key, -, rfl⟩ := List.mem_map.1 inside
        exact .quotation key
    have listed : ('\x7b', '\x7d') ∈ Text.brackets := by decide
    have word : Text.Closed ['|'] ("keys".toList ++ [' ']) := .of_chars (by decide)
    have whole := word.append (.bracket listed quoted)
    rwa [List.append_assoc, List.singleton_append, ← toList_exactKeysName] at whole

namespace Arena.Legible

variable {arena : Arena} {Good : Goal → Prop} (h : arena.Legible Good) {type : TypeId} {exact : Bool}
  {name : String}
include h

/-- A name that is a single piece between bars is read as that of a type that is no union. -/
theorem exists_reads_of_isPiece (good : Good (.ofType type exact))
    (named : arena.HasName exact type name) (piece : Text.IsPiece ['|'] name) :
    ∃ target marked texts, Good (.ofType target exact) ∧ arena.Reads exact target marked texts ∧
      name = exactMark marked ++ " & ".intercalate texts := by
  obtain ⟨texts, reads, written⟩ := h.exists_alternatives good named
  have single : texts = [name] := by
    refine Text.intercalate_injective isSeparator_bar reads.pieces (by simpa using piece) ?_
    rw [String.intercalate_singleton, ← written]
  subst single
  obtain ⟨target, unfolds, targetNamed⟩ := reads.sound name (List.mem_singleton_self name)
  obtain ⟨good, notUnion⟩ := h.of_unfolds_alternatives good unfolds
  obtain ⟨marked, texts, reads, written⟩ := h.exists_reads good notUnion targetNamed
  exact ⟨target, marked, texts, good, reads, written⟩

/-- A name that can be joined with others is that of a form. -/
theorem exists_core_eq (good : Good (.ofType type exact)) (named : arena.HasName exact type name)
    (piece : Text.IsPiece formStops name) : ∃ form : Form, form.core arena = name := by
  obtain ⟨target, marked, texts, good, reads, written⟩ :=
    h.exists_reads_of_isPiece good named (piece.mono (by decide))
  have single : exactMark marked ++ " & ".intercalate texts =
      exactMark false ++ " & ".intercalate [name] := by
    rw [← written, String.intercalate_singleton]
    simp [exactMark]
  obtain ⟨-, rfl⟩ := marked_injective reads.some (by simp) (reads.pieces h.named)
    (by simpa using piece) single
  cases reads with
  | @form _ form => exact ⟨form, rfl⟩
  | intersection found conjuncts =>
    obtain ⟨twin, unfolds, twinNamed⟩ := conjuncts.sound name (List.mem_singleton_self name)
    obtain ⟨good, descriptor, known, notUnion, notIntersection⟩ :=
      h.of_unfolds_intersection good found unfolds
    obtain ⟨form, -, -, written⟩ := h.exists_form good known notUnion notIntersection twinNamed
    exact ⟨form, by simpa [exactMark] using written.symm⟩

/-- No type is named like an optional part. -/
theorem name_ne_optionalName (good : Good (.ofType type exact)) (named : arena.HasName exact type name)
    {part : TypeId} {exact' : Bool} {inner : String} (good' : Good (.ofType part exact'))
    (named' : arena.HasName exact' part inner) : name ≠ optionalName inner := by
  rintro rfl
  obtain ⟨depth, made⟩ := named'
  obtain ⟨form, same⟩ :=
    h.exists_core_eq good named (isPiece_optionalName (h.isPiece_within good' made))
  have bracket : form.mark = some '<' := by
    rw [← Form.firstMark_core h.named form, same]
    simp [Text.firstMark, optionalName, Text.isMark, Text.brackets]
  cases form with
  | array element =>
    have chars := congrArg String.toList same
    simp [Form.core, optionalName] at chars
  | _ => cases bracket

/-- No type is named like a set of keys. -/
theorem name_ne_exactKeysName (good : Good (.ofType type exact)) (named : arena.HasName exact type name)
    (keys : List String) : name ≠ exactKeysName keys := by
  rintro rfl
  obtain ⟨target, marked, texts, good, reads, written⟩ :=
    h.exists_reads_of_isPiece good named (isPiece_exactKeysName keys)
  have whole := congrArg String.toList written
  obtain ⟨first, rest, rfl⟩ := List.exists_cons_of_ne_nil reads.some
  obtain ⟨tail, chars, shape⟩ := exists_tail first rest
  rw [toList_exactKeysName, String.toList_append, chars] at whole
  cases marked with
  | true => cases whole
  | false =>
    have ends : ∀ c others, tail = c :: others → Text.Ends formStops c := by
      rintro c others rfl
      rcases shape with none | ⟨_, next⟩
      · cases none
      · rw [(List.cons.inj next).1]
        exact .inl ⟨by decide, by decide⟩
    have word : Text.Closed formStops "keys".toList := .of_chars (by decide)
    have starts : ∀ c others, ' ' :: '\x7b' :: ((", ".intercalate (keys.map Text.quote)).toList ++ ['\x7d']) = c :: others → Text.Ends formStops c := by
      intro c others same
      rw [← (List.cons.inj same).1]
      exact .inl ⟨by decide, by decide⟩
    obtain ⟨-, tails⟩ := word.append_injective (reads.pieces h.named first (by simp)).2 starts ends whole
    rcases shape with rfl | ⟨others, rfl⟩
    · cases tails
    · cases tails

/-- Goals of one name admit the same values. -/
theorem admits_iff {goal goal' : Goal} (good : Good goal) (good' : Good goal')
    (named : goal.IsNamed arena name) (named' : goal'.IsNamed arena name) (v : Value) :
    goal.Admits arena.Largest v ↔ goal'.Admits arena.Largest v := by
  cases goal with
  | ofType type exact =>
    have named := hasName_of_typeName named
    cases goal' with
    | ofType type' exact' => exact h.largest_iff good good' named (hasName_of_typeName named') v
    | optional type' exact' =>
      obtain ⟨inner, named', rfl⟩ := named'
      have part := h.closed _ _ good' (.optional type' exact')
      exact absurd rfl (h.name_ne_optionalName good named part (hasName_of_typeName named'))
    | keySet keys => exact absurd named' (h.name_ne_exactKeysName good named keys)
  | optional type exact =>
    obtain ⟨inner, named, rfl⟩ := named
    have named := hasName_of_typeName named
    have part := h.closed _ _ good (.optional type exact)
    cases goal' with
    | ofType type' exact' =>
      exact absurd rfl (h.name_ne_optionalName good' (hasName_of_typeName named') part named)
    | optional type' exact' =>
      obtain ⟨inner', named', same⟩ := named'
      obtain rfl := optionalName_injective same
      have part' := h.closed _ _ good' (.optional type' exact')
      exact or_congr_right (h.largest_iff part part' named (hasName_of_typeName named') v)
    | keySet keys => exact absurd named' (optionalName_ne_exactKeysName inner keys)
  | keySet keys =>
    cases goal' with
    | ofType type' exact' =>
      exact absurd named (h.name_ne_exactKeysName good' (hasName_of_typeName named') keys)
    | optional type' exact' =>
      obtain ⟨inner, -, same⟩ := named'
      exact absurd (same.symm.trans named) (optionalName_ne_exactKeysName inner keys)
    | keySet keys' => rw [exactKeysName_injective (Eq.trans (Eq.symm named) named')]

end Arena.Legible

/-! ## Compilations -/

namespace Arena

/-- The goals of a compilation have names that tell how they are put together. -/
def IsLegible (arena : Arena) (root : Goal) : Prop :=
  ∀ type exact, Goal.IsBuilt arena root (.ofType type exact) →
    ∀ descriptor, arena.lookup? type = some descriptor → descriptor.IsLegible arena exact

section
variable {arena : Arena} {root root' : Goal} (named : arena.NamedByIdentifiers)
include named

theorem legible_of_built (plain : arena.IsMonomorphic root) (legible : arena.IsLegible root) :
    arena.Legible (Goal.IsBuilt arena root) :=
  ⟨named, fun _ _ built needs => built.step needs, plain, legible⟩

theorem Legible.or {Good Good' : Goal → Prop} (h : arena.Legible Good) (h' : arena.Legible Good') :
    arena.Legible fun goal => Good goal ∨ Good' goal where
  named := named
  closed goal part good needs := good.imp (h.closed goal part · needs) (h'.closed goal part · needs)
  monomorphic type exact good := good.elim (h.monomorphic type exact) (h'.monomorphic type exact)
  legible type exact good := good.elim (h.legible type exact) (h'.legible type exact)

end

theorem Legible.agrees {arena : Arena} {root : Goal}
    (h : arena.Legible (Goal.IsBuilt arena root)) : arena.Agrees root arena.Largest :=
  fun _ _ _ built built' named named' => h.admits_iff built built' named named'

theorem largest_solves_built (arena : Arena) (root : Goal) : arena.Solves root arena.Largest :=
  fun type exact _ v => arena.largest_solves type exact v

/-- The name of the predicate of a root follows from the name of its type. -/
theorem isNamed_ofRoot {arena : Arena} {options : CompileOptions} {type : TypeId} {name : String}
    (spelled : arena.typeName [] options.superfluousPropertyCheck type = .ok name) :
    (Goal.ofRoot options type).IsNamed arena
      (if options.valueMayBeAbsent then optionalName name else name) := by
  unfold Goal.ofRoot
  split
  · exact ⟨name, spelled, rfl⟩
  · exact spelled

section
variable {arena : Arena} (identifiers : arena.NamedByIdentifiers) {options : CompileOptions}
include identifiers

/-- Types of one name that are compiled each on its own are decided alike. -/
theorem verdict_eq_of_compile {type type' : TypeId} {name : String}
    (spelled : arena.typeName [] options.superfluousPropertyCheck type = .ok name)
    (spelled' : arena.typeName [] options.superfluousPropertyCheck type' = .ok name)
    (plain : arena.IsMonomorphic (.ofRoot options type))
    (plain' : arena.IsMonomorphic (.ofRoot options type'))
    (legible : arena.IsLegible (.ofRoot options type))
    (legible' : arena.IsLegible (.ofRoot options type')) {v v' : Validator}
    (compiled : arena.compile type options = .ok v)
    (compiled' : arena.compile type' options = .ok v') {value : Value} {b b' : Bool}
    (decided : v.verdict value = .ok b) (decided' : v'.verdict value = .ok b') : b = b' := by
  cases running : options.shortCircuit with
  | true =>
    have always (type : TypeId) : (Context.root arena options).compileRoot type =
        (Context.root arena options).compile (.ofKeyword .any) := by
      simp [Context.compileRoot, Context.root, running]
    unfold compile at compiled compiled'
    rw [always] at compiled compiled'
    obtain rfl := Except.ok.inj (compiled.symm.trans compiled')
    exact Except.ok.inj (decided.symm.trans decided')
  | false =>
    have h := legible_of_built identifiers plain legible
    have h' := legible_of_built identifiers plain' legible'
    have solves := arena.largest_solves_built (.ofRoot options type)
    have solves' := arena.largest_solves_built (.ofRoot options type')
    have root := isNamed_root running plain solves compiled h.agrees
    have root' := isNamed_root running plain' solves' compiled' h'.agrees
    have one := verdict_iff_admits running plain solves compiled h.agrees .root root decided
    have two := verdict_iff_admits running plain' solves' compiled' h'.agrees .root root' decided'
    have same := (h.or identifiers h').admits_iff (.inl .root) (.inr .root)
      (isNamed_ofRoot spelled) (isNamed_ofRoot spelled') value
    exact Bool.eq_iff_iff.2 (one.trans (same.trans two.symm))

end

/-- Names are keys of predicates, if they tell how types are put together: types of one name are
decided alike when each is compiled on its own, and when one takes over the predicate of the other. -/
theorem typeName_isKey {arena : Arena} (identifiers : arena.NamedByIdentifiers)
    {options : CompileOptions} {type type' : TypeId} {name : String}
    (spelled : arena.typeName [] options.superfluousPropertyCheck type = .ok name)
    (spelled' : arena.typeName [] options.superfluousPropertyCheck type' = .ok name)
    (plain : arena.IsMonomorphic (.ofRoot options type))
    (plain' : arena.IsMonomorphic (.ofRoot options type'))
    (legible : arena.IsLegible (.ofRoot options type))
    (legible' : arena.IsLegible (.ofRoot options type')) :
    (∀ v v', arena.compile type options = .ok v → arena.compile type' options = .ok v' →
      ∀ value b b', v.verdict value = .ok b → v'.verdict value = .ok b' → b = b') ∧
    ∀ whole w, options.shortCircuit = false → arena.IsMonomorphic (.ofRoot options whole) →
      arena.IsLegible (.ofRoot options whole) → arena.compile whole options = .ok w →
        Goal.IsBuilt arena (.ofRoot options whole) (.ofType type options.superfluousPropertyCheck) →
        Goal.IsBuilt arena (.ofRoot options whole) (.ofType type' options.superfluousPropertyCheck) →
          ∀ value b, { w with root := name }.verdict value = .ok b →
            (b = true ↔ arena.Largest type options.superfluousPropertyCheck value) ∧
              (b = true ↔ arena.Largest type' options.superfluousPropertyCheck value) := by
  constructor
  · intro v v' compiled compiled' value b b' decided decided'
    exact verdict_eq_of_compile identifiers spelled spelled' plain plain' legible legible' compiled
      compiled' decided decided'
  · intro whole w running plain legible compiled built built' value b decided
    have agrees := (legible_of_built identifiers plain legible).agrees
    have solves := arena.largest_solves_built (.ofRoot options whole)
    exact ⟨verdict_iff_admits running plain solves compiled agrees built spelled decided,
      verdict_iff_admits running plain solves compiled agrees built' spelled' decided⟩

end Arena

/-! ## Members in two orders -/

/-- Numbers or strings, with the members in two orders; the second union is in an array, and so is the
first. -/
def numbersOrStrings : Arena :=
  let arena := Arena.initial
  let (one, arena) := arena.intern (.union [.ofKeyword .number, .ofKeyword .string])
  let (two, arena) := arena.intern (.union [.ofKeyword .string, .ofKeyword .number])
  let (_, arena) := arena.intern (.array one)
  let (_, arena) := arena.intern (.array two)
  (arena.intern (.tuple [⟨⟨16⟩, false⟩, ⟨⟨17⟩, false⟩])).2

example : numbersOrStrings.typeName [] false ⟨14⟩ = numbersOrStrings.typeName [] false ⟨15⟩ := by
  decide +kernel

/-- Neither an intersection, nor a union without members, nor a type with parameters. -/
def Descriptor.isSimple : Descriptor → Bool
  | .union members => !members.isEmpty
  | .intersection _ | .reference _ _ | .parameter _ | .indexAccess _ _ | .keyof _ => false
  | _ => true

theorem isSimple_numbersOrStrings {type : TypeId} {descriptor : Descriptor}
    (found : numbersOrStrings.lookup? type = some descriptor) : descriptor.isSimple = true := by
  have all : ∀ descriptor ∈ numbersOrStrings.descriptors, descriptor.isSimple = true := by
    decide +kernel
  exact all descriptor (Array.mem_of_getElem? found)

theorem numbersOrStrings_isMonomorphic (root : Goal) : numbersOrStrings.IsMonomorphic root := by
  intro type exact _ descriptor found
  have simple := isSimple_numbersOrStrings found
  cases descriptor with
  | union members =>
    rintro rfl
    cases simple
  | reference | parameter | indexAccess | keyof => cases simple
  | _ => trivial

theorem numbersOrStrings_isLegible (root : Goal) : numbersOrStrings.IsLegible root := by
  intro type exact _ descriptor found
  have simple := isSimple_numbersOrStrings found
  cases descriptor with
  | intersection => cases simple
  | _ => trivial

/-- Lists of numbers or strings are decided alike in both orders, and by one predicate in a pair. -/
theorem typeName_isKey_numbersOrStrings :
    ∃ v v' w value, numbersOrStrings.compile ⟨16⟩ {} = .ok v ∧
      numbersOrStrings.compile ⟨17⟩ {} = .ok v' ∧ numbersOrStrings.compile ⟨18⟩ {} = .ok w ∧
        v.verdict value = .ok true ∧ v'.verdict value ≠ .ok false ∧
          numbersOrStrings.Largest ⟨16⟩ false value ∧ numbersOrStrings.Largest ⟨17⟩ false value := by
  let value : Value := .array [.number (Double.ofNat 1), .string "b"]
  have spelled : numbersOrStrings.typeName [] false ⟨16⟩ = .ok "Array<number | string>" := by
    decide +kernel
  have spelled' : numbersOrStrings.typeName [] false ⟨17⟩ = .ok "Array<number | string>" := by
    decide +kernel
  have accepts : ((numbersOrStrings.compile ⟨16⟩ {}).toOption.bind fun v =>
      (v.verdict value).toOption) = some true := by decide +kernel
  have compiles : (numbersOrStrings.compile ⟨17⟩ {}).toOption.isSome = true := by decide +kernel
  have shares : ((numbersOrStrings.compile ⟨18⟩ {}).toOption.bind fun w =>
      ({ w with root := "Array<number | string>" }.verdict value).toOption) = some true := by
    decide +kernel
  obtain ⟨v, compiled, decided⟩ := Option.bind_eq_some_iff.1 accepts
  obtain ⟨v', compiled'⟩ := Option.isSome_iff_exists.1 compiles
  obtain ⟨w, whole, shared⟩ := Option.bind_eq_some_iff.1 shares
  rw [toOption_eq_some] at compiled compiled' whole decided shared
  have identifiers : numbersOrStrings.NamedByIdentifiers := by
    have none : numbersOrStrings.definitions = #[] := by decide +kernel
    intro id definition found
    rw [Arena.definition?, none] at found
    cases found
  obtain ⟨alone, together⟩ := @Arena.typeName_isKey numbersOrStrings identifiers {} ⟨16⟩ ⟨17⟩ _
    spelled spelled' (numbersOrStrings_isMonomorphic _) (numbersOrStrings_isMonomorphic _)
    (numbersOrStrings_isLegible _) (numbersOrStrings_isLegible _)
  have pair : numbersOrStrings.lookup? ⟨18⟩ =
      some (.tuple [⟨⟨16⟩, false⟩, ⟨⟨17⟩, false⟩]) := by decide +kernel
  have values := together ⟨18⟩ w rfl (numbersOrStrings_isMonomorphic _)
    (numbersOrStrings_isLegible _) whole
    (Goal.IsBuilt.root.step (.element pair (List.mem_cons_self)))
    (Goal.IsBuilt.root.step (.element pair (List.mem_cons_of_mem _ (List.mem_cons_self))))
    value true shared
  refine ⟨v, v', w, value, compiled, compiled', whole, decided, fun decided' => ?_, values.1.1 rfl,
    values.2.1 rfl⟩
  cases alone v v' compiled compiled' value true false decided decided'

/-! ## A union in an intersection -/

/-- A text or a truth value, which is a number, and a text, or a truth value which is a number. -/
def textOrTruth : Arena :=
  let arena := Arena.initial
  let (text, arena) := arena.intern (.stringLiteral "a")
  let (union, arena) := arena.intern (.union [text, .ofKeyword .boolean])
  let (_, arena) := arena.intern (.intersection [union, .ofKeyword .number])
  let (both, arena) := arena.intern (.intersection [.ofKeyword .boolean, .ofKeyword .number])
  (arena.intern (.union [text, both])).2

/-- Names have no brackets around members, so a union in an intersection may be taken for an
intersection in a union. -/
theorem exists_typeName_eq_verdict_ne :
    ∃ (arena : Arena) (type type' : TypeId) (name : String) (v v' : Validator) (value : Value),
      arena.typeName [] false type = .ok name ∧ arena.typeName [] false type' = .ok name ∧
        arena.compile type {} = .ok v ∧ arena.compile type' {} = .ok v' ∧
          v.verdict value = .ok false ∧ v'.verdict value = .ok true := by
  have spelled : textOrTruth.typeName [] false ⟨16⟩ = .ok "\"a\" | boolean & number" := by
    decide +kernel
  have spelled' : textOrTruth.typeName [] false ⟨18⟩ = .ok "\"a\" | boolean & number" := by
    decide +kernel
  have rejects : ((textOrTruth.compile ⟨16⟩ {}).toOption.bind fun v =>
      (v.verdict (.string "a")).toOption) = some false := by decide +kernel
  have accepts : ((textOrTruth.compile ⟨18⟩ {}).toOption.bind fun v =>
      (v.verdict (.string "a")).toOption) = some true := by decide +kernel
  obtain ⟨v, compiled, decided⟩ := Option.bind_eq_some_iff.1 rejects
  obtain ⟨v', compiled', decided'⟩ := Option.bind_eq_some_iff.1 accepts
  rw [toOption_eq_some] at compiled compiled' decided decided'
  exact ⟨textOrTruth, ⟨16⟩, ⟨18⟩, _, v, v', .string "a", spelled, spelled', compiled, compiled',
    decided, decided'⟩

end ShapeCheck
