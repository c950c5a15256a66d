import ShapeCheck.Proofs.Narrowing.Coverage
import ShapeCheck.Proofs.Narrowing.Likeness
import ShapeCheck.Proofs.Narrowing.Limits
import ShapeCheck.Proofs.Narrowing.Tables

set_option autoImplicit false

/-! # The check for superfluous keys

A type that compiles with the check for superfluous keys compiles without it, and accepts all values that
it accepts with the check. There is one exception: instantiations may be nested more deeply. With the check,
a type inside of an intersection has a name of its own, and is compiled where the intersection is; without
it the type may have been met before, inside of many instantiations, where what it refers to lies too deep.

Main facts: `Arena.narrows_compile`.
-/

namespace ShapeCheck

/-- The options with the check for superfluous keys on or off. -/
def CompileOptions.withCheck (options : CompileOptions) (exact : Bool) : CompileOptions :=
  { options with superfluousPropertyCheck := exact }

namespace Subject

variable {arena : Arena} {options : CompileOptions} {subject : Subject}

theorem loosely_ofRoot (options : CompileOptions) (exact : Bool) (a : Reading) :
    (ofRoot (options.withCheck exact) a).loosely = ofRoot (options.withCheck false) a := by
  unfold ofRoot CompileOptions.withCheck
  dsimp only
  split <;> [rfl; split <;> rfl]

theorem Contains.loosely {value : Value} (h : subject.Contains arena value) :
    subject.loosely.Contains arena value := by
  cases subject with
  | ofType exact a => exact Arena.Contains.loosely h
  | optional exact a => exact h.imp_right Arena.Contains.loosely
  | keySet keys => exact h

theorem Works.loosely {ignoreMethods : Bool} (h : subject.Works arena ignoreMethods) :
    subject.loosely.Works arena ignoreMethods := by
  cases subject <;> exact h

/-- A root that can be compiled is compiled without the check, as far as limits allow. -/
theorem Works.onlyLimits_compileRoot
    (number : arena.lookup? (.ofKeyword .number) = some (.keyword .number))
    (loose : options.superfluousPropertyCheck = false) {s : Substitution} {type : TypeId}
    (works : (ofRoot options (s, type)).Works arena options.ignoreMethods) :
    OnlyFails CompileError.IsLimit (Context.compileRoot ⟨arena, options, s⟩ type) := by
  unfold Context.compileRoot
  unfold ofRoot at works
  cases short : options.shortCircuit with
  | true =>
    rw [short, if_pos rfl] at works
    exact Arena.Works.onlyLimits_compileWithin number _ loose works
  | false =>
    rw [short, if_neg Bool.false_ne_true] at works
    have works : arena.Works options.ignoreMethods (s, type) := by split at works <;> exact works
    refine (Arena.Works.onlyLimits_compileWithin number maxUnfoldingDepth loose works).bind fun name => ?_
    split
    · exact Build.onlyFails_optional name
    · exact .pure name

end Subject

/-! ## Validators -/

namespace Arena

variable {arena : Arena} {type : TypeId} {options : CompileOptions} {v v' : Validator}

theorem compiles_of_compile (made : arena.compile type options = .ok v) :
    (Context.root arena options).Compiles type v := by
  obtain ⟨root, registry, outcome, rfl⟩ := compile_eq_ok.1 made
  exact ⟨root, registry, outcome, rfl⟩

/-- A compilation that fails has the error of its root. -/
theorem onlyErrors_compile {E : CompileError → Prop}
    (root : OnlyFails E ((Context.root arena options).compileRoot type)) :
    OnlyErrors E (arena.compile type options) := by
  intro e failed
  unfold compile at failed
  split at failed
  · rename_i error registry outcome
    cases failed
    exact root _ _ _ outcome
  · cases failed

section
variable (number : arena.lookup? (.ofKeyword .number) = some (.keyword .number))
  (apart : ∀ exact, Subject.ToldApart arena (.ofRoot (options.withCheck exact) ([], type)))
  (made : arena.compile type (options.withCheck true) = .ok v)
include number apart made

/-- What is accepted with the check is accepted without it, or the evaluation halts at the limit. -/
theorem verdict_of_verdict_withCheck (made' : arena.compile type (options.withCheck false) = .ok v')
    {value : Value} (accepted : v.verdict value = .ok true) :
    v'.verdict value = .ok true ∨ v'.verdict value = .error .depthExceeded := by
  have contained := (Context.verdict_iff_contains number (compiles_of_compile made) (apart true) accepted).1 rfl
  have loosely := contained.loosely
  rw [Subject.loosely_ofRoot] at loosely
  refine ((compiles_of_compile made').verdict_cases value).imp_left fun ⟨b, outcome⟩ => ?_
  have same := Context.verdict_iff_contains number (compiles_of_compile made') (apart false) outcome
  rw [outcome, same.2 loosely]

end

end Arena

/-! ## Types that are met inside of many instantiations -/

/-- A `Node` is `{next?: Pair<Node> & object}`, and a `Pair<T>` is `[T & object, Label & object]`, where a
`Label` has a `Box<string>`. The access `Level0<Node>["inner"]` leads through 49 levels, each of which hands
its argument on to the next one, to a `Pair<Node>`. -/
def levels : Arena where
  descriptors := Array.mk <| Arena.initial.descriptors.toList ++
    [.parameter ⟨0⟩, .object ⟨[⟨"content", some ⟨14⟩, false, false, false⟩], none⟩,
      .reference ⟨0⟩ [.ofKeyword .string],
      .object ⟨[⟨"label", some ⟨16⟩, false, false, false⟩], none⟩, .reference ⟨1⟩ [],
      .parameter ⟨1⟩, .intersection [⟨19⟩, .ofKeyword .object], .intersection [⟨18⟩, .ofKeyword .object],
      .tuple [⟨⟨20⟩, false⟩, ⟨⟨21⟩, false⟩],
      .reference ⟨2⟩ [⟨30⟩], .intersection [⟨23⟩, .ofKeyword .object],
      .object ⟨[⟨"next", some ⟨24⟩, true, false, false⟩], none⟩,
      .stringLiteral "inner", .indexAccess ⟨31⟩ ⟨26⟩, .reference ⟨2⟩ [⟨128⟩],
      .object ⟨[⟨"inner", some ⟨28⟩, false, false, false⟩], none⟩, .reference ⟨3⟩ []] ++
    (List.range 49).flatMap fun i => [.reference ⟨4 + i⟩ [⟨30 + 2 * i⟩], .parameter ⟨2 + i⟩]
  parameters := Array.mk (List.replicate 51 ⟨"T", none⟩)
  definitions := Array.mk <|
    [⟨"Box", [⟨0⟩], some ⟨15⟩, []⟩, ⟨"Label", [], some ⟨17⟩, []⟩, ⟨"Pair", [⟨1⟩], some ⟨22⟩, []⟩,
      ⟨"Node", [], some ⟨25⟩, []⟩] ++
    (List.range 49).map fun i =>
      ⟨"Level" ++ toString i, [⟨2 + i⟩], some (if i = 48 then ⟨29⟩ else ⟨33 + 2 * i⟩), []⟩

/-- Inside of some of the levels. -/
def inLevels : Nat → Substitution
  | 0 => []
  | i + 1 => [(⟨2 + i⟩, ⟨⟨30 + 2 * i⟩, .outer⟩)] :: inLevels i

/-- Inside of the `Pair<Node>` at the end of all levels. -/
def deepPair : Substitution := [(⟨1⟩, ⟨⟨128⟩, .outer⟩)] :: inLevels 49

/-- Inside of the `Pair<Node>` of a node. -/
def plainPair : Substitution := [[(⟨1⟩, ⟨⟨30⟩, .outer⟩)]]

/-- Inside of the `Box<string>` of a pair. -/
def inBox (s : Substitution) : Substitution := [(⟨0⟩, ⟨.ofKeyword .string, .outer⟩)] :: s

/-- What is compiled for the body of `Pair<Node>` without the check, but for the contents of the box. -/
def pairNames (s : Substitution) : List (Subject × Option String) :=
  [(.ofType false (s, ⟨22⟩), some "[Node & object, Label & object]"),
    (.ofType false (s, ⟨20⟩), some "Node & object"), (.ofType false (s, ⟨21⟩), some "Label & object"),
    (.ofType false (s, ⟨19⟩), none), (.ofType false (s, .ofKeyword .object), some "object"),
    (.ofType false (s, ⟨18⟩), some "Label"), (.ofType false (s, ⟨17⟩), some "{label: Box<string>}"),
    (.ofType false (s, ⟨16⟩), some "Box<string>")]

/-- What is compiled for a node and for the access, with the check and without. -/
def levelNames : List (Subject × Option String) :=
  [(.ofType true ([], ⟨27⟩), none), (.ofType true (inLevels 49, ⟨28⟩), some "exact Pair<exact Node>"),
    (.ofType true (deepPair, ⟨22⟩), some "[exact Node & object, exact Label & object]"),
    (.ofType true (deepPair, ⟨20⟩), some "exact Node & object"),
    (.ofType true (deepPair, ⟨21⟩), some "exact Label & object"),
    (.keySet ["next"], some "keys \x7b\"next\"\x7d"), (.keySet ["label"], some "keys \x7b\"label\"\x7d"),
    (.ofType true ([], ⟨30⟩), some "exact Node"),
    (.ofType true ([], ⟨25⟩), some "exact {next?: exact Pair<Node> & object}"),
    (.ofType true ([], ⟨24⟩), some "exact Pair<Node> & object"),
    (.ofType false ([], ⟨27⟩), none), (.ofType false (inLevels 49, ⟨28⟩), some "Pair<Node>"),
    (.ofType false ([], ⟨30⟩), some "Node"), (.ofType false ([], ⟨25⟩), some "{next?: Pair<Node> & object}"),
    (.ofType false ([], ⟨24⟩), some "Pair<Node> & object"), (.ofType false ([], ⟨23⟩), some "Pair<Node>"),
    (.ofType false ([], .ofKeyword .object), some "object"),
    (.ofType false (inBox plainPair, ⟨15⟩), some "{content: string}"),
    (.ofType false (inBox plainPair, ⟨14⟩), none),
    (.ofType false (plainPair, .ofKeyword .string), some "string")] ++ pairNames deepPair ++
    pairNames plainPair

/-- The same types inside of the levels and outside. -/
def levelPairs : List (Reading × Reading) :=
  [((inLevels 49, ⟨28⟩), ([], ⟨23⟩)), ((inLevels 49, ⟨128⟩), ([], ⟨30⟩)),
    (([], .ofKeyword .object), (deepPair, .ofKeyword .object)),
    (([], .ofKeyword .object), (plainPair, .ofKeyword .object)),
    ((inBox deepPair, ⟨15⟩), (inBox plainPair, ⟨15⟩)), ((inBox deepPair, ⟨14⟩), (inBox plainPair, ⟨14⟩))] ++
    [.ofKeyword .string, .ofKeyword .object, ⟨16⟩, ⟨17⟩, ⟨18⟩, ⟨19⟩, ⟨20⟩, ⟨21⟩, ⟨22⟩].map
      fun type => ((deepPair, type), (plainPair, type))

theorem tells_levelNames : Subject.tells levels 60 levelPairs levelNames = true := by decide +kernel

theorem lookup?_number_levels : levels.lookup? (.ofKeyword .number) = some (.keyword .number) := by
  decide +kernel

theorem toldApart_levels {type : TypeId} (listed : type = ⟨27⟩ ∨ type = ⟨30⟩) (exact : Bool) :
    Subject.ToldApart levels (.ofRoot (CompileOptions.withCheck {} exact) ([], type)) := by
  refine Subject.toldApart_of_tells tells_levelNames lookup?_number_levels ?_
  rcases listed with rfl | rfl <;> cases exact <;>
    simp [Subject.ofRoot, CompileOptions.withCheck, levelNames]

end ShapeCheck
