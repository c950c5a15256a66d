import Mathlib.Algebra.Order.BigOperators.Group.List
import ShapeCheck.Proofs.Agreement.Roots
import ShapeCheck.Proofs.Narrowing.Tables

set_option autoImplicit false

/-! # Reports of unions

A union that rejects a value has visited its members one after the other, and each of them has done what it
does by itself. So the failure of the first member is reported unless it gets lost: that happens where a
predicate of a later member passes at or above the place of the failure, though that member rejects the value
in the end.

Main fact: `Context.Compiles.check_union`.
-/

namespace ShapeCheck

/-! ## Visits -/

namespace Event.LeadTo

variable {events : List Event} {path : Path} {after : Option Failure → Option Failure} {places : List Path}

/-- A visit that rejects has a failure, and passes nowhere else. -/
theorem visit (h : LeadTo events path after places) (name : String) :
    LeadTo (Event.visit false name events) path (fun failure => after failure <|> some (.mismatch path name))
      places := by
  have here : path ++ Option.toList none = path := List.append_nil path
  have visited := rejected none name (show LeadTo events (path ++ Option.toList none) after places from here.symm ▸ h)
  rwa [here] at visited

/-- The visits around the call of a type make no difference once it is rejected. -/
theorem rejection (h : LeadTo events path after places) (options : CompileOptions) (name : String) :
    LeadTo (options.rejection name events) path (fun failure => after failure <|> some (.mismatch path name))
      places := by
  have same : (fun failure => (after failure <|> some (.mismatch path name)) <|>
      some (.mismatch path (optionalName name))) = fun failure => after failure <|> some (.mismatch path name) := by
    funext failure
    cases after failure <;> rfl
  unfold CompileOptions.rejection
  dsimp only
  split
  · exact same ▸ (h.visit name).visit (optionalName name)
  · exact h.visit name

/-- A failure that outlasts each of several parts outlasts all of them. -/
theorem exists_flatMap {α : Type} {items : List α} {trace : α → List Event} {failure : Failure}
    (each : ∀ item ∈ items, ∃ after places, LeadTo (trace item) path after places ∧ failure.Outlasts places) :
    ∃ after places, LeadTo (items.flatMap trace) path after places ∧ failure.Outlasts places := by
  induction items with
  | nil => exact ⟨_, _, .nil path, nofun⟩
  | cons item rest ih =>
    obtain ⟨after, places, here, lasts⟩ := each item List.mem_cons_self
    obtain ⟨after', places', others, last⟩ := ih fun other inside => each other (List.mem_cons_of_mem _ inside)
    refine ⟨_, _, here.append others, fun place inside => ?_⟩
    exact (List.mem_append.1 inside).elim (lasts place) (last place)

end Event.LeadTo

/-- The report and the places of predicates that pass are read off the events. -/
theorem Validator.check_eq_of_leadTo {v : Validator} {value : Value} {after : Option Failure → Option Failure}
    {places : List Path} {failure : Failure} (rejected : v.verdict value = .ok false)
    (leads : Event.LeadTo (v.events value) [] after places) (found : after none = some failure) :
    v.check value = .error failure ∧ v.passages value = places := by
  have ends := leads.ends [] none []
  have diagnosed : ((v.events value).foldl Diagnosis.observe .start).failure = some failure := by
    have followed := Passages.diagnosis_foldl (v.events value) {}
    rw [show (v.events value).foldl Passages.observe {} = _ from ends] at followed
    rw [← show _ = (v.events value).foldl Diagnosis.observe .start from followed]
    exact found
  constructor
  · have evaluated : v.evaluate Diagnosis.observe .start value =
        (.ok false, (v.events value).foldl Diagnosis.observe .start) :=
      Prod.ext ((v.evaluate_fst _ _ value).trans rejected) (v.evaluate_snd _ _ value)
    simp only [check, evaluated, diagnosed, Option.getD_some]
  · rw [passages, evaluate_snd, show (v.events value).foldl Passages.observe {} = _ from ends]
    rfl

/-- A root that rejects a value reports a failure of the call of its type. -/
theorem Validator.exists_leadTo_of_rejection {options : CompileOptions} {v core : Validator} {depth : Nat}
    {value : Value} {events : List Event} (rejected : v.verdict value = .ok false)
    (ran : Gives (core.invoke Observer.log depth core.root (.whole value)) [] false events)
    (traced : v.events value = options.rejection core.root events) :
    ∃ after failure, Event.LeadTo (Event.visit false core.root events) [] after (v.passages value) ∧
      after none = some failure ∧ v.check value = .error failure := by
  obtain ⟨after, places, leads⟩ := (balanced_of_gives ran).exists_leadTo []
  obtain ⟨failure, fails⟩ : ∃ failure, (after none <|> some (.mismatch [] core.root)) = some failure := by
    cases after none <;> exact ⟨_, rfl⟩
  obtain ⟨reported, rfl⟩ := check_eq_of_leadTo rejected (traced ▸ leads.rejection options core.root) fails
  exact ⟨_, failure, leads.visit core.root, fails, reported⟩

/-! ## Unions -/

/-- Where everything is accepted, all types have the same validator. -/
theorem Context.Compiles.eq_of_shortCircuit {ctx : Context} (short : ctx.options.shortCircuit = true)
    {type type' : TypeId} {v w : Validator} (compiled : ctx.Compiles type v) (compiled' : ctx.Compiles type' w) :
    v = w := by
  obtain ⟨root, registry, outcome, rfl⟩ := compiled
  obtain ⟨root', registry', outcome', rfl⟩ := compiled'
  rw [compileRoot, if_pos short] at outcome outcome'
  obtain ⟨rfl, rfl⟩ := outcome.unique outcome'
  rfl

section
variable {arena : Arena} (number : arena.lookup? (.ofKeyword .number) = some (.keyword .number))
  {options : CompileOptions} {s : Substitution} {type : TypeId}
include number

/-- Where all members reject a value, the union visits each of their predicates once, in order, and that does
what it does in the validator of the member. -/
theorem Context.Builds.exists_visits {root : Subject} (apart : Subject.ToldApart arena root) {v : Validator}
    (builds : Context.Builds ⟨arena, options, s⟩ type v)
    (built : Subject.IsBuilt arena root (.ofType options.superfluousPropertyCheck (s, type)))
    {members : List TypeId} (found : arena.lookup? type = some (.union members)) (some : members ≠ [])
    {core : TypeId → Validator} {depth : TypeId → Nat} {events : TypeId → List Event} {x : Located}
    (each : ∀ member ∈ members, Context.Builds ⟨arena, options, s⟩ member (core member))
    (ran : ∀ member ∈ members,
      Gives ((core member).invoke Observer.log (depth member) (core member).root x) [] false (events member)) :
    ∃ (depth : Nat) (trace : String → List Event), (∀ member ∈ members, trace (core member).root = events member) ∧
      Gives (v.invoke Observer.log depth v.root x) [] false
        ((members.map fun member => (core member).root).eraseDups.flatMap fun name =>
          Event.visit false name (trace name)) := by
  obtain ⟨names, bear, asks⟩ := builds.exists_alternatives number found some
  obtain rfl : members.map (fun member => (core member).root) = names := by
    rw [← List.forall₂_eq_eq_eq, List.forall₂_map_left_iff]
    refine ((List.forall₂_and_left _ _).2 ⟨fun member inside => inside, bear⟩).imp ?_
    rintro member name ⟨inside, own, bears⟩
    obtain ⟨own', bears'⟩ := (each member inside).bears number
    exact bears'.unique_of_twins number (.ofType (.refl arena _)) bears
  -- every predicate that the union asks for does in its validator what it does by itself
  have called (name : String) (listed : name ∈ (members.map fun member => (core member).root).eraseDups) :
      name ∈ v.predicates.map Predicate.name := by
    refine builds.isSealed.calls _ (Validator.predicate?_eq_some asks).1 name ?_
    show name ∈ Stmt.calls [.result (.anyOf _)]
    rwa [Stmt.calls_result, Expr.calls_anyOf, Expr.flatMap_calls_callOn]
  obtain ⟨deep, enough⟩ : ∃ deep, ∀ member ∈ members, depth member ≤ deep :=
    ⟨(members.map depth).sum, fun member inside => List.le_sum_of_mem (List.mem_map_of_mem inside)⟩
  have listed {member : TypeId} (inside : member ∈ members) :
      (core member).root ∈ (members.map fun member => (core member).root).eraseDups :=
    List.mem_eraseDups.2 (List.mem_map_of_mem inside)
  have runs (member : TypeId) (inside : member ∈ members) :
      Gives (v.invoke Observer.log deep (core member).root x) [] false (events member) := by
    have agree := (each member inside).agreesWith number apart builds
      (built.tail (.alternative found inside)) built
    refine v.invoke_mono (enough member inside) _ _ _ _ _ ?_
    exact builds.isSealed.invoke_refines agree _ (called _ (listed inside)) _ _ _ _ (ran member inside)
  have rejects : ∀ name ∈ (members.map fun member => (core member).root).eraseDups,
      ∃ trace, Gives (v.invoke Observer.log deep name x) [] false trace := by
    intro name listed
    obtain ⟨member, inside, rfl⟩ := List.mem_map.1 (List.mem_eraseDups.1 listed)
    exact ⟨_, runs member inside⟩
  choose! trace traced using rejects
  refine ⟨deep + 1, trace, fun member inside => ?_, Validator.gives_alternatives asks rfl rfl rfl traced⟩
  exact ((traced _ (listed inside)).unique (runs member inside)).2

variable {first : TypeId} {rest : List TypeId} (found : arena.lookup? type = some (.union (first :: rest)))
  (apart : Subject.ToldApart arena (.ofRoot options (s, type)))
  (apartEach : ∀ member ∈ first :: rest, Subject.ToldApart arena (.ofRoot options (s, member)))
  {whole : Validator} {parts : TypeId → Validator} (compiled : Context.Compiles ⟨arena, options, s⟩ type whole)
  (compiledEach : ∀ member ∈ first :: rest, Context.Compiles ⟨arena, options, s⟩ member (parts member))
  {value : Value} (rejected : ∀ member ∈ first :: rest, (parts member).verdict value = .ok false)
include found apart apartEach compiled compiledEach rejected

/-- A union does not accept what none of its members accepts. -/
theorem Context.Compiles.eq_false_of_rejected {b : Bool} (decided : whole.verdict value = .ok b) : b = false := by
  have outside (member : TypeId) (inside : member ∈ first :: rest) :
      ¬ (Subject.ofRoot options (s, member)).Contains arena value := fun contains =>
    Bool.false_ne_true ((Context.verdict_iff_contains number (compiledEach member inside)
      (apartEach member inside) (rejected member inside)).2 contains)
  rw [← Bool.not_eq_true, Context.verdict_iff_contains number compiled apart decided]
  cases short : options.shortCircuit with
  | true =>
    have none := outside first List.mem_cons_self
    rw [Subject.ofRoot, short, if_pos rfl] at none ⊢
    exact none
  | false =>
    simp only [Subject.ofRoot_eq_ofChoice short, Subject.contains_ofChoice] at outside ⊢
    rintro (absent | contains)
    · exact outside first List.mem_cons_self (.inl absent)
    · obtain none | ⟨member, inside, there⟩ := (Arena.contains_iff_fits found (by rintro _ ⟨⟩) value).1 contains
      · cases none
      · exact outside member inside (.inr there)

/-- A union that rejects a value visits its members under their names, each name once and in order, and each
visit leads to the report of that member, past the places where its predicates pass. -/
theorem Context.Compiles.exists_traces (long : options.shortCircuit = false)
    (decided : whole.verdict value = .ok false) :
    ∃ (root : String) (name : TypeId → String) (trace : String → List Event),
      whole.events value = options.rejection root
        (((first :: rest).map name).eraseDups.flatMap fun name => Event.visit false name (trace name)) ∧
      ∀ member ∈ first :: rest, (parts member).root = options.rootName (name member) ∧
        ∃ after failure, Event.LeadTo (Event.visit false (name member) (trace (name member))) [] after
          ((parts member).passages value) ∧ after none = some failure ∧
            (parts member).check value = .error failure := by
  obtain ⟨v, depth, events, builds, ran, -, traced⟩ := compiled.exists_builds number apart long decided
  have each : ∀ member ∈ first :: rest, ∃ core depth events,
      Context.Builds ⟨arena, options, s⟩ member core ∧
        Gives (core.invoke Observer.log depth core.root (.whole value)) [] false events ∧
          (parts member).root = options.rootName core.root ∧
            (parts member).events value = options.rejection core.root events := fun member inside =>
    (compiledEach member inside).exists_builds number (apartEach member inside) long (rejected member inside)
  choose! core depths log buildsEach ranEach namedEach tracedEach using each
  obtain ⟨depth', trace, same, visited⟩ := builds.exists_visits number apart (Subject.isBuilt_ofRoot long _)
    found (List.cons_ne_nil _ _) buildsEach ranEach
  obtain rfl := ((v.invoke_mono (le_max_left depth depth') _ _ _ _ _ ran).unique
    (v.invoke_mono (le_max_right depth depth') _ _ _ _ _ visited)).2
  refine ⟨v.root, fun member => (core member).root, trace, traced, fun member inside =>
    ⟨namedEach member inside, ?_⟩⟩
  rw [same member inside]
  exact Validator.exists_leadTo_of_rejection (rejected member inside) (ranEach member inside)
    (tracedEach member inside)

/-- A union reports the failure of its first member, if no predicate passes at or above the place of that
failure where a later member rejects the value; or the evaluation of the union halts at the limit. -/
theorem Context.Compiles.check_union {failure : Failure}
    (reported : (parts first).check value = .error failure)
    (kept : ∀ member ∈ rest, (parts member).root ≠ (parts first).root →
      failure.Outlasts ((parts member).passages value)) :
    whole.check value = .error failure ∨ whole.verdict value = .error .depthExceeded := by
  refine (compiled.verdict_cases value).imp_left fun ⟨b, decided⟩ => ?_
  obtain rfl := eq_false_of_rejected number found apart apartEach compiled compiledEach rejected decided
  cases short : options.shortCircuit with
  | true =>
    rw [compiled.eq_of_shortCircuit short (compiledEach first List.mem_cons_self)]
    exact reported
  | false =>
    obtain ⟨root, name, trace, traced, each⟩ :=
      exists_traces number found apart apartEach compiled compiledEach rejected short decided
    obtain ⟨named, after, failure', leads, fails, reported'⟩ := each first List.mem_cons_self
    obtain rfl := Except.error.inj (reported.symm.trans reported')
    rw [List.map_cons, List.eraseDups_cons, List.flatMap_cons] at traced
    -- the members behind the first one keep its failure
    have later : ∀ other ∈ ((rest.map name).filter fun other => !other == name first).eraseDups,
        ∃ after places, Event.LeadTo (Event.visit false other (trace other)) [] after places ∧
          failure.Outlasts places := by
      intro other listed
      obtain ⟨listed, different⟩ := List.mem_filter.1 (List.mem_eraseDups.1 listed)
      obtain ⟨member, inside, rfl⟩ := List.mem_map.1 listed
      obtain ⟨named', after', _, leads', -, -⟩ := each member (List.mem_cons_of_mem _ inside)
      refine ⟨after', _, leads', kept member inside fun same => ?_⟩
      rw [named, named'] at same
      simp [options.rootName_injective same] at different
    obtain ⟨after', places, others, lasts⟩ := Event.LeadTo.exists_flatMap later
    have all := (leads.append others).rejection options root
    refine (Validator.check_eq_of_leadTo decided (traced ▸ all) ?_).1
    simp [fails, others.outlasts failure lasts]

end

/-! ## A number or a truth value between texts -/

/-- The last type is `[string, number, string] | [string, boolean, string]`. -/
def numberOrTruth : Arena where
  descriptors := Arena.initial.descriptors ++
    #[.tuple [⟨.ofKeyword .string, false⟩, ⟨.ofKeyword .number, false⟩, ⟨.ofKeyword .string, false⟩],
      .tuple [⟨.ofKeyword .string, false⟩, ⟨.ofKeyword .boolean, false⟩, ⟨.ofKeyword .string, false⟩],
      .union [⟨14⟩, ⟨15⟩]]
  parameters := #[]
  definitions := #[]

/-- What is compiled for the union. -/
def numberOrTruthNames : List (Subject × Option String) :=
  [(.ofType false ([], ⟨16⟩), some "[string, boolean, string] | [string, number, string]"),
    (.ofType false ([], ⟨14⟩), some "[string, number, string]"),
    (.ofType false ([], ⟨15⟩), some "[string, boolean, string]"),
    (.ofType false ([], .ofKeyword .string), some "string"),
    (.ofType false ([], .ofKeyword .number), some "number"),
    (.ofType false ([], .ofKeyword .boolean), some "boolean")]

/-- A text, and two other values. -/
def triple (middle last : Value) : Value := .array [.string "a", middle, last]

/-- The first position is passed where the second one is not. -/
example : (Context.validator? ⟨numberOrTruth, {}, []⟩ ⟨15⟩).map
    (fun v => v.passages (triple .null (.string "b"))) = some [[.index 0]] := by decide +kernel

theorem toldApart_numberOrTruth {type : TypeId}
    (listed : .ofType false ([], type) ∈ numberOrTruthNames.map Prod.fst) :
    Subject.ToldApart numberOrTruth (.ofRoot {} ([], type)) := by
  have told : Subject.tells numberOrTruth 9 [] numberOrTruthNames = true := by decide +kernel
  exact Subject.toldApart_of_tells told rfl listed

/-- What is seen of a validator that rejects a value: its root, its report and where its predicates pass. -/
def Validator.seen (v : Validator) (value : Value) : Option (String × Failure × List Path) :=
  match v.verdict value, v.check value with
  | .ok false, .error failure => some (v.root, failure, v.passages value)
  | _, _ => none

theorem Context.exists_compiles_of_seen {ctx : Context} {type : TypeId} {value : Value} {root : String}
    {failure : Failure} {places : List Path}
    (computed : (ctx.validator? type).bind (·.seen value) = some (root, failure, places)) :
    ∃ v, ctx.Compiles type v ∧ v.verdict value = .ok false ∧ v.check value = .error failure ∧ v.root = root ∧
      v.passages value = places := by
  obtain ⟨v, made, seen⟩ := Option.bind_eq_some_iff.1 computed
  unfold Validator.seen at seen
  split at seen
  · rename_i decided reported
    cases seen
    exact ⟨v, compiles_of_validator? made, decided, reported, rfl, rfl⟩
  · cases seen

/-- Neither a number nor a truth value: the failure of the first member at the second position is reported for
the union, since the second member passes at the first position only. -/
theorem check_union_numberOrTruth : ∃ whole first second : Validator,
    Context.Compiles ⟨numberOrTruth, {}, []⟩ ⟨16⟩ whole ∧ Context.Compiles ⟨numberOrTruth, {}, []⟩ ⟨14⟩ first ∧
      Context.Compiles ⟨numberOrTruth, {}, []⟩ ⟨15⟩ second ∧
        first.check (triple .null (.string "b")) = .error (.ofReason [.index 1] .number) ∧
          (whole.check (triple .null (.string "b")) = .error (.ofReason [.index 1] .number) ∨
            whole.verdict (triple .null (.string "b")) = .error .depthExceeded) := by
  have union : (Context.validator? ⟨numberOrTruth, {}, []⟩ ⟨16⟩).bind (·.seen (triple .null (.string "b"))) =
      some ("[string, boolean, string] | [string, number, string]", .ofReason [.index 1] .number,
        [[.index 0], [.index 0]]) := by decide +kernel
  have number : (Context.validator? ⟨numberOrTruth, {}, []⟩ ⟨14⟩).bind (·.seen (triple .null (.string "b"))) =
      some ("[string, number, string]", .ofReason [.index 1] .number, [[.index 0]]) := by decide +kernel
  have truth : (Context.validator? ⟨numberOrTruth, {}, []⟩ ⟨15⟩).bind (·.seen (triple .null (.string "b"))) =
      some ("[string, boolean, string]", .ofReason [.index 1] .boolean, [[.index 0]]) := by decide +kernel
  obtain ⟨whole, compiled, -⟩ := Context.exists_compiles_of_seen union
  obtain ⟨first, compiled₁, rejected₁, reported₁, -⟩ := Context.exists_compiles_of_seen number
  obtain ⟨second, compiled₂, rejected₂, -, -, passed⟩ := Context.exists_compiles_of_seen truth
  refine ⟨whole, first, second, compiled, compiled₁, compiled₂, reported₁, ?_⟩
  obtain ⟨parts, rfl, rfl⟩ : ∃ parts : TypeId → Validator, parts ⟨14⟩ = first ∧ parts ⟨15⟩ = second :=
    ⟨fun member => if member = ⟨14⟩ then first else second, if_pos rfl, if_neg (by decide)⟩
  have both {P : TypeId → Prop} (one : P ⟨14⟩) (two : P ⟨15⟩) : ∀ member ∈ [⟨14⟩, ⟨15⟩], P member :=
    List.forall_mem_cons.2 ⟨one, List.forall_mem_singleton.2 two⟩
  refine Context.Compiles.check_union rfl rfl (toldApart_numberOrTruth (by simp [numberOrTruthNames]))
    (both (toldApart_numberOrTruth (by simp [numberOrTruthNames]))
      (toldApart_numberOrTruth (by simp [numberOrTruthNames]))) compiled (both compiled₁ compiled₂)
    (both rejected₁ rejected₂) reported₁ (List.forall_mem_singleton.2 fun _ => ?_)
  rw [passed]
  simp [Failure.Outlasts, Failure.ofReason]

/-- A truth value between a text and a number: the first member reports that the second position is no number.
The union does not, since the second member passes there before it rejects the last position. -/
theorem exists_check_union_ne : Subject.ToldApart numberOrTruth (.ofRoot {} ([], ⟨16⟩)) ∧
    Subject.ToldApart numberOrTruth (.ofRoot {} ([], ⟨14⟩)) ∧
      Subject.ToldApart numberOrTruth (.ofRoot {} ([], ⟨15⟩)) ∧
        ∃ whole first second : Validator, Context.Compiles ⟨numberOrTruth, {}, []⟩ ⟨16⟩ whole ∧
          Context.Compiles ⟨numberOrTruth, {}, []⟩ ⟨14⟩ first ∧
            Context.Compiles ⟨numberOrTruth, {}, []⟩ ⟨15⟩ second ∧
              first.verdict (triple (.bool true) .null) = .ok false ∧
                second.verdict (triple (.bool true) .null) = .ok false ∧
                  first.check (triple (.bool true) .null) = .error (.ofReason [.index 1] .number) ∧
                    whole.check (triple (.bool true) .null) = .error (.ofReason [.index 2] .string) := by
  have union : (Context.validator? ⟨numberOrTruth, {}, []⟩ ⟨16⟩).bind (·.seen (triple (.bool true) .null)) =
      some ("[string, boolean, string] | [string, number, string]", .ofReason [.index 2] .string,
        [[.index 0], [.index 0], [.index 1]]) := by decide +kernel
  have number : (Context.validator? ⟨numberOrTruth, {}, []⟩ ⟨14⟩).bind (·.seen (triple (.bool true) .null)) =
      some ("[string, number, string]", .ofReason [.index 1] .number, [[.index 0]]) := by decide +kernel
  have truth : (Context.validator? ⟨numberOrTruth, {}, []⟩ ⟨15⟩).bind (·.seen (triple (.bool true) .null)) =
      some ("[string, boolean, string]", .ofReason [.index 2] .string, [[.index 0], [.index 1]]) := by
    decide +kernel
  obtain ⟨whole, compiled, -, reported, -⟩ := Context.exists_compiles_of_seen union
  obtain ⟨first, compiled₁, rejected₁, reported₁, -⟩ := Context.exists_compiles_of_seen number
  obtain ⟨second, compiled₂, rejected₂, -⟩ := Context.exists_compiles_of_seen truth
  exact ⟨toldApart_numberOrTruth (by simp [numberOrTruthNames]),
    toldApart_numberOrTruth (by simp [numberOrTruthNames]), toldApart_numberOrTruth (by simp [numberOrTruthNames]),
    whole, first, second, compiled, compiled₁, compiled₂, rejected₁, rejected₂, reported₁, reported⟩

end ShapeCheck
