import ShapeCheck.Proofs.Inlining.Substitution

set_option autoImplicit false

/-! # Inlining keeps events

An observer sees more than the verdict: it is told which step leads from the value that is being
checked to the part that is checked next. A call finds this step by comparing its argument with the
parameter, an inlined call by comparing it with the argument of the inlined call around it.

The two comparisons agree if arguments are places, that is, chains of accesses to a variable. All
compiled predicates are of this kind (`Expr.IsTidy`), and rounds keep it.

Main facts: `Expr.eval_inlineCalls_of_isTidy` (inlined calls do what the bodies of trivial predicates
do) and `Expr.isTidy_inlineCalls` (a round keeps expressions tidy).
-/

namespace ShapeCheck

namespace Expr

/-! ## Places -/

/-- A variable, or a member of a place under a fixed key, a number or the variable of a loop. -/
inductive IsPlace : Expr → Prop
  | var (name : String) : IsPlace (.var name)
  | member {whole : Expr} (key : String) : IsPlace whole → IsPlace (.member whole key)
  | position {whole : Expr} (x : Double) : IsPlace whole → IsPlace (.index whole (.number x))
  | element {whole : Expr} {binder : String} : binder ≠ parameterName → IsPlace whole →
      IsPlace (.index whole (.var binder))

/-- The parameter, or a fixed part of it. -/
inductive IsPart : Expr → Prop
  | self : IsPart parameter
  | member {whole : Expr} (key : String) : IsPart whole → IsPart (.member whole key)
  | position {whole : Expr} (x : Double) : IsPart whole → IsPart (.index whole (.number x))

theorem IsPart.isPlace {e : Expr} (h : e.IsPart) : e.IsPlace := by
  induction h with
  | self => exact .var _
  | member key _ ih => exact .member key ih
  | position x _ ih => exact .position x ih

theorem IsPlace.calls_eq_nil {e : Expr} (h : e.IsPlace) : e.calls = [] := by
  induction h with
  | var => rfl
  | member _ _ ih => exact (calls_eq_nil_iff _).2 ⟨rfl, by simpa [operands] using ih⟩
  | position _ _ ih | element _ _ ih =>
    refine (calls_eq_nil_iff _).2 ⟨rfl, ?_⟩
    simp only [operands, List.mem_cons, List.not_mem_nil, or_false, forall_eq_or_imp, forall_eq]
    exact ⟨ih, rfl⟩

theorem IsPlace.isPart {e : Expr} (h : e.IsPlace) (own : ∀ y ∈ e.varNames, y = parameterName) :
    e.IsPart := by
  induction h with
  | var name =>
    obtain rfl : name = parameterName := own name (by simp [varNames, nodes, varName?])
    exact .self
  | member key _ ih =>
    exact .member key (ih fun y hy => own y (mem_varNames_of_operand (by simp [operands]) hy))
  | position x _ ih =>
    exact .position x (ih fun y hy => own y (mem_varNames_of_operand (by simp [operands]) hy))
  | @element _ binder other _ _ =>
    exact absurd (own binder (by simp [varNames, nodes, varName?])) other

/-- Evaluation finds a place without an event. -/
theorem IsPlace.eval_eq {e : Expr} (h : e.IsPlace) (bindings : List (String × Located)) :
    ∃ x, ∀ {σ : Type} (observe : Observer σ) (call : String → Located → Run σ Bool)
      (frame : Frame), frame.bindings = bindings → e.eval observe call frame = pure x := by
  induction h with
  | var name =>
    refine ⟨(bindings.lookup name).getD (.computed .undefined), ?_⟩
    intro σ observe call frame same
    simp [eval, Frame.value, same]
  | member key _ ih =>
    obtain ⟨x, given⟩ := ih
    refine ⟨x.get key, fun observe call frame same => ?_⟩
    simp [eval, given observe call frame same]
  | position y _ ih =>
    obtain ⟨x, given⟩ := ih
    refine ⟨x.getKeyOf (.number y), fun observe call frame same => ?_⟩
    simp [eval, given observe call frame same, Located.computed]
  | @element _ binder _ _ ih =>
    obtain ⟨x, given⟩ := ih
    refine ⟨x.getKeyOf ((bindings.lookup binder).getD (.computed .undefined)).value, ?_⟩
    intro σ observe call frame same
    simp [eval, given observe call frame same, Frame.value, same]

/-- Places are compared as they are written. -/
theorem IsPlace.sameAs_iff {e : Expr} (h : e.IsPlace) (e' : Expr) : e.sameAs e' = true ↔ e = e' := by
  induction h generalizing e' with
  | var name =>
    cases e' with
    | var name' => exact beq_iff_eq.trans ⟨congrArg Expr.var, Expr.var.inj⟩
    | _ => exact iff_of_false Bool.false_ne_true nofun
  | @member whole key _ ih =>
    cases e' with
    | member whole' key' =>
      have parts : (Expr.member whole key).sameAs (.member whole' key') =
          (whole.sameAs whole' && key == key') := rfl
      simp [parts, ih]
    | _ => exact iff_of_false Bool.false_ne_true nofun
  | @position whole x _ ih =>
    cases e' with
    | index whole' key' =>
      have parts : (Expr.index whole (.number x)).sameAs (.index whole' key') =
          (whole.sameAs whole' && (Expr.number x).sameAs key') := rfl
      rw [parts, Bool.and_eq_true, ih, Expr.index.injEq]
      refine and_congr_right fun _ => ?_
      cases key' with
      | number y => exact beq_iff_eq.trans ⟨congrArg Expr.number, Expr.number.inj⟩
      | _ => exact iff_of_false Bool.false_ne_true nofun
    | _ => exact iff_of_false Bool.false_ne_true nofun
  | @element whole binder _ _ ih =>
    cases e' with
    | index whole' key' =>
      have parts : (Expr.index whole (.var binder)).sameAs (.index whole' key') =
          (whole.sameAs whole' && (Expr.var binder).sameAs key') := rfl
      rw [parts, Bool.and_eq_true, ih, Expr.index.injEq]
      refine and_congr_right fun _ => ?_
      cases key' with
      | var name' => exact beq_iff_eq.trans ⟨congrArg Expr.var, Expr.var.inj⟩
      | _ => exact iff_of_false Bool.false_ne_true nofun
    | _ => exact iff_of_false Bool.false_ne_true nofun

/-! ## Parts of an argument -/

section
variable {argument : Expr}

theorem IsPart.isPlace_substitute {e : Expr} (h : e.IsPart) (place : argument.IsPlace) :
    (e.substitute parameterName argument).IsPlace := by
  induction h with
  | self => simpa using place
  | member key _ ih => exact .member key ih
  | position x _ ih => exact .position x ih

theorem IsPart.sizeOf_le_substitute {e : Expr} (h : e.IsPart) (argument : Expr) :
    sizeOf argument ≤ sizeOf (e.substitute parameterName argument) := by
  induction h with
  | self => simp
  | member key _ ih =>
    simp only [substitute, member.sizeOf_spec]
    omega
  | position x _ ih =>
    simp only [substitute, index.sizeOf_spec]
    omega

/-- Only the whole parameter becomes the argument itself. -/
theorem IsPart.eq_parameter {e : Expr} (h : e.IsPart)
    (same : e.substitute parameterName argument = argument) : e = parameter := by
  have sizes := congrArg sizeOf same
  cases h with
  | self => rfl
  | member key inner =>
    have larger := inner.sizeOf_le_substitute argument
    simp only [substitute, member.sizeOf_spec] at sizes
    omega
  | position x inner =>
    have larger := inner.sizeOf_le_substitute argument
    simp only [substitute, index.sizeOf_spec] at sizes
    omega

theorem IsPart.substitute_injective {e e' : Expr} (h : e.IsPart) (h' : e'.IsPart)
    (same : e.substitute parameterName argument = e'.substitute parameterName argument) :
    e = e' := by
  induction h generalizing e' with
  | self => exact (h'.eq_parameter (by simpa using same.symm)).symm
  | member key inner ih =>
    cases h' with
    | self => exact (inner.member key).eq_parameter (by simpa using same)
    | member key' inner' =>
      simp only [substitute, member.injEq] at same
      rw [ih inner' same.1, same.2]
    | position x inner' => simp [substitute] at same
  | position x inner ih =>
    cases h' with
    | self => exact (inner.position x).eq_parameter (by simpa using same)
    | member key inner' => simp [substitute] at same
    | position x' inner' =>
      simp only [substitute, index.injEq, number.injEq] at same
      rw [ih inner' same.1, same.2]

/-! ## Matching frames -/

/-- In a frame around the argument the same parts are being checked as in a frame of the callee, and
nothing in front of the argument is. -/
structure FramesMatch (argument : Expr) (frame frame' : Frame) : Prop where
  parts : ∀ e : Expr, e.IsPart →
    frame'.isSubject (e.substitute parameterName argument) = frame.isSubject e
  inFront : ∀ e : Expr, sizeOf e < sizeOf argument → frame'.isSubject e = false

/-- At the start of the callee the parameter is being checked, and around it the argument. -/
theorem FramesMatch.start (place : argument.IsPlace) (frame' : Frame) (x : Located) :
    FramesMatch argument ⟨parameterName, none, [(parameterName, x)]⟩ (frame'.checking argument) where
  parts e isPart := by
    have iff : (argument.sameAs (e.substitute parameterName argument) = true) ↔ e = parameter := by
      rw [place.sameAs_iff]
      constructor
      · intro same
        have : parameter.substitute parameterName argument =
            e.substitute parameterName argument := by
          simpa using same
        exact (IsPart.self.substitute_injective isPart this).symm
      · rintro rfl
        simp
    simp only [Frame.isSubject, Frame.checking]
    rw [Bool.eq_iff_iff, iff]
    cases isPart <;> simp [varName?, parameter]
  inFront e smaller := by
    simp only [Frame.isSubject, Frame.checking, Bool.eq_false_iff]
    intro same
    rw [(place.sameAs_iff e).1 same] at smaller
    exact Nat.lt_irrefl _ smaller

/-- When a part is checked in turn, the frames match again. -/
theorem FramesMatch.checking (place : argument.IsPlace) {e : Expr} (isPart : e.IsPart)
    (frame frame' : Frame) :
    FramesMatch argument (frame.checking e)
      (frame'.checking (e.substitute parameterName argument)) where
  parts w own := by
    simp only [Frame.isSubject, Frame.checking]
    rw [Bool.eq_iff_iff, (isPart.isPlace_substitute place).sameAs_iff, isPart.isPlace.sameAs_iff]
    exact ⟨fun same => isPart.substitute_injective own same, fun same => same ▸ rfl⟩
  inFront w smaller := by
    simp only [Frame.isSubject, Frame.checking, Bool.eq_false_iff]
    intro same
    have := isPart.sizeOf_le_substitute argument
    rw [((isPart.isPlace_substitute place).sameAs_iff w).1 same] at this
    omega

/-- Matching frames give the same step to a part. -/
theorem FramesMatch.segment?_eq {frame frame' : Frame} (frames : FramesMatch argument frame frame')
    (place : argument.IsPlace) {e : Expr} (isPart : e.IsPart) :
    frame'.segment? (e.substitute parameterName argument) = frame.segment? e := by
  cases isPart with
  | self =>
    have none : frame'.segment? argument = none := by
      cases place with
      | var => rfl
      | member key _ =>
        rw [Frame.segment?, frames.inFront _ (by simp; omega)]
        rfl
      | position x _ | element _ _ =>
        rw [Frame.segment?, frames.inFront _ (by simp; omega)]
        rfl
    rw [substitute_parameter, none]
    rfl
  | member key inner => simp [substitute, Frame.segment?, frames.parts _ inner]
  | position x inner =>
    simp [substitute, Frame.segment?, frames.parts _ inner, Frame.keySegment?]

end

/-! ## Tidy expressions -/

/-- The argument of a call is a place, and an inlined body is without calls. -/
def IsTidyNode : Expr → Prop
  | .call _ argument => argument.IsPlace
  | .inlined _ _ argument body => argument.IsPlace ∧ body.calls = []
  | _ => True

/-- Every call and every inlined call in the expression is tidy. -/
def IsTidy (e : Expr) : Prop := ∀ part ∈ e.nodes, part.IsTidyNode

theorem isTidy_iff (e : Expr) : e.IsTidy ↔ e.IsTidyNode ∧ ∀ a ∈ e.operands, a.IsTidy := by
  simp only [IsTidy]
  rw [nodes_eq]
  simp only [List.mem_cons, List.mem_flatMap]
  constructor
  · exact fun h => ⟨h e (.inl rfl), fun a ha part inside => h part (.inr ⟨a, ha, inside⟩)⟩
  · rintro ⟨here, below⟩ part (rfl | ⟨a, ha, inside⟩)
    · exact here
    · exact below a ha part inside

theorem isTidyNode_of_operator {e : Expr} (h : e.isOperator = true) : e.IsTidyNode := by
  cases e <;> simp_all [isOperator, IsTidyNode]

theorem IsPlace.isTidy {e : Expr} (h : e.IsPlace) : e.IsTidy := by
  induction h with
  | var => simp [IsTidy, nodes, IsTidyNode]
  | member _ _ ih | position _ _ ih | element _ _ ih =>
    rw [isTidy_iff]
    simpa [operands, IsTidyNode, IsTidy, nodes] using ih

theorem IsTidy.of_operand {e a : Expr} (h : e.IsTidy) (ha : a ∈ e.operands) : a.IsTidy :=
  ((isTidy_iff e).1 h).2 a ha

/-! ## Substitution and events -/

section
variable {σ : Type} {observe : Observer σ} {call call' : String → Located → Run σ Bool}

/-- The instance of a trivial body at a place does the same as the body, events included. -/
theorem eval_substitute_of_isPlace {argument : Expr} (place : argument.IsPlace) {x : Located}
    {bindings : List (String × Located)}
    (given : ∀ frame : Frame, frame.bindings = bindings →
      argument.eval observe call frame = pure x) (e : Expr) :
    e.IsTidy → e.calls = [] → (∀ y ∈ e.varNames, y = parameterName) →
      ∀ frame frame' : Frame, frame.bindings = [(parameterName, x)] → frame'.bindings = bindings →
        FramesMatch argument frame frame' →
        (e.substitute parameterName argument).eval observe call frame' =
          e.eval observe call frame := by
  induction e using operandInduction with
  | step e ih =>
    intro tidy noCalls own frame frame' alone same frames
    have below := ((calls_eq_nil_iff e).1 noCalls).2
    have parts (a : Expr) (ha : a ∈ e.operands) :=
      ih a ha (tidy.of_operand ha) (below a ha) fun y hy => own y (mem_varNames_of_operand ha hy)
    obtain ⟨y, rfl⟩ | ⟨f, a, rfl⟩ | ⟨f, reason, a, b, rfl⟩ | operator := e.operator_or
    · obtain rfl : y = parameterName := own y (by simp [varNames, nodes, varName?])
      simp [eval, Frame.value, alone, substitute, given frame' same]
    · simp [calls_call] at noCalls
    · have isPlace : a.IsPlace := (((isTidy_iff _).1 tidy).1).1
      have isPart : a.IsPart :=
        isPlace.isPart fun y hy => own y (mem_varNames_of_operand (by simp [operands]) hy)
      simp only [substitute]
      rw [eval_inlined, eval_inlined, frames.segment?_eq place isPart]
      rw [parts b (by simp [operands]) (frame.checking a)
        (frame'.checking (a.substitute parameterName argument)) alone same
        (.checking place isPart frame frame')]
    · rw [substitute_of_operator operator]
      exact eval_mapOperands operator fun a ha => parts a ha frame frame' alone same frames

/-- Without calls there is nothing to write out. -/
theorem inlineCalls_of_calls_eq_nil (trivial : List (String × Predicate.TrivialBody)) (e : Expr) :
    e.calls = [] → e.inlineCalls trivial = e := by
  induction e using operandInduction with
  | step e ih =>
    intro noCalls
    have below := ((calls_eq_nil_iff e).1 noCalls).2
    have parts (a : Expr) (ha : a ∈ e.operands) := ih a ha (below a ha)
    obtain ⟨y, rfl⟩ | ⟨f, a, rfl⟩ | ⟨f, reason, a, b, rfl⟩ | operator := e.operator_or
    · rfl
    · simp [calls_call] at noCalls
    · simp only [inlineCalls]
      rw [parts a (by simp [operands]), parts b (by simp [operands])]
    · rw [inlineCalls_of_operator operator]
      calc
        e.mapOperands (inlineCalls trivial) = e.mapOperands id := mapOperands_congr parts
        _ = e := mapOperands_id e

end

end Expr

/-! ## Tidy predicates -/

namespace Predicate

/-- All trivial bodies are tidy and over the parameter of compiled predicates. -/
def AreTidy (trivial : List (String × TrivialBody)) : Prop :=
  ∀ f callee, trivial.lookup f = some callee →
    callee.expr.IsTidy ∧ callee.parameter = Expr.parameterName

/-- Calls of trivial predicates are answered by their bodies, all others by `call`. -/
def served {σ : Type} (observe : Observer σ) (trivial : List (String × TrivialBody))
    (call : String → Located → Run σ Bool) (f : String) (x : Located) : Run σ Bool :=
  match trivial.lookup f with
  | some callee => callee.run observe call x
  | none => call f x

end Predicate

namespace Expr

variable {σ : Type} {observe : Observer σ} {call call' : String → Located → Run σ Bool}
  {trivial : List (String × Predicate.TrivialBody)}

/-- Inlined calls do what the bodies of trivial predicates do. -/
theorem eval_inlineCalls_of_isTidy (areTrivial : Predicate.AreTrivial trivial)
    (areTidy : Predicate.AreTidy trivial) (e : Expr) :
    e.IsTidy → ∀ frame : Frame,
      (e.inlineCalls trivial).eval observe call frame =
        e.eval observe (Predicate.served observe trivial call) frame := by
  induction e using operandInduction with
  | step e ih =>
    intro tidy frame
    have parts (a : Expr) (ha : a ∈ e.operands) := ih a ha (tidy.of_operand ha)
    obtain ⟨x, rfl⟩ | ⟨f, a, rfl⟩ | ⟨f, reason, a, b, rfl⟩ | operator := e.operator_or
    · simp only [inlineCalls, eval]
    · have place : a.IsPlace := ((isTidy_iff _).1 tidy).1
      obtain ⟨x, found⟩ := place.eval_eq frame.bindings
      have given (frame' : Frame) (same : frame'.bindings = frame.bindings) :=
        found observe call frame' same
      cases known : trivial.lookup f with
      | none =>
        simp only [inlineCalls, known, inlineCalls_of_calls_eq_nil trivial a place.calls_eq_nil]
        simp only [eval, found observe _ frame rfl, pure_bind, Predicate.served, known]
      | some callee =>
        obtain ⟨noCalls, own⟩ := areTrivial f callee known
        obtain ⟨tidyBody, parameter⟩ := areTidy f callee known
        have written := eval_substitute_of_isPlace place given callee.expr tidyBody noCalls
          (fun y hy => (own y hy).trans parameter) ⟨callee.parameter, none, [(callee.parameter, x)]⟩
          (frame.checking a) (by rw [parameter]) rfl (by rw [parameter]; exact .start place frame x)
        simp only [inlineCalls, known]
        rw [eval_inlined, parameter, written]
        simp only [eval, found observe _ frame rfl, pure_bind, Predicate.served, known,
          Predicate.TrivialBody.run, bind_assoc]
    · obtain ⟨place, noCalls⟩ := ((isTidy_iff _).1 tidy).1
      have unchanged : (Expr.inlined f reason a b).calls = [] :=
        (calls_eq_nil_iff _).2 ⟨rfl, by simp [operands, place.calls_eq_nil, noCalls]⟩
      rw [inlineCalls_of_calls_eq_nil trivial _ unchanged]
      exact eval_of_calls_eq_nil _ unchanged frame
    · rw [inlineCalls_of_operator operator]
      exact eval_mapOperands operator fun a ha => parts a ha frame

/-- A round refines every tidy expression, events included. -/
theorem inlineCalls_refines_of_isTidy (areTrivial : Predicate.AreTrivial trivial)
    (areTidy : Predicate.AreTidy trivial) (serves : Predicate.Serves observe trivial call call')
    {e : Expr} (tidy : e.IsTidy) (frame : Frame) :
    Refines (e.eval observe call frame) ((e.inlineCalls trivial).eval observe call' frame) := by
  rw [eval_inlineCalls_of_isTidy areTrivial areTidy e tidy frame]
  refine e.eval_refines (fun f _ x => ?_) frame
  unfold Predicate.served
  split
  · rename_i callee known
    exact serves.bodies f callee known x
  · exact serves.calls f x

/-! ## Rounds keep expressions tidy -/

theorem calls_substitute {argument : Expr} (place : argument.IsPlace) (name : String) (e : Expr) :
    e.calls = [] → (e.substitute name argument).calls = [] := by
  induction e using operandInduction with
  | step e ih =>
    intro noCalls
    have below := ((calls_eq_nil_iff e).1 noCalls).2
    have parts (a : Expr) (ha : a ∈ e.operands) := ih a ha (below a ha)
    obtain ⟨y, rfl⟩ | ⟨f, a, rfl⟩ | ⟨f, reason, a, b, rfl⟩ | operator := e.operator_or
    · simp only [substitute]
      split
      · exact place.calls_eq_nil
      · rfl
    · simp [calls_call] at noCalls
    · refine (calls_eq_nil_iff _).2 ⟨rfl, ?_⟩
      simpa [substitute, operands] using
        ⟨parts a (by simp [operands]), parts b (by simp [operands])⟩
    · rw [substitute_of_operator operator]
      refine (calls_eq_nil_iff _).2 ⟨callee?_of_operator (by rwa [isOperator_mapOperands]), ?_⟩
      intro a ha
      obtain ⟨b, hb, rfl⟩ := mem_operands_mapOperands.1 ha
      exact parts b hb

theorem isTidy_substitute {argument : Expr} (place : argument.IsPlace) (e : Expr) :
    e.IsTidy → e.calls = [] → (∀ y ∈ e.varNames, y = parameterName) →
      (e.substitute parameterName argument).IsTidy := by
  induction e using operandInduction with
  | step e ih =>
    intro tidy noCalls own
    have below := ((calls_eq_nil_iff e).1 noCalls).2
    have parts (a : Expr) (ha : a ∈ e.operands) :=
      ih a ha (tidy.of_operand ha) (below a ha) fun y hy => own y (mem_varNames_of_operand ha hy)
    obtain ⟨y, rfl⟩ | ⟨f, a, rfl⟩ | ⟨f, reason, a, b, rfl⟩ | operator := e.operator_or
    · obtain rfl : y = parameterName := own y (by simp [varNames, nodes, varName?])
      simpa [substitute] using place.isTidy
    · simp [calls_call] at noCalls
    · obtain ⟨isPlace, inner⟩ := ((isTidy_iff _).1 tidy).1
      have isPart : a.IsPart :=
        isPlace.isPart fun y hy => own y (mem_varNames_of_operand (by simp [operands]) hy)
      refine (isTidy_iff _).2 ⟨⟨isPart.isPlace_substitute place, ?_⟩, ?_⟩
      · exact calls_substitute place parameterName b inner
      · simpa [substitute, operands] using
          ⟨parts a (by simp [operands]), parts b (by simp [operands])⟩
    · rw [substitute_of_operator operator]
      refine (isTidy_iff _).2
        ⟨isTidyNode_of_operator (by rwa [isOperator_mapOperands]), fun a ha => ?_⟩
      obtain ⟨b, hb, rfl⟩ := mem_operands_mapOperands.1 ha
      exact parts b hb

theorem isTidy_inlineCalls (areTrivial : Predicate.AreTrivial trivial)
    (areTidy : Predicate.AreTidy trivial) (e : Expr) :
    e.IsTidy → (e.inlineCalls trivial).IsTidy := by
  induction e using operandInduction with
  | step e ih =>
    intro tidy
    have parts (a : Expr) (ha : a ∈ e.operands) := ih a ha (tidy.of_operand ha)
    obtain ⟨y, rfl⟩ | ⟨f, a, rfl⟩ | ⟨f, reason, a, b, rfl⟩ | operator := e.operator_or
    · exact tidy
    · have place : a.IsPlace := ((isTidy_iff _).1 tidy).1
      cases known : trivial.lookup f with
      | none =>
        simp only [inlineCalls, known, inlineCalls_of_calls_eq_nil trivial a place.calls_eq_nil]
        exact tidy
      | some callee =>
        obtain ⟨noCalls, own⟩ := areTrivial f callee known
        obtain ⟨tidyBody, parameter⟩ := areTidy f callee known
        simp only [inlineCalls, known, parameter]
        refine (isTidy_iff _).2 ⟨⟨place, calls_substitute place _ _ noCalls⟩, ?_⟩
        have written := isTidy_substitute place callee.expr tidyBody noCalls
          fun y hy => (own y hy).trans parameter
        simpa [operands] using ⟨place.isTidy, written⟩
    · obtain ⟨place, noCalls⟩ := ((isTidy_iff _).1 tidy).1
      simp only [inlineCalls, inlineCalls_of_calls_eq_nil trivial a place.calls_eq_nil,
        inlineCalls_of_calls_eq_nil trivial b noCalls]
      exact tidy
    · rw [inlineCalls_of_operator operator]
      refine (isTidy_iff _).2
        ⟨isTidyNode_of_operator (by rwa [isOperator_mapOperands]), fun a ha => ?_⟩
      obtain ⟨b, hb, rfl⟩ := mem_operands_mapOperands.1 ha
      exact parts b hb

end Expr

end ShapeCheck
