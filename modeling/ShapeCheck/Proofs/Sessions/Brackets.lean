import ShapeCheck.Proofs.Compilation.Registry
import ShapeCheck.Proofs.Termination.Spelling

set_option autoImplicit false

/-! # Compilation in place

A compilation can hold its options and its instantiations in one state that all steps share. A part that
is compiled in another context then changes the state and has to change it back, whether it ends in a
result or in an error. Three brackets do that: for the check for superfluous keys, for the instantiations
that are visible, and for a further instantiation.

A step in place mirrors one in a context that is passed down if it has the same result and leaves the
same registry, and nothing else of the state is different afterwards (`Mirrors`).

Main facts: `Mirrors.withExact`, `Mirrors.withFrames` and `Mirrors.withInstantiation` (what a bracket
encloses may be done in the context inside), and `Mirrors.ensure` (finished predicates stay).
-/

namespace ShapeCheck

/-! ## Sessions -/

/-- What a compilation in place holds. Of the instantiations the innermost comes first. -/
structure Session where
  options : CompileOptions
  frames : Substitution
  registry : Registry
  /-- The greatest number of instantiations that there have been. -/
  peak : Nat

namespace Session

/-- The context that a type is compiled in. -/
def context (arena : Arena) (s : Session) : Context := ⟨arena, s.options, s.frames⟩

/-- Turns the check for superfluous keys on or off. -/
def setExact (s : Session) (exact : Bool) : Session :=
  { s with options := { s.options with superfluousPropertyCheck := exact } }

/-- Replaces the instantiations; nothing else writes them. -/
def setFrames (s : Session) (frames : Substitution) : Session :=
  { s with frames := frames, peak := max s.peak frames.length }

end Session

/-- The predicates that are finished stay as they are, at their places. -/
def Registry.KeepsFinished (r t : Registry) : Prop :=
  ∀ (i : Nat) (name : String) (p : Predicate),
    r.entries[i]? = some (name, some p) → t.entries[i]? = some (name, some p)

namespace Registry.KeepsFinished

theorem reserve (r : Registry) (name : String) : r.KeepsFinished (r.reserve name) := by
  intro i other p listed
  unfold Registry.reserve
  split
  · exact listed
  · obtain ⟨inside, -⟩ := List.getElem?_eq_some_iff.1 listed
    rw [List.getElem?_append_left inside]
    exact listed

/-- A predicate is stored under a name that no finished one had. -/
theorem complete {r t : Registry} (h : r.KeepsFinished t) {p : Predicate}
    (fresh : ¬ r.contains p.name = true) : r.KeepsFinished (t.complete p) := by
  intro i other q listed
  have different : other ≠ p.name := by
    rintro rfl
    exact fresh (Registry.contains_iff.2 (List.mem_map.2 ⟨_, List.mem_of_getElem? listed, rfl⟩))
  have kept := reserve t p.name i other q (h i other q listed)
  simp [Registry.complete, List.getElem?_map, kept, different]

end Registry.KeepsFinished

/-- Nothing has changed but the registry, which has not lost anything, and the instantiations never
were more than they may be. -/
structure Session.Undisturbed (s t : Session) : Prop where
  options : t.options = s.options
  frames : t.frames = s.frames
  finished : s.registry.KeepsFinished t.registry
  peak : s.frames.length ≤ maxInstantiationDepth → t.peak ≤ max s.peak maxInstantiationDepth

namespace Session.Undisturbed

theorem refl (s : Session) : s.Undisturbed s :=
  ⟨rfl, rfl, fun _ _ _ h => h, fun _ => Nat.le_max_left _ _⟩

theorem trans {s t u : Session} (h : s.Undisturbed t) (h' : t.Undisturbed u) : s.Undisturbed u where
  options := h'.options.trans h.options
  frames := h'.frames.trans h.frames
  finished i name p listed := h'.finished i name p (h.finished i name p listed)
  peak small := by
    have first := h.peak small
    have second := h'.peak (by rwa [h.frames])
    omega

end Session.Undisturbed

/-! ## Steps in place -/

/-- A step that may change all of a session. -/
abbrev Act := ExceptT CompileError (StateM Session)

namespace Act

variable {α β : Type}

/-- Runs a step, and then changes the session back, even if the step has failed. -/
def restoring (m : Act α) (back : Session → Session) : Act α :=
  ExceptT.mk do
    let result ← m.run
    modify back
    return result

/-- Runs a step with the check for superfluous keys on or off. -/
def withExact (exact : Bool) (m : Act α) : Act α := do
  let saved := (← get).options.superfluousPropertyCheck
  modify (·.setExact exact)
  m.restoring (·.setExact saved)

/-- Runs a step that sees the outermost instantiations only, as many as there may be. -/
def withFrames (limit : Nat) (m : Act α) : Act α := do
  let frames := (← get).frames
  let hidden := frames.take (frames.length - limit)
  modify (·.setFrames (frames.drop (frames.length - limit)))
  m.restoring fun s => s.setFrames (hidden ++ s.frames)

/-- Runs a step with a further instantiation, unless it binds nothing. -/
def withFrame (definition : Definition) (frame : Instantiation) (m : Act α) : Act α := do
  if frame.isEmpty then m
  else
    let frames := (← get).frames
    if maxInstantiationDepth ≤ frames.length then
      throw (.instantiationTooDeep definition.name maxInstantiationDepth)
    else
      modify (·.setFrames (frame :: frames))
      m.restoring fun s => s.setFrames s.frames.tail

/-- Runs a step inside of a reference to a definition. -/
def withInstantiation (arena : Arena) (definition : Definition) (arguments : List TypeId)
    (m : Act α) : Act α := do
  withFrame definition (← Instantiation.ofArguments arena definition arguments) m

/-- Reads something off the context. -/
def reading (arena : Arena) (read : Context → Except CompileError α) : Act α := do
  read ((← get).context arena)

/-- The registry as it is. -/
def registry : Act Registry := return (← get).registry

/-- Changes the registry. -/
def register (change : Registry → Registry) : Act Unit :=
  modify fun s => { s with registry := change s.registry }

/-- Builds the predicate of this name, unless the name is taken. -/
def ensure (name : String) (reason : Option Reason) (body : Act (List Stmt)) : Act String := do
  if (← registry).contains name then return name
  else
    register (·.reserve name)
    let stmts ← body
    register (·.complete ⟨name, Expr.parameterName, stmts, reason⟩)
    return name

/-- Builds a predicate that is a single expression. -/
def ensureExpr (name : String) (reason : Option Reason) (body : Act Expr) : Act String :=
  ensure name reason do return [.result (← body)]

end Act

/-! ## Runs -/

section
variable {ε σ α β : Type}

theorem run_bind_of_ok {m : ExceptT ε (StateM σ) α} {f : α → ExceptT ε (StateM σ) β} {s t : σ} {a : α}
    (h : m.run.run s = (.ok a, t)) : (m >>= f).run.run s = (f a).run.run t := by
  show (ExceptT.bindCont f (m.run.run s).1).run (m.run.run s).2 = _
  rw [h]
  rfl

theorem run_bind_of_error {m : ExceptT ε (StateM σ) α} {f : α → ExceptT ε (StateM σ) β} {s t : σ} {e : ε}
    (h : m.run.run s = (.error e, t)) : (m >>= f).run.run s = (.error e, t) := by
  show (ExceptT.bindCont f (m.run.run s).1).run (m.run.run s).2 = _
  rw [h]
  rfl

end

namespace Act

variable {α : Type}

theorem run_reading (arena : Arena) (read : Context → Except CompileError α) (s : Session) :
    (reading arena read).run.run s = (read (s.context arena), s) := by
  show (liftM (read (s.context arena)) : Act α).run.run s = _
  cases read (s.context arena) <;> rfl

theorem run_withExact (exact : Bool) (m : Act α) (s : Session) :
    (withExact exact m).run.run s =
      ((m.run.run (s.setExact exact)).1,
        (m.run.run (s.setExact exact)).2.setExact s.options.superfluousPropertyCheck) := rfl

theorem run_withFrames (limit : Nat) (m : Act α) (s : Session) :
    let inside := s.setFrames (s.frames.drop (s.frames.length - limit))
    (withFrames limit m).run.run s = ((m.run.run inside).1, (m.run.run inside).2.setFrames
      (s.frames.take (s.frames.length - limit) ++ (m.run.run inside).2.frames)) := rfl

theorem run_withFrame (definition : Definition) (frame : Instantiation) (m : Act α) (s : Session) :
    let inside := s.setFrames (frame :: s.frames)
    (withFrame definition frame m).run.run s =
      if frame.isEmpty then m.run.run s
      else if maxInstantiationDepth ≤ s.frames.length then
        (.error (.instantiationTooDeep definition.name maxInstantiationDepth), s)
      else ((m.run.run inside).1, (m.run.run inside).2.setFrames (m.run.run inside).2.frames.tail) := by
  unfold withFrame
  dsimp only
  split
  · rfl
  · show (ite _ _ _ : Act α).run.run s = _
    split <;> rfl

theorem run_ensure (name : String) (reason : Option Reason) (body : Act (List Stmt)) (s : Session) :
    (ensure name reason body).run.run s =
      if s.registry.contains name then (.ok name, s)
      else
        match body.run.run { s with registry := s.registry.reserve name } with
        | (.error e, t) => (.error e, t)
        | (.ok stmts, t) =>
          (.ok name,
            { t with registry := t.registry.complete ⟨name, Expr.parameterName, stmts, reason⟩ }) := by
  show (ite _ _ _ : Act String).run.run s = _
  split
  · rfl
  · refine (run_bind_of_ok (t := { s with registry := s.registry.reserve name }) rfl).trans ?_
    rcases built : body.run.run { s with registry := s.registry.reserve name } with ⟨result, t⟩
    cases result with
    | error e => exact run_bind_of_error built
    | ok stmts => exact run_bind_of_ok built

end Act

theorem Build.run_ensure (name : String) (reason : Option Reason) (body : Build (List Stmt))
    (r : Registry) :
    (ensure name reason body).run.run r =
      if r.contains name then (.ok name, r)
      else
        match body.run.run (r.reserve name) with
        | (.error e, t) => (.error e, t)
        | (.ok stmts, t) => (.ok name, t.complete ⟨name, Expr.parameterName, stmts, reason⟩) := by
  show (ite _ _ _ : Build String).run.run r = _
  split
  · rfl
  · refine (run_bind_of_ok (t := r.reserve name) rfl).trans ?_
    rcases built : body.run.run (r.reserve name) with ⟨result, t⟩
    cases result with
    | error e => exact run_bind_of_error built
    | ok stmts => exact run_bind_of_ok built

/-- The context inside of a reference, by what the reference binds. -/
theorem Context.enter_eq (ctx : Context) {definition : Definition} {arguments : List TypeId}
    {frame : Instantiation} (made : Instantiation.ofArguments ctx.arena definition arguments = .ok frame) :
    ctx.enter definition arguments =
      if frame.isEmpty then .ok ctx
      else if maxInstantiationDepth ≤ ctx.substitution.length then
        .error (.instantiationTooDeep definition.name maxInstantiationDepth)
      else .ok (ctx.reading (frame :: ctx.substitution)) := by
  unfold Context.enter Substitution.enter
  rw [made]
  show Except.bind (ite _ _ _) _ = _
  split
  · rfl
  · split <;> rfl

/-! ## Mirrors -/

/-- In sessions with the context, the step in place has the result of the other step and leaves the same
registry, and it disturbs nothing. -/
def Mirrors {α : Type} (ctx : Context) (m : Act α) (b : Build α) : Prop :=
  ∀ s : Session, s.options = ctx.options → s.frames = ctx.substitution →
    ((m.run.run s).1, (m.run.run s).2.registry) = b.run.run s.registry ∧ s.Undisturbed (m.run.run s).2

namespace Mirrors

variable {α β : Type} {ctx : Context}

theorem pure (a : α) : Mirrors ctx (Pure.pure a) (Pure.pure a) := fun s _ _ => ⟨rfl, .refl s⟩

theorem throw (e : CompileError) :
    Mirrors ctx (MonadExcept.throw e : Act α) (MonadExcept.throw e) := fun s _ _ => ⟨rfl, .refl s⟩

theorem lift (m : Except CompileError α) : Mirrors ctx (liftM m : Act α) (liftM m) := by
  cases m with
  | error e => exact .throw e
  | ok a => exact .pure a

theorem bind {m : Act α} {b : Build α} {f : α → Act β} {g : α → Build β} (h : Mirrors ctx m b)
    (h' : ∀ a, Mirrors ctx (f a) (g a)) : Mirrors ctx (m >>= f) (b >>= g) := by
  intro s options frames
  obtain ⟨same, between⟩ := h s options frames
  rcases first : m.run.run s with ⟨result, t⟩
  rw [first] at same between
  cases result with
  | error e =>
    rw [run_bind_of_error first, run_bind_of_error same.symm]
    exact ⟨rfl, between⟩
  | ok a =>
    rw [run_bind_of_ok first, run_bind_of_ok same.symm]
    obtain ⟨same, after⟩ := h' a t (between.options.trans options) (between.frames.trans frames)
    exact ⟨same, between.trans after⟩

theorem registry : Mirrors ctx Act.registry get := fun s _ _ => ⟨rfl, .refl s⟩

/-- What is read off the session is what is read off the context. -/
theorem reading (read : Context → Except CompileError α) :
    Mirrors ctx (Act.reading ctx.arena read) (liftM (read ctx)) := by
  intro s options frames
  have same : s.context ctx.arena = ctx := by
    obtain ⟨arena, _, _⟩ := ctx
    obtain rfl := options
    obtain rfl := frames
    rfl
  rw [Act.run_reading, same]
  refine ⟨?_, .refl s⟩
  cases read ctx <;> rfl

/-! ## Brackets -/

/-- The flag is what it was when the step is over. -/
theorem withExact {exact : Bool} {m : Act α} {b : Build α} (h : Mirrors (ctx.withExact exact) m b) :
    Mirrors ctx (Act.withExact exact m) b := by
  intro s options frames
  have inside : (s.setExact exact).options = (ctx.withExact exact).options := by
    simp [Session.setExact, Context.withExact, options]
  obtain ⟨same, after⟩ := h (s.setExact exact) inside frames
  rw [Act.run_withExact]
  set t := (m.run.run (s.setExact exact)).2
  have back : (t.setExact s.options.superfluousPropertyCheck).options = s.options := by
    show { t.options with superfluousPropertyCheck := s.options.superfluousPropertyCheck } = s.options
    rw [after.options]
    rfl
  exact ⟨same, back, after.frames, after.finished, after.peak⟩

/-- The instantiations that were hidden are there again when the step is over. -/
theorem withFrames {visible : Substitution} (suffix : visible <:+ ctx.substitution) {m : Act α}
    {b : Build α} (h : Mirrors (ctx.reading visible) m b) :
    Mirrors ctx (Act.withFrames visible.length m) b := by
  intro s options frames
  have suffix : visible <:+ s.frames := by rwa [frames]
  have shown : s.frames.drop (s.frames.length - visible.length) = visible :=
    (List.suffix_iff_eq_drop.1 suffix).symm
  have entered := Act.run_withFrames visible.length m s
  simp only [shown] at entered
  obtain ⟨same, after⟩ := h (s.setFrames visible) options rfl
  rw [entered]
  set t := (m.run.run (s.setFrames visible)).2
  have back : s.frames.take (s.frames.length - visible.length) ++ t.frames = s.frames := by
    have inside : t.frames = visible := after.frames
    calc
      s.frames.take (s.frames.length - visible.length) ++ t.frames
        = s.frames.take (s.frames.length - visible.length) ++
            s.frames.drop (s.frames.length - visible.length) := by rw [inside, shown]
      _ = s.frames := List.take_append_drop _ _
  refine ⟨same, ⟨after.options, back, after.finished, fun small => ?_⟩⟩
  have during : t.peak ≤ max (max s.peak visible.length) maxInstantiationDepth :=
    after.peak (Nat.le_trans suffix.length_le small)
  have short := suffix.length_le
  rw [back]
  show max t.peak s.frames.length ≤ _
  omega

/-- The instantiation is gone when the step is over, and it was entered only where there was room. -/
theorem withInstantiation {definition : Definition} {arguments : List TypeId} {m : Act α}
    {b : Context → Build α}
    (h : ∀ inside : Context, inside.arena = ctx.arena → Mirrors inside m (b inside)) :
    Mirrors ctx (Act.withInstantiation ctx.arena definition arguments m)
      (do b (← ctx.enter definition arguments)) := by
  unfold Act.withInstantiation
  cases made : Instantiation.ofArguments ctx.arena definition arguments with
  | error e =>
    have stops : ctx.enter definition arguments = .error e := by
      simp [Context.enter, Substitution.enter, made, Bind.bind, Except.bind]
    rw [stops]
    exact .throw e
  | ok frame =>
    rw [ctx.enter_eq made]
    show Mirrors ctx (Act.withFrame definition frame m) _
    intro s options frames
    rw [Act.run_withFrame]
    split
    · exact h ctx rfl s options frames
    rw [frames]
    split
    · exact ⟨rfl, .refl s⟩
    · rename_i room
      rw [← frames]
      obtain ⟨same, after⟩ := h (ctx.reading (frame :: s.frames)) rfl
        (s.setFrames (frame :: s.frames)) options rfl
      set t := (m.run.run (s.setFrames (frame :: s.frames))).2
      have inside : t.frames = frame :: s.frames := after.frames
      refine ⟨same, ⟨after.options, ?_, after.finished, fun small => ?_⟩⟩
      · show t.frames.tail = s.frames
        rw [inside]
        rfl
      · rw [← frames] at room
        have during : t.peak ≤ max (max s.peak (s.frames.length + 1)) maxInstantiationDepth :=
          after.peak (by show s.frames.length + 1 ≤ _; omega)
        show max t.peak t.frames.tail.length ≤ _
        rw [inside, List.tail_cons]
        omega

/-! ## Predicates -/

/-- What is built while the name is reserved disturbs nothing, and neither does the new predicate. -/
theorem ensure {name : String} {reason : Option Reason} {m : Act (List Stmt)} {b : Build (List Stmt)}
    (h : Mirrors ctx m b) : Mirrors ctx (Act.ensure name reason m) (Build.ensure name reason b) := by
  intro s options frames
  rw [Act.run_ensure, Build.run_ensure]
  split
  · exact ⟨rfl, .refl s⟩
  · rename_i fresh
    obtain ⟨same, after⟩ := h { s with registry := s.registry.reserve name } options frames
    rcases built : m.run.run { s with registry := s.registry.reserve name } with ⟨result, t⟩
    rw [built] at same after
    rw [← same]
    have finished : s.registry.KeepsFinished t.registry := fun i other p listed =>
      after.finished i other p (Registry.KeepsFinished.reserve s.registry name i other p listed)
    cases result with
    | error e => exact ⟨rfl, after.options, after.frames, finished, after.peak⟩
    | ok stmts =>
      exact ⟨rfl, after.options, after.frames,
        finished.complete (p := ⟨name, Expr.parameterName, stmts, reason⟩) fresh, after.peak⟩

theorem ensureExpr {name : String} {reason : Option Reason} {m : Act Expr} {b : Build Expr}
    (h : Mirrors ctx m b) :
    Mirrors ctx (Act.ensureExpr name reason m) (Build.ensureExpr name reason b) :=
  ensure (h.bind fun e => .pure [Stmt.result e])

/-! ## Several items -/

theorem mapM {f : α → Act β} {g : α → Build β} (items : List α)
    (h : ∀ a, Mirrors ctx (f a) (g a)) : Mirrors ctx (items.mapM f) (items.mapM g) := by
  induction items with
  | nil => exact .pure []
  | cons a rest ih =>
    rw [List.mapM_cons, List.mapM_cons]
    exact (h a).bind fun b => ih.bind fun bs => .pure (b :: bs)

theorem filterMapM {f : α → Act (Option β)} {g : α → Build (Option β)} (items : List α)
    (h : ∀ a, Mirrors ctx (f a) (g a)) : Mirrors ctx (items.filterMapM f) (items.filterMapM g) := by
  induction items with
  | nil => exact .pure []
  | cons a rest ih =>
    rw [List.filterMapM_cons, List.filterMapM_cons]
    refine (h a).bind fun found => ?_
    cases found with
    | none => exact ih
    | some b => exact ih.bind fun bs => .pure (b :: bs)

end Mirrors

end ShapeCheck
