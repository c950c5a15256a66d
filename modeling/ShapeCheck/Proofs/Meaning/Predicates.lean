import ShapeCheck.Proofs.Compilation.Registry
import ShapeCheck.Proofs.Evaluation.Tests
import ShapeCheck.Proofs.Meaning.Keys
import ShapeCheck.Proofs.Naming.Marks

set_option autoImplicit false

/-! # What names mean

A name means what the goals of that name admit. A predicate may be called for any of them if they
agree, and they do unless names are shared by different types.

A predicate decides what its name means if it does so whenever the predicates that it calls do; how
deep calls may be nested is of no concern for a single predicate.

Main facts: `Arena.agrees_of_namesApart`, `Arena.means_iff` (what a name means can be read off any goal
of that name) and `Build.ensure_decides` (it is enough to look at the body that is built).
-/

namespace ShapeCheck

/-! ## Meaning of names -/

/-- Some goal of this name admits the value. -/
def Arena.Means (arena : Arena) (root : Goal) (A : TypeId → Bool → Value → Prop) (name : String)
    (v : Value) : Prop :=
  ∃ goal, Goal.IsBuilt arena root goal ∧ goal.IsNamed arena name ∧ goal.Admits A v

namespace Arena

variable {arena : Arena} {root : Goal} {A : TypeId → Bool → Value → Prop}

/-- Goals of one name admit the same values. -/
def Agrees (arena : Arena) (root : Goal) (A : TypeId → Bool → Value → Prop) : Prop :=
  ∀ goal goal' name, Goal.IsBuilt arena root goal → Goal.IsBuilt arena root goal' →
    goal.IsNamed arena name → goal'.IsNamed arena name → ∀ v, goal.Admits A v ↔ goal'.Admits A v

section
variable (plain : arena.IsMonomorphic root) (apart : arena.NamesApart root)
  (solves : arena.Solves root A)
include plain apart solves

/-- One type with and without the check, under one name, is one meaning. -/
theorem iff_of_isNamed {type : TypeId} {exact exact' : Bool} {name : String}
    (built : Goal.IsBuilt arena root (.ofType type exact))
    (built' : Goal.IsBuilt arena root (.ofType type exact'))
    (named : arena.typeName [] exact type = .ok name)
    (named' : arena.typeName [] exact' type = .ok name) (v : Value) :
    A type exact v ↔ A type exact' v := by
  cases exact <;> cases exact'
  · rfl
  · exact (iff_of_sameName plain apart solves built' built named' named v).symm
  · exact iff_of_sameName plain apart solves built built' named named' v
  · rfl

/-- Goals agree if names are not shared. -/
theorem agrees_of_namesApart : arena.Agrees root A := by
  intro goal goal' name built built' named named' v
  cases goal with
  | ofType type exact =>
    obtain ⟨exact', rfl⟩ := apart _ _ name built built' named named' type exact rfl
    exact iff_of_isNamed plain apart solves built built' named named' v
  | optional type exact =>
    obtain ⟨inner, spelled, same⟩ := named
    cases goal' with
    | ofType type' exact' =>
      obtain ⟨_, other⟩ := apart _ _ name built' built named' ⟨inner, spelled, same⟩ type' exact' rfl
      cases other
    | optional type' exact' =>
      obtain ⟨inner', spelled', same'⟩ := named'
      obtain rfl := optionalName_injective (same.symm.trans same')
      have part := built.step (.optional type exact)
      have part' := built'.step (.optional type' exact')
      obtain ⟨exact'', goals⟩ := apart _ _ inner part part' spelled spelled' type exact rfl
      obtain ⟨rfl, -⟩ := Goal.ofType.inj goals
      exact or_congr_right (iff_of_isNamed plain apart solves part part' spelled spelled' v)
    | keySet keys => exact absurd (same.symm.trans named') (optionalName_ne_exactKeysName _ _)
  | keySet keys =>
    cases goal' with
    | ofType type' exact' =>
      obtain ⟨_, other⟩ := apart _ _ name built' built named' named type' exact' rfl
      cases other
    | optional type' exact' =>
      obtain ⟨inner, -, same⟩ := named'
      exact absurd (same.symm.trans named) (optionalName_ne_exactKeysName _ _)
    | keySet keys' => rw [exactKeysName_injective (Eq.trans (Eq.symm named) named')]

end

/-- What a name means can be read off any goal of that name. -/
theorem means_iff (agrees : arena.Agrees root A) {goal : Goal} {name : String}
    (built : Goal.IsBuilt arena root goal) (named : goal.IsNamed arena name) (v : Value) :
    arena.Means root A name v ↔ goal.Admits A v := by
  constructor
  · rintro ⟨goal', built', named', admits⟩
    exact (agrees goal goal' name built built' named named' v).2 admits
  · exact fun admits => ⟨goal, built, named, admits⟩

theorem isNamed_ofType {depth : Nat} (small : depth ≤ maxUnfoldingDepth) {type : TypeId}
    {exact : Bool} {name : String} (made : typeNameWithin arena depth [] exact type = .ok name) :
    Goal.IsNamed arena name (.ofType type exact) :=
  typeNameWithin_mono small _ _ _ name made

end Arena

/-! ## Predicates that decide -/

/-- Calls answer as the names mean. -/
def Answers (M : String → Value → Prop) (call : String → Located → Run Unit Bool) : Prop :=
  ∀ name x, Yields (call name x) fun b => b = true ↔ M name x.value

/-- The predicate decides what its name means, if those that it calls do. -/
def Predicate.Decides (M : String → Value → Prop) (p : Predicate) : Prop :=
  ∀ call, Answers M call → ∀ x, Yields (p.run Observer.silent call x) fun b =>
    b = true ↔ M p.name x.value

/-- The frame of a compiled predicate at its start. -/
def Frame.ofValue (x : Located) : Frame := ⟨Expr.parameterName, none, [(Expr.parameterName, x)]⟩

/-- In a body, the expression tests a property of the value, if calls answer as the names mean. -/
def Expr.Tells (M : String → Value → Prop) (e : Expr) (P : Value → Prop) : Prop :=
  ∀ call, Answers M call → ∀ x, e.Tests Observer.silent call (Frame.ofValue x) (P x.value)

/-- The body decides a property of the value, if calls answer as the names mean. -/
def Stmt.Tell (M : String → Value → Prop) (stmts : List Stmt) (P : Value → Prop) : Prop :=
  ∀ call, Answers M call → ∀ x, Decide Observer.silent call (Frame.ofValue x) stmts (P x.value)

section
variable {M : String → Value → Prop} {P Q : Value → Prop}

theorem Expr.Tells.congr {e : Expr} (h : e.Tells M P) (same : ∀ v, P v ↔ Q v) : e.Tells M Q :=
  fun call answers x => (h call answers x).congr (same x.value)

theorem Stmt.Tell.congr {stmts : List Stmt} (h : Tell M stmts P) (same : ∀ v, P v ↔ Q v) :
    Tell M stmts Q :=
  fun call answers x => (h call answers x).congr (same x.value)

theorem Stmt.tell_result {e : Expr} (h : e.Tells M P) : Tell M [.result e] P :=
  fun call answers x => decide_result (h call answers x)

/-! ## Building -/

theorem Build.ensure_decides {name : String} {reason : Option Reason} {body : Build (List Stmt)}
    (same : ∀ v, P v ↔ M name v)
    (h : Keeps (Registry.Holds (Predicate.Decides M)) body fun stmts => Stmt.Tell M stmts P) :
    Keeps (Registry.Holds (Predicate.Decides M)) (ensure name reason body) (· = name) := by
  refine ensure_keeps (h.mono fun stmts tell call answers x => ?_)
  exact Predicate.yields_run ((tell call answers x).congr (same x.value))

theorem Build.ensureExpr_decides {name : String} {reason : Option Reason} {body : Build Expr}
    (same : ∀ v, P v ↔ M name v)
    (h : Keeps (Registry.Holds (Predicate.Decides M)) body fun e => e.Tells M P) :
    Keeps (Registry.Holds (Predicate.Decides M)) (ensureExpr name reason body) (· = name) :=
  ensure_decides same (h.bind fun _ tells => .pure (Stmt.tell_result tells))

/-- A predicate that is found to accept everything means everything. -/
theorem Registry.means_of_isAlwaysTrue {r : Registry} (h : r.Holds (Predicate.Decides M))
    {name : String} (always : r.isAlwaysTrue name = true) (v : Value) : M name v := by
  obtain ⟨p, rfl, decides, always⟩ := h.of_isAlwaysTrue always
  have body := Predicate.isAlwaysTrue_iff.1 always
  -- it accepts without any call, so it does not matter how calls answer
  have outcome : Gives (p.run Observer.silent (fun _ _ => throw .depthExceeded) (.whole v)) () true
      () := by
    rw [Predicate.run_eq, body]
    simp only [Stmt.execAll, Stmt.exec, Expr.eval, pure_bind]
    exact gives_bind.2 ⟨(), (), by cases p.reason <;> exact gives_pure.2 ⟨rfl, rfl⟩,
      gives_pure.2 ⟨rfl, rfl⟩⟩
  exact (decides _ (fun _ _ => .throw _) (.whole v) _ _ _ outcome trivial).2.1 rfl

end

/-! ## Leaves -/

namespace Value

variable {v : Value}

theorem primitiveEquals_undefined : v.primitiveEquals .undefined = true ↔ v = .undefined := by
  cases v <;> simp [primitiveEquals]

theorem primitiveEquals_null : v.primitiveEquals .null = true ↔ v = .null := by
  cases v <;> simp [primitiveEquals]

theorem primitiveEquals_string {s : String} :
    v.primitiveEquals (.string s) = true ↔ v = .string s := by
  cases v <;> simp [primitiveEquals]

theorem primitiveEquals_bool {b : Bool} : v.primitiveEquals (.bool b) = true ↔ v = .bool b := by
  cases v <;> simp [primitiveEquals]

theorem primitiveEquals_number {x : Double} :
    v.primitiveEquals (.number x) = true ↔ ∃ y, v = .number y ∧ y.equals x = true := by
  cases v <;> simp [primitiveEquals]

end Value

namespace Expr

variable {σ : Type} {observe : Observer σ} {call : String → Located → Run σ Bool} {x : Located}

theorem reads_parameter : Reads observe call (Frame.ofValue x) .parameter x :=
  reads_var parameterName

/-- The member that a loop is at. -/
theorem reads_element {binder : String} (other : binder ≠ parameterName) (key : Value) :
    Reads observe call ((Frame.ofValue x).bind binder (.computed key))
      (.index .parameter (.var binder)) (x.getKeyOf key) := by
  have differs : (parameterName == binder) = false := by simpa using other.symm
  have whole : Reads observe call ((Frame.ofValue x).bind binder (.computed key)) .parameter x := by
    simp [Reads, parameter, eval, Frame.bind, Frame.value, Frame.ofValue, List.lookup_cons, differs]
  have bound : Reads observe call ((Frame.ofValue x).bind binder (.computed key)) (.var binder)
      (.computed key) := by
    simp [Reads, eval, Frame.bind, Frame.value]
  exact reads_index whole bound

theorem reads_undefined {frame : Frame} :
    Reads observe call frame .undefined (.computed .undefined) := rfl

theorem reads_null {frame : Frame} : Reads observe call frame .null (.computed .null) := rfl

theorem tests_undefined {frame : Frame} {a : Expr} (h : Reads observe call frame a x) :
    Tests observe call frame (.strictEq a .undefined) (x.value = .undefined) :=
  (tests_strictEq h reads_undefined).congr
    (by rw [Located.strictEquals_computed x rfl, Value.primitiveEquals_undefined])

theorem tests_isNull : Tests observe call (Frame.ofValue x) (.strictEq .parameter .null)
    (x.value = .null) :=
  (tests_strictEq reads_parameter reads_null).congr
    (by rw [Located.strictEquals_computed x rfl, Value.primitiveEquals_null])

theorem tests_notNull : Tests observe call (Frame.ofValue x) (.strictNe .parameter .null)
    (x.value ≠ .null) :=
  (tests_strictNe reads_parameter reads_null).congr
    (by rw [Located.strictEquals_computed x rfl, ← Bool.not_eq_true, Value.primitiveEquals_null,
      ne_eq])

end Expr

end ShapeCheck
