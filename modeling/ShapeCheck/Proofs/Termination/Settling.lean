import Mathlib.Order.Filter.AtTopBot.Basic
import Mathlib.Data.Set.Insert
import ShapeCheck.Proofs.Compilation.Registry

set_option autoImplicit false

/-! # Results that stay the same at greater depths

Names are spelled and types are compiled within a depth. A family of steps, one for each depth, settles
if from some depth on all of them have the same result, and that result is not that the depth was used
up. For compilations the registry has to settle as well; `known` are names that it holds from the
start, and whoever adds a predicate may take its name for known while the body is built.

Main facts: `Settled.bind`, `Settles.bind` (what a sequence needs to settle) and `Settles.ensure` (a
predicate settles if its name and its body do).
-/

namespace ShapeCheck

open Filter

variable {α β : Type}

/-- The result is a verdict: it is not that the depth was used up. -/
def Conclusive (result : Except CompileError α) : Prop := ∀ type, result ≠ .error (.endless type)

theorem conclusive_ok (a : α) : Conclusive (.ok a : Except CompileError α) := nofun

theorem Conclusive.error {e : CompileError} (h : Conclusive (.error e : Except CompileError α)) :
    Conclusive (.error e : Except CompileError β) := by
  intro type same
  cases same
  exact h type rfl

/-! ## Results without a registry -/

/-- From some depth on there is one conclusive result. -/
def Settled (m : Nat → Except CompileError α) : Prop :=
  ∃ result, Conclusive result ∧ ∀ᶠ depth in atTop, m depth = result

namespace Settled

theorem const {result : Except CompileError α} (h : Conclusive result) : Settled fun _ => result :=
  ⟨result, h, .of_forall fun _ => rfl⟩

theorem ok (a : α) : Settled fun _ => (.ok a : Except CompileError α) := const (conclusive_ok a)

/-- What settles one depth later settles. -/
theorem of_succ {m : Nat → Except CompileError α} (h : Settled fun depth => m (depth + 1)) :
    Settled m := by
  obtain ⟨result, conclusive, later⟩ := h
  obtain ⟨enough, stays⟩ := eventually_atTop.1 later
  refine ⟨result, conclusive, eventually_atTop.2 ⟨enough + 1, fun depth le => ?_⟩⟩
  obtain ⟨before, rfl⟩ : ∃ before, depth = before + 1 := ⟨depth - 1, by omega⟩
  exact stays before (by omega)

theorem bind {m : Nat → Except CompileError α} {f : Nat → α → Except CompileError β}
    (first : Settled m) (second : ∀ a, Settled fun depth => f depth a) :
    Settled fun depth => m depth >>= f depth := by
  obtain ⟨result, conclusive, stays⟩ := first
  cases result with
  | error e =>
    refine ⟨.error e, conclusive.error, stays.mono fun depth made => ?_⟩
    show m depth >>= f depth = _
    rw [made]
    rfl
  | ok a =>
    obtain ⟨result, conclusive, stays'⟩ := second a
    refine ⟨result, conclusive, ?_⟩
    filter_upwards [stays, stays'] with depth made made'
    rw [made]
    exact made'

theorem mapM {f : Nat → α → Except CompileError β} {items : List α}
    (h : ∀ a ∈ items, Settled fun depth => f depth a) :
    Settled fun depth => items.mapM (f depth) := by
  induction items with
  | nil => exact ok []
  | cons a rest ih =>
    simp only [List.mapM_cons]
    refine (h a List.mem_cons_self).bind fun b => ?_
    refine (ih fun c inside => h c (List.mem_cons_of_mem _ inside)).bind fun bs => ok _

end Settled

/-! ## Compilations -/

/-- Started on a registry that holds the known names, the steps settle, and no name is lost. -/
def Settles (known : Set String) (m : Nat → Build α) : Prop :=
  ∀ r : Registry, (∀ name ∈ known, r.contains name = true) →
    ∃ result r', Conclusive result ∧ (∀ name, r.contains name = true → r'.contains name = true) ∧
      ∀ᶠ depth in atTop, (m depth).run.run r = (result, r')

namespace Settles

variable {known known' : Set String}

theorem mono {m : Nat → Build α} (h : Settles known m) (le : known ⊆ known') : Settles known' m :=
  fun r holds => h r fun name inside => holds name (le inside)

theorem lift {m : Nat → Except CompileError α} (h : Settled m) :
    Settles known fun depth => (liftM (m depth) : Build α) := by
  intro r _
  obtain ⟨result, conclusive, stays⟩ := h
  refine ⟨result, r, conclusive, fun _ h => h, stays.mono fun depth made => ?_⟩
  show (liftM (m depth) : Build α).run.run r = _
  rw [made]
  cases result <;> rfl

theorem pure (a : α) : Settles known fun _ => (Pure.pure a : Build α) := lift (.ok a)

theorem throw {e : CompileError} (h : Conclusive (.error e : Except CompileError α)) :
    Settles known fun _ => (MonadExcept.throw e : Build α) := lift (.const h)

theorem of_succ {m : Nat → Build α} (h : Settles known fun depth => m (depth + 1)) :
    Settles known m := by
  intro r holds
  obtain ⟨result, r', conclusive, keeps, later⟩ := h r holds
  obtain ⟨enough, stays⟩ := eventually_atTop.1 later
  refine ⟨result, r', conclusive, keeps, eventually_atTop.2 ⟨enough + 1, fun depth le => ?_⟩⟩
  obtain ⟨before, rfl⟩ : ∃ before, depth = before + 1 := ⟨depth - 1, by omega⟩
  exact stays before (by omega)

/-- What follows has to settle for the results that there are. -/
theorem bind_of_gives {m : Nat → Build α} {f : Nat → α → Build β} (first : Settles known m)
    (second : ∀ a, (∃ depth r r', Gives (m depth) r a r') → Settles known fun depth => f depth a) :
    Settles known fun depth => m depth >>= f depth := by
  intro r holds
  obtain ⟨result, r', conclusive, keeps, stays⟩ := first r holds
  cases result with
  | error e =>
    refine ⟨.error e, r', conclusive.error, keeps, stays.mono fun depth made => ?_⟩
    show (ExceptT.bindCont (f depth) ((m depth).run.run r).1).run ((m depth).run.run r).2 = _
    rw [made]
    rfl
  | ok a =>
    obtain ⟨depth, made⟩ := stays.exists
    obtain ⟨result, r'', conclusive, keeps', stays'⟩ :=
      second a ⟨depth, r, r', made⟩ r' fun name inside => keeps name (holds name inside)
    refine ⟨result, r'', conclusive, fun name h => keeps' name (keeps name h), ?_⟩
    filter_upwards [stays, stays'] with depth made made'
    show (ExceptT.bindCont (f depth) ((m depth).run.run r).1).run ((m depth).run.run r).2 = _
    rw [made]
    exact made'

theorem bind {m : Nat → Build α} {f : Nat → α → Build β} (first : Settles known m)
    (second : ∀ a, Settles known fun depth => f depth a) :
    Settles known fun depth => m depth >>= f depth :=
  first.bind_of_gives fun a _ => second a

theorem get_bind {f : Nat → Registry → Build β} (h : ∀ r, Settles known fun depth => f depth r) :
    Settles known fun depth => get >>= f depth := fun r holds => h r r holds

theorem mapM {f : Nat → α → Build β} {items : List α}
    (h : ∀ a ∈ items, Settles known fun depth => f depth a) :
    Settles known fun depth => items.mapM (f depth) := by
  induction items with
  | nil => exact pure []
  | cons a rest ih =>
    simp only [List.mapM_cons]
    refine (h a List.mem_cons_self).bind fun b => ?_
    exact (ih fun c inside => h c (List.mem_cons_of_mem _ inside)).bind fun bs => pure _

theorem filterMapM {f : Nat → α → Build (Option β)} {items : List α}
    (h : ∀ a ∈ items, Settles known fun depth => f depth a) :
    Settles known fun depth => items.filterMapM (f depth) := by
  induction items with
  | nil => exact pure []
  | cons a rest ih =>
    simp only [List.filterMapM_cons]
    have below := ih fun c inside => h c (List.mem_cons_of_mem _ inside)
    refine (h a List.mem_cons_self).bind fun b => ?_
    cases b with
    | none => exact below
    | some b => exact below.bind fun bs => pure _

/-! ## Adding predicates -/

theorem update {f : Registry → Registry}
    (h : ∀ (r : Registry) name, r.contains name = true → (f r).contains name = true) :
    Settles known fun _ => (modify f : Build Unit) :=
  fun r _ => ⟨.ok (), f r, conclusive_ok (), h r, .of_forall fun _ => rfl⟩

/-- A predicate settles if its body does, once its name is known. -/
theorem ensure {name : String} {reason : Option Reason} {body : Nat → Build (List Stmt)}
    (h : name ∉ known → Settles (insert name known) body) :
    Settles known fun depth => Build.ensure name reason (body depth) := by
  intro r holds
  by_cases taken : r.contains name = true
  · refine ⟨.ok name, r, conclusive_ok name, fun _ h => h, .of_forall fun depth => ?_⟩
    show (if r.contains name = true then _ else _ : Build String).run.run r = _
    rw [if_pos taken]
    rfl
  · have fresh : name ∉ known := fun inside => taken (holds name inside)
    have reserved : ∀ other ∈ insert name known, (r.reserve name).contains other = true := by
      rintro other (rfl | inside)
      · exact r.contains_reserve other
      · exact Registry.contains_reserve_of_contains (holds other inside)
    have finishing : Settles (insert name known) fun depth => do
        let stmts ← body depth
        modify fun registry => registry.complete ⟨name, Expr.parameterName, stmts, reason⟩
        return name :=
      (h fresh).bind fun stmts =>
        (update fun r other => Registry.contains_complete_of_contains).bind fun _ => pure name
    obtain ⟨result, r', conclusive, keeps, stays⟩ := finishing (r.reserve name) reserved
    refine ⟨result, r', conclusive,
      fun other h => keeps other (Registry.contains_reserve_of_contains h), stays.mono fun depth made => ?_⟩
    show (if r.contains name = true then _ else _ : Build String).run.run r = _
    rw [if_neg taken]
    exact made

theorem ensureExpr {name : String} {reason : Option Reason} {body : Nat → Build Expr}
    (h : name ∉ known → Settles (insert name known) body) :
    Settles known fun depth => Build.ensureExpr name reason (body depth) :=
  ensure fun fresh => (h fresh).bind fun e => pure [Stmt.result e]

theorem optional (inner : String) : Settles known fun _ => Build.optional inner :=
  ensureExpr fun _ => pure _

end Settles

end ShapeCheck
