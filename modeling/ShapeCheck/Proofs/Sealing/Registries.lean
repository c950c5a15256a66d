import ShapeCheck.Proofs.Compilation.Registry
import ShapeCheck.Proofs.Operands

set_option autoImplicit false

/-! # Names that are called are there

A body is built from the names that the compilation of its parts returned, and from its own name, which
is reserved meanwhile. `Seals known m uses` says of a step that starts with the known names: the names
that its result calls are in the registry at the end, no name gets lost, every predicate that was
finished calls names that are there, and every name that was reserved on the way has its predicate.

Main facts: `Seals.bind` (a sequence may use what its first step has added) and `Build.ensure_seals` (a
body may call its own name).
-/

namespace ShapeCheck

/-! ## Calls of expressions and statements -/

theorem Expr.calls_eq (e : Expr) :
    e.calls = e.callee?.toList ++ e.operands.flatMap calls := by
  unfold calls
  rw [nodes_eq, List.filterMap_cons, List.filterMap_flatMap]
  cases e.callee? <;> rfl

theorem Expr.calls_and (es : List Expr) : (and es).calls = es.flatMap calls := by
  rw [calls_eq]
  rfl

theorem Expr.calls_or (es : List Expr) : (or es).calls = es.flatMap calls := by
  rw [calls_eq]
  rfl

theorem Expr.calls_anyOf (es : List Expr) : (anyOf es).calls = es.flatMap calls := by
  unfold anyOf
  split
  · simp
  · exact calls_or _

theorem Expr.flatMap_calls_callOn (names : List String) :
    (names.map callOn).flatMap calls = names := by
  induction names with
  | nil => rfl
  | cons name rest ih =>
    rw [List.map_cons, List.flatMap_cons, ih]
    rfl

namespace Stmt

/-- The predicates that statements call, in order. -/
def calls (stmts : List Stmt) : List String := (exprsOfAll stmts).flatMap Expr.calls

theorem calls_result (e : Expr) : calls [.result e] = e.calls := by
  simp [calls, exprsOfAll, exprs]

theorem calls_rejectUnless (e : Expr) (rest : List Stmt) :
    calls (rejectUnless e :: rest) = e.calls ++ calls rest := by
  have negated : (Expr.not e).calls = e.calls := by
    rw [Expr.calls_eq]
    simp [Expr.callee?, Expr.operands]
  have constant : (Expr.bool false).calls = [] := rfl
  simp [calls, rejectUnless, exprsOfAll, exprs, negated, constant]

theorem calls_append (stmts rest : List Stmt) : calls (stmts ++ rest) = calls stmts ++ calls rest := by
  induction stmts with
  | nil => rfl
  | cons stmt stmts ih =>
    have split : calls (stmt :: stmts ++ rest) =
        stmt.exprs.flatMap Expr.calls ++ calls (stmts ++ rest) := by
      simp [calls, exprsOfAll]
    rw [split, ih, ← List.append_assoc]
    simp [calls, exprsOfAll]

end Stmt

/-! ## Sealed registries -/

namespace Registry

/-- Every finished predicate calls names that are there. -/
def IsSealed (r : Registry) : Prop := r.Holds fun p => ∀ f ∈ p.calls, r.contains f = true

/-- The second registry has all names of the first, and none without a predicate but those that have
none in the first either. -/
structure Extends (r r' : Registry) : Prop where
  names : ∀ name, r.contains name = true → r'.contains name = true
  pending : ∀ name, r'.isPending name = true → r.isPending name = true

theorem Extends.refl (r : Registry) : r.Extends r := ⟨fun _ h => h, fun _ h => h⟩

theorem Extends.trans {r r' r'' : Registry} (h : r.Extends r') (h' : r'.Extends r'') : r.Extends r'' :=
  ⟨fun name inside => h'.names name (h.names name inside),
    fun name open_ => h.pending name (h'.pending name open_)⟩

theorem Holds.mono {Good Good' : Predicate → Prop} {r : Registry} (h : r.Holds Good)
    (weaker : ∀ p, Good p → Good' p) : r.Holds Good' :=
  ⟨h.distinct, fun name p inside => ⟨(h.finished name p inside).1, weaker p (h.finished name p inside).2⟩⟩

theorem isSealed_empty : empty.IsSealed := holds_empty

variable {r : Registry}

theorem IsSealed.reserve (h : r.IsSealed) (name : String) : (r.reserve name).IsSealed :=
  (Holds.reserve h name).mono fun _ inside f called => contains_reserve_of_contains (inside f called)

theorem IsSealed.complete (h : r.IsSealed) {p : Predicate}
    (called : ∀ f ∈ p.calls, r.contains f = true) : (r.complete p).IsSealed :=
  (Holds.complete h called).mono fun _ inside f called =>
    contains_complete_of_contains (inside f called)

theorem lookup_append_reserved (entries : List (String × Option Predicate)) (name other : String) :
    (entries ++ [(name, none)]).lookup other = some none →
      entries.lookup other = some none ∨ other = name := by
  induction entries with
  | nil =>
    intro found
    by_cases same : other = name
    · exact .inr same
    · simp [List.lookup_cons, beq_eq_false_iff_ne.2 same] at found
  | cons entry rest ih =>
    obtain ⟨key, p⟩ := entry
    rw [List.cons_append, List.lookup_cons, List.lookup_cons]
    cases other == key with
    | true => exact fun found => .inl found
    | false => exact ih

/-- Only the name that is reserved can become one without a predicate. -/
theorem pending_reserve {name other : String} (h : (r.reserve name).isPending other = true) :
    r.isPending other = true ∨ other = name := by
  unfold Registry.reserve at h
  split at h
  · exact .inl h
  · unfold isPending at h ⊢
    split at h
    · rename_i found
      obtain known | same := lookup_append_reserved r.entries name other found
      · rw [known]
        exact .inl rfl
      · exact .inr same
    · cases h

theorem lookup_completed (entries : List (String × Option Predicate)) (p : Predicate)
    (other : String) :
    (entries.map fun entry => if entry.1 == p.name then (p.name, some p) else entry).lookup other =
        some none → entries.lookup other = some none ∧ other ≠ p.name := by
  induction entries with
  | nil => exact nofun
  | cons entry rest ih =>
    obtain ⟨key, q⟩ := entry
    rw [List.map_cons]
    by_cases own : key = p.name
    · by_cases same : other = p.name
      · simp [own, same]
      · simpa [own, List.lookup_cons, beq_eq_false_iff_ne.2 same] using ih
    · simp only [beq_iff_eq, own, if_false]
      by_cases same : other = key
      · subst same
        simp only [List.lookup_cons, beq_self_eq_true]
        exact fun found => ⟨found, own⟩
      · simpa [List.lookup_cons, beq_eq_false_iff_ne.2 same] using ih

/-- The name of a completed predicate has one. -/
theorem pending_complete {p : Predicate} {other : String}
    (h : (r.complete p).isPending other = true) : r.isPending other = true ∧ other ≠ p.name := by
  unfold Registry.complete isPending at h
  dsimp only at h
  split at h
  · rename_i found
    obtain ⟨open_, different⟩ := lookup_completed (r.reserve p.name).entries p other found
    have reserved : (r.reserve p.name).isPending other = true := by
      unfold isPending
      rw [open_]
    exact ⟨(pending_reserve reserved).resolve_right different, different⟩
  · cases h

theorem contains_complete (r : Registry) (p : Predicate) : (r.complete p).contains p.name = true := by
  rw [contains_iff]
  obtain ⟨entry, listed, same⟩ := List.mem_map.1 (contains_iff.1 (r.contains_reserve p.name))
  unfold Registry.complete
  refine List.mem_map.2 ⟨_, List.mem_map.2 ⟨entry, listed, rfl⟩, ?_⟩
  simp [same]

end Registry

/-! ## Steps that seal -/

section
variable {α β : Type} {known : List String}

/-- From a sealed registry with the known names, the step leads to a sealed one that extends it and
has the names that its result uses. -/
def Seals (known : List String) (m : Build α) (uses : α → List String) : Prop :=
  ∀ r a r', Gives m r a r' → r.IsSealed → (∀ f ∈ known, r.contains f = true) →
    r'.IsSealed ∧ r.Extends r' ∧ ∀ f ∈ uses a, r'.contains f = true

/-- The names that one result uses. -/
abbrev usesName (name : String) : List String := [name]

/-- The names that several results use. -/
abbrev usesAll (uses : β → List String) (bs : List β) : List String := bs.flatMap uses

namespace Seals

variable {uses : α → List String} {uses' : β → List String}

theorem pure {a : α} (h : ∀ f ∈ uses a, f ∈ known) : Seals known (Pure.pure a) uses := by
  intro r b r' outcome sealed_ there
  obtain ⟨rfl, rfl⟩ := gives_pure.1 outcome
  exact ⟨sealed_, .refl r, fun f used => there f (h f used)⟩

theorem throw (e : CompileError) : Seals known (MonadExcept.throw e : Build α) uses :=
  fun _ _ _ outcome => absurd outcome gives_throw

theorem bind {m : Build α} {f : α → Build β} (first : Seals known m uses)
    (second : ∀ a, Seals (uses a ++ known) (f a) uses') : Seals known (m >>= f) uses' := by
  intro r b r' outcome sealed_ there
  obtain ⟨a, u, made, rest⟩ := gives_bind.1 outcome
  obtain ⟨between, extends_, used⟩ := first r a u made sealed_ there
  have thereToo : ∀ f ∈ uses a ++ known, u.contains f = true := by
    intro f inside
    rcases List.mem_append.1 inside with inside | inside
    · exact used f inside
    · exact extends_.names f (there f inside)
  obtain ⟨after, more, used'⟩ := second a u b r' rest between thereToo
  exact ⟨after, extends_.trans more, used'⟩

theorem mono {m : Build α} {uses₂ : α → List String} (h : Seals known m uses)
    (fewer : ∀ a, ∀ f ∈ uses₂ a, f ∈ uses a ++ known) : Seals known m uses₂ := by
  intro r a r' outcome sealed_ there
  obtain ⟨after, extends_, used⟩ := h r a r' outcome sealed_ there
  refine ⟨after, extends_, fun f inside => ?_⟩
  rcases List.mem_append.1 (fewer a f inside) with inside | inside
  · exact used f inside
  · exact extends_.names f (there f inside)

theorem get_bind {f : Registry → Build β} (h : ∀ r, Seals known (f r) uses') :
    Seals known (get >>= f) uses' := by
  intro r b r' outcome
  obtain ⟨_, _, found, rest⟩ := gives_bind.1 outcome
  obtain ⟨rfl, rfl⟩ := gives_get.1 found
  exact h r r b r' rest

theorem lift_bind {m : Except CompileError α} {f : α → Build β} (h : ∀ a, Seals known (f a) uses') :
    Seals known ((liftM m : Build α) >>= f) uses' := by
  cases m with
  | error e => exact .throw e
  | ok a => exact h a

/-- Steps for several items. -/
theorem mapM {f : α → Build β} (items : List α) (h : ∀ a ∈ items, ∀ known, Seals known (f a) uses') :
    Seals known (items.mapM f) (usesAll uses') := by
  induction items generalizing known with
  | nil => exact .pure nofun
  | cons a rest ih =>
    rw [List.mapM_cons]
    refine (h a (by simp) known).bind fun b => ?_
    refine (ih fun c hc => h c (by simp [hc])).bind fun bs => .pure fun f used => ?_
    rw [usesAll, List.flatMap_cons] at used
    rcases List.mem_append.1 used with used | used <;> simp [used]

/-- Steps for several items, of which some have no result. -/
theorem filterMapM {f : α → Build (Option β)} (items : List α)
    (h : ∀ a ∈ items, ∀ known, Seals known (f a) fun found => found.toList.flatMap uses') :
    Seals known (items.filterMapM f) (usesAll uses') := by
  induction items generalizing known with
  | nil => exact .pure nofun
  | cons a rest ih =>
    rw [List.filterMapM_cons]
    refine (h a (by simp) known).bind fun found => ?_
    have below (known : List String) := @ih known fun c hc => h c (by simp [hc])
    cases found with
    | none => exact below _
    | some b =>
      refine (below _).bind fun bs => .pure fun f used => ?_
      rw [usesAll, List.flatMap_cons] at used
      rcases List.mem_append.1 used with used | used <;> simp [used]

end Seals

end

/-! ## Building -/

namespace Build

variable {known : List String} {name : String} {reason : Option Reason}

/-- The name of a predicate may be used in its own body, and is there afterwards. -/
theorem ensure_seals {body : Build (List Stmt)} (h : Seals (name :: known) body Stmt.calls) :
    Seals known (ensure name reason body) usesName := by
  intro r a r' outcome sealed_ there
  obtain ⟨_, _, found, outcome⟩ := gives_bind.1 outcome
  obtain ⟨rfl, rfl⟩ := gives_get.1 found
  split at outcome
  · rename_i taken
    obtain ⟨rfl, rfl⟩ := gives_pure.1 outcome
    exact ⟨sealed_, .refl r, by simpa using taken⟩
  · obtain ⟨_, _, reserved, outcome⟩ := gives_bind.1 outcome
    obtain rfl := gives_modify.1 reserved
    obtain ⟨stmts, u, built, outcome⟩ := gives_bind.1 outcome
    obtain ⟨_, _, completed, outcome⟩ := gives_bind.1 outcome
    obtain rfl := gives_modify.1 completed
    obtain ⟨rfl, rfl⟩ := gives_pure.1 outcome
    have open_ : ∀ f ∈ name :: known, (r.reserve name).contains f = true := by
      intro f inside
      rcases List.mem_cons.1 inside with rfl | inside
      · exact r.contains_reserve f
      · exact Registry.contains_reserve_of_contains (there f inside)
    obtain ⟨between, extends_, used⟩ := h _ _ _ built (sealed_.reserve name) open_
    refine ⟨between.complete used, ⟨fun f inside => ?_, fun f pending => ?_⟩, ?_⟩
    · exact Registry.contains_complete_of_contains
        (extends_.names f (Registry.contains_reserve_of_contains inside))
    · obtain ⟨stillOpen, different⟩ := Registry.pending_complete pending
      exact (Registry.pending_reserve (extends_.pending f stillOpen)).resolve_right different
    · intro f same
      obtain rfl := List.mem_singleton.1 same
      exact Registry.contains_complete u _

theorem ensureExpr_seals {body : Build Expr} (h : Seals (name :: known) body Expr.calls) :
    Seals known (ensureExpr name reason body) usesName :=
  ensure_seals (h.bind fun e => .pure fun f used => by
    rw [Stmt.calls_result] at used
    simp [used])

theorem optional_seals {inner : String} (there : inner ∈ known) :
    Seals known (optional inner) usesName :=
  ensureExpr_seals (.pure fun f used => by
    have only : (Expr.or [.strictEq .parameter .undefined, .call inner .parameter]).calls = [inner] := rfl
    rw [only, List.mem_singleton] at used
    simp [used, there])

end Build

end ShapeCheck
