import ShapeCheck.Compile.Composite
import ShapeCheck.Proofs.Keeps

set_option autoImplicit false

/-! # What a compilation keeps

A compilation only ever adds to its registry, one name at a time. If every predicate is good when it
is completed, then at each moment all finished predicates are good.

Main facts: `Build.ensure_keeps` (it is enough to look at the body that is built) and
`Registry.Holds.distinct_predicates` (no name is used for two predicates).
-/

namespace ShapeCheck

section
variable {α β : Type} {I : Registry → Prop} {Q : α → Prop} {Q' : β → Prop}

/-- A result that needs no registry. -/
theorem Keeps.lift {m : Except CompileError α} (h : ∀ a, m = .ok a → Q a) :
    Keeps I (liftM m : Build α) Q := by
  cases m with
  | error e => exact .throw e
  | ok a => exact .pure (h a rfl)

theorem Keeps.lift_bind {m : Except CompileError α} {f : α → Build β}
    (h : ∀ a, m = .ok a → Keeps I (f a) Q') : Keeps I ((liftM m : Build α) >>= f) Q' :=
  (lift fun _ made => made).bind h

/-- A result that needs no registry, and what follows. -/
theorem Build.gives_lift_bind {m : Except CompileError α} {f : α → Build β} {r r' : Registry} {b : β} :
    Gives ((liftM m : Build α) >>= f) r b r' ↔ ∃ a, m = .ok a ∧ Gives (f a) r b r' := by
  cases m with
  | error e => exact iff_of_false gives_throw fun ⟨a, made, _⟩ => by cases made
  | ok a =>
    rw [Build.liftM_ok, pure_bind]
    exact ⟨fun outcome => ⟨a, rfl, outcome⟩, fun ⟨_, made, outcome⟩ => Except.ok.inj made ▸ outcome⟩

end

/-! ## Registries -/

theorem Predicate.isAlwaysTrue_iff {p : Predicate} :
    p.isAlwaysTrue = true ↔ p.body = [.result (.bool true)] := by
  unfold isAlwaysTrue singleResult?
  constructor
  · intro always
    split at always
    · rename_i e single
      split at single
      · rename_i e' body
        obtain rfl := Option.some.inj single
        cases e' with
        | bool b =>
          obtain rfl : b = true := always
          exact body
        | _ => cases always
      · cases single
    · cases always
  · intro body
    rw [body]
    rfl

namespace Registry

/-- No name stands twice, and the finished predicates are good and stand under their own names. -/
structure Holds (Good : Predicate → Prop) (r : Registry) : Prop where
  distinct : (r.entries.map Prod.fst).Nodup
  finished : ∀ name p, (name, some p) ∈ r.entries → p.name = name ∧ Good p

variable {Good : Predicate → Prop} {r : Registry}

theorem holds_empty : Holds Good empty :=
  ⟨List.nodup_nil, fun _ _ h => absurd h (by simp [empty])⟩

theorem contains_iff {name : String} : r.contains name = true ↔ name ∈ r.entries.map Prod.fst := by
  simp [contains]

theorem contains_reserve_of_contains {name other : String}
    (h : r.contains other = true) : (r.reserve name).contains other = true := by
  unfold Registry.reserve
  split
  · exact h
  · simp only [contains, List.any_append, Bool.or_eq_true]
    exact .inl h

theorem contains_complete_of_contains {p : Predicate} {other : String}
    (h : r.contains other = true) : (r.complete p).contains other = true := by
  have reserved : (r.reserve p.name).contains other = true := contains_reserve_of_contains h
  simp only [Registry.contains, List.any_eq_true] at reserved
  obtain ⟨entry, inside, same⟩ := reserved
  simp only [Registry.complete, Registry.contains, List.any_map, List.any_eq_true]
  refine ⟨entry, inside, ?_⟩
  by_cases own : entry.1 = p.name
  · simpa [own] using same
  · simpa [own] using same

theorem Holds.reserve (h : r.Holds Good) (name : String) : (r.reserve name).Holds Good := by
  unfold Registry.reserve
  split
  · exact h
  · rename_i fresh
    rw [contains_iff] at fresh
    refine ⟨?_, fun other p inside => h.finished other p (by simpa using inside)⟩
    simp only [List.map_append, List.map_cons, List.map_nil]
    refine List.nodup_append.2 ⟨h.distinct, by simp, fun a ha b hb => ?_⟩
    obtain rfl : b = name := by simpa using hb
    rintro rfl
    exact fresh ha

theorem Holds.complete (h : r.Holds Good) {p : Predicate} (good : Good p) :
    (r.complete p).Holds Good := by
  have reserved := h.reserve p.name
  unfold Registry.complete
  refine ⟨?_, fun name q inside => ?_⟩
  · have names : ((r.reserve p.name).entries.map
        fun entry => if entry.1 == p.name then (p.name, some p) else entry).map Prod.fst =
          (r.reserve p.name).entries.map Prod.fst := by
      rw [List.map_map]
      refine List.map_congr_left fun entry _ => ?_
      by_cases same : entry.1 = p.name <;> simp [same]
    rw [names]
    exact reserved.distinct
  · obtain ⟨entry, listed, made⟩ := List.mem_map.1 inside
    by_cases same : entry.1 = p.name
    · simp only [same, beq_self_eq_true, if_true, Prod.mk.injEq, Option.some.injEq] at made
      obtain ⟨rfl, rfl⟩ := made
      exact ⟨rfl, good⟩
    · simp only [same, beq_iff_eq, if_false] at made
      exact reserved.finished name q (made ▸ listed)

theorem Holds.good (h : r.Holds Good) {p : Predicate} (inside : p ∈ r.predicates) : Good p := by
  obtain ⟨⟨name, found⟩, listed, rfl⟩ := List.mem_filterMap.1 inside
  exact (h.finished name p listed).2

/-- The finished predicates have different names. -/
theorem Holds.distinct_predicates (h : r.Holds Good) : (r.predicates.map Predicate.name).Nodup := by
  have aux : ∀ entries : List (String × Option Predicate),
      (∀ name p, (name, some p) ∈ entries → p.name = name) →
        ((entries.filterMap Prod.snd).map Predicate.name).Sublist (entries.map Prod.fst) := by
    intro entries named
    induction entries with
    | nil => exact .slnil
    | cons entry rest ih =>
      have below := ih fun name p inside => named name p (by simp [inside])
      obtain ⟨name, found⟩ := entry
      cases found with
      | none => exact below.cons _
      | some p =>
        obtain rfl := named name p (by simp)
        exact below.cons_cons _
  exact (aux r.entries fun name p inside => (h.finished name p inside).1).nodup h.distinct

/-- A finished predicate of this name, if the check for it finds one. -/
theorem Holds.of_isAlwaysTrue (h : r.Holds Good) {name : String}
    (always : r.isAlwaysTrue name = true) :
    ∃ p, p.name = name ∧ Good p ∧ p.isAlwaysTrue = true := by
  unfold isAlwaysTrue get? at always
  cases found : r.entries.lookup name with
  | none => simp [found] at always
  | some entry =>
    cases entry with
    | none => simp [found] at always
    | some p =>
      obtain ⟨before, after, split, -⟩ := List.lookup_eq_some_iff.1 found
      obtain ⟨same, good⟩ := h.finished name p (by simp [split])
      exact ⟨p, same, good, by simpa [found] using always⟩

end Registry

/-! ## Building predicates -/

namespace Build

variable {Good : Predicate → Prop} {name : String} {reason : Option Reason}

/-- Building a predicate keeps the finished predicates good if its body is good. -/
theorem ensure_keeps {body : Build (List Stmt)}
    (built : Keeps (Registry.Holds Good) body fun stmts =>
      Good ⟨name, Expr.parameterName, stmts, reason⟩) :
    Keeps (Registry.Holds Good) (ensure name reason body) (· = name) := by
  unfold ensure
  refine Keeps.get_bind fun r holds => ?_
  split
  · exact .pure rfl
  · refine (Keeps.update fun r holds => holds.reserve name).bind fun _ _ => ?_
    refine built.bind fun stmts good => ?_
    refine (Keeps.update fun r holds => holds.complete good).bind fun _ _ => ?_
    exact .pure rfl

end Build

end ShapeCheck
