import Mathlib.Data.List.Nodup
import ShapeCheck.Proofs.Evaluation.Refinement

set_option autoImplicit false

/-! # Pruning

The names that `reachable` visits contain the root and are closed under calls. The search has a limit
on its steps, but it never runs into it: every step either drops a name that was seen or pays for the
callees that it hands on, and every predicate pays once (`pendingCalls`).

Main facts: `mem_reachable_root`, `mem_reachable_of_call`, and `Validator.invoke_prune_refines`
(pruning changes nothing for a name that is reached).
-/

namespace ShapeCheck

namespace Predicate

/-! ## The search -/

theorem visit_closed {next : String → List String} (weight : List String → Nat)
    (pays : ∀ name seen, name ∉ seen → weight (name :: seen) + (next name).length ≤ weight seen)
    (fuel : Nat) (pending seen : List String) (enough : pending.length + weight seen < fuel)
    (open_ : ∀ n ∈ seen, ∀ m ∈ next n, m ∈ seen ∨ m ∈ pending) :
    (∀ n ∈ seen, n ∈ visit next fuel pending seen) ∧
      (∀ n ∈ pending, n ∈ visit next fuel pending seen) ∧
        ∀ n ∈ visit next fuel pending seen, ∀ m ∈ next n, m ∈ visit next fuel pending seen := by
  induction fuel generalizing pending seen with
  | zero => omega
  | succ fuel ih =>
    cases pending with
    | nil =>
      refine ⟨fun _ h => h, by simp, fun n hn m hm => ?_⟩
      rcases open_ n hn m hm with h | h
      · exact h
      · simp at h
    | cons name rest =>
      unfold visit
      rw [List.length_cons] at enough
      split
      · rename_i known
        have known : name ∈ seen := by simpa using known
        obtain ⟨kept, reached, closed⟩ := ih rest seen (by omega) fun n hn m hm => by
          rcases open_ n hn m hm with h | h
          · exact .inl h
          · rcases List.mem_cons.1 h with rfl | h
            · exact .inl known
            · exact .inr h
        refine ⟨kept, ?_, closed⟩
        rintro n hn
        rcases List.mem_cons.1 hn with rfl | hn
        · exact kept n known
        · exact reached n hn
      · rename_i fresh
        have fresh : name ∉ seen := by simpa using fresh
        have paid := pays name seen fresh
        obtain ⟨kept, reached, closed⟩ := ih (next name ++ rest) (name :: seen)
          (by rw [List.length_append]; omega) fun n hn m hm => by
            rcases List.mem_cons.1 hn with rfl | hn
            · exact .inr (List.mem_append_left _ hm)
            · rcases open_ n hn m hm with h | h
              · exact .inl (List.mem_cons_of_mem _ h)
              · rcases List.mem_cons.1 h with rfl | h
                · exact .inl List.mem_cons_self
                · exact .inr (List.mem_append_right _ h)
        refine ⟨fun n hn => kept n (List.mem_cons_of_mem _ hn), ?_, closed⟩
        rintro n hn
        rcases List.mem_cons.1 hn with rfl | hn
        · exact kept n List.mem_cons_self
        · exact reached n (List.mem_append_right _ hn)

/-! ## Its cost -/

/-- The calls in predicates that are not seen yet. -/
def pendingCalls (seen : List String) : List Predicate → Nat
  | [] => 0
  | p :: rest => (if p.name ∈ seen then 0 else p.callees.length) + pendingCalls seen rest

theorem pendingCalls_cons (seen : List String) (p : Predicate) (rest : List Predicate) :
    pendingCalls seen (p :: rest) =
      (if p.name ∈ seen then 0 else p.callees.length) + pendingCalls seen rest := rfl

theorem pendingCalls_cons_le (name : String) (seen : List String) (predicates : List Predicate) :
    pendingCalls (name :: seen) predicates ≤ pendingCalls seen predicates := by
  induction predicates with
  | nil => exact Nat.le_refl _
  | cons p rest ih =>
    simp only [pendingCalls_cons, List.mem_cons]
    by_cases known : p.name ∈ seen
    · simpa [known] using ih
    · split <;> simp <;> omega

theorem pendingCalls_pays (predicates : List Predicate) (name : String) (seen : List String)
    (fresh : name ∉ seen) :
    pendingCalls (name :: seen) predicates + (calleesOf predicates name).length ≤
      pendingCalls seen predicates := by
  induction predicates with
  | nil => exact Nat.le_refl _
  | cons p rest ih =>
    by_cases same : p.name = name
    · subst same
      have := pendingCalls_cons_le p.name seen rest
      simp [pendingCalls_cons, calleesOf, fresh]
      omega
    · have others : calleesOf (p :: rest) name = calleesOf rest name := by
        simp [calleesOf, same]
      rw [others]
      simp only [pendingCalls_cons, List.mem_cons, same, false_or]
      omega

theorem foldl_callees (predicates : List Predicate) (start : Nat) :
    predicates.foldl (fun steps p => steps + p.callees.length) start =
      start + pendingCalls [] predicates := by
  induction predicates generalizing start with
  | nil => rfl
  | cons p rest ih =>
    simp only [List.foldl_cons, ih, pendingCalls_cons, List.not_mem_nil, if_false]
    omega

/-! ## What is reached -/

theorem reachable_closed (predicates : List Predicate) (root : String) :
    root ∈ reachable predicates root ∧
      ∀ n ∈ reachable predicates root, ∀ m ∈ calleesOf predicates n,
        m ∈ reachable predicates root := by
  unfold reachable
  rw [foldl_callees]
  obtain ⟨_, reached, closed⟩ := visit_closed (pendingCalls · predicates)
    (pendingCalls_pays predicates) (2 + pendingCalls [] predicates) [root] [] (by simp) (by simp)
  exact ⟨reached root (by simp), closed⟩

theorem mem_reachable_root (predicates : List Predicate) (root : String) :
    root ∈ reachable predicates root :=
  (reachable_closed predicates root).1

theorem mem_reachable_of_call {predicates : List Predicate} {root : String} {p : Predicate}
    (distinct : (predicates.map Predicate.name).Nodup) (inside : p ∈ predicates)
    (reached : p.name ∈ reachable predicates root) {f : String} (called : f ∈ p.calls) :
    f ∈ reachable predicates root := by
  refine (reachable_closed predicates root).2 p.name reached f ?_
  have found : predicates.find? (·.name == p.name) = some p := by
    cases h : predicates.find? (·.name == p.name) with
    | none => simpa using List.find?_eq_none.1 h p inside
    | some q =>
      have same : q.name = p.name := by simpa using List.find?_some h
      rw [List.inj_on_of_nodup_map distinct (List.mem_of_find?_eq_some h) inside same]
  simpa [calleesOf, found, callees] using called

end Predicate

/-! ## Predicates by name -/

namespace Validator

theorem predicate?_eq_some {v : Validator} {name : String} {p : Predicate}
    (h : v.predicate? name = some p) : p ∈ v.predicates ∧ p.name = name :=
  ⟨by simpa using List.mem_of_find?_eq_some h, by simpa using List.find?_some h⟩

theorem predicate?_of_mem {v : Validator} (distinct : (v.predicates.map Predicate.name).Nodup)
    {p : Predicate} (inside : p ∈ v.predicates) : v.predicate? p.name = some p := by
  cases h : v.predicate? p.name with
  | none =>
    have absent := List.find?_eq_none.1 h p (by simpa using inside)
    simp at absent
  | some q =>
    obtain ⟨here, same⟩ := predicate?_eq_some h
    rw [List.inj_on_of_nodup_map distinct here inside same]

theorem predicate?_prune {v : Validator} {root name : String}
    (distinct : (v.predicates.map Predicate.name).Nodup)
    (reached : name ∈ Predicate.reachable v.predicates root) :
    { v with predicates := Predicate.prune v.predicates root }.predicate? name =
      v.predicate? name := by
  have stillDistinct : ((Predicate.prune v.predicates root).map Predicate.name).Nodup :=
    distinct.sublist (List.filter_sublist.map _)
  cases h : v.predicate? name with
  | none =>
    refine List.find?_eq_none.2 fun p inside => ?_
    have inside : p ∈ Predicate.prune v.predicates root := by simpa using inside
    exact List.find?_eq_none.1 h p (by simpa using (Predicate.mem_prune.1 inside).1)
  | some p =>
    obtain ⟨here, rfl⟩ := predicate?_eq_some h
    exact predicate?_of_mem
      (v := { v with predicates := Predicate.prune v.predicates root }) stillDistinct
      (Predicate.mem_prune.2 ⟨here, reached⟩)

/-- Pruning changes nothing for a name that is reached. -/
theorem invoke_prune_refines {σ : Type} {observe : Observer σ} {v : Validator} {root : String}
    (distinct : (v.predicates.map Predicate.name).Nodup) (depth : Nat) :
    ∀ name, name ∈ Predicate.reachable v.predicates root → ∀ x,
      Refines (v.invoke observe depth name x)
        ({ v with predicates := Predicate.prune v.predicates root }.invoke observe depth name x) := by
  induction depth with
  | zero => exact fun name _ x => invoke_zero_refines _ name x _
  | succ depth ih =>
    intro name reached x
    rw [invoke_succ, invoke_succ, predicate?_prune distinct reached]
    cases h : v.predicate? name with
    | none => exact .refl _
    | some p =>
      obtain ⟨here, rfl⟩ := predicate?_eq_some h
      exact Predicate.run_refines_of_calls (fun f called y =>
        ih f (Predicate.mem_reachable_of_call distinct here reached called) y) x

end Validator

end ShapeCheck
