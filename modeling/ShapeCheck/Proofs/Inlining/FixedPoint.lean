import Mathlib.Logic.Relation
import ShapeCheck.Proofs.Inlining.Nesting
import ShapeCheck.Proofs.Inlining.Reports

set_option autoImplicit false

/-! # The fixed point of inlining

A round can leave more calls than it found, so counting calls does not bound the rounds. Two numbers
do: how many predicates are not trivial yet, and how deep calls of trivial ones are nested. A round
that makes no further predicate trivial takes a level from the second; one that does takes from the
first, and the second starts again at most at the depth of all calls, which no round raises.

Main fact: `inlineTrivial_reaches_fixedPoint` (the rounds end where no call of a trivial predicate is
left, pruning keeps exactly what the root calls from there, and a second pass changes nothing).
-/

namespace ShapeCheck

namespace Predicate

/-! ## Rounds as steps -/

/-- A round that has some call to write out. -/
def Round (predicates after : List Predicate) : Prop :=
  callsTrivial (trivialBodies predicates) predicates = true ∧
    after = predicates.map (inlineRound (trivialBodies predicates))

/-- What a round keeps of a predicate: all but its body. -/
def signature (p : Predicate) : String × String × Option Reason := (p.name, p.parameter, p.reason)

theorem signatures_round (trivial : List (String × TrivialBody)) (predicates : List Predicate) :
    (predicates.map (inlineRound trivial)).map signature = predicates.map signature := by
  simp [Function.comp_def, signature, inlineRound]

theorem signatures_of_rounds {predicates last : List Predicate}
    (run : Relation.ReflTransGen Round predicates last) :
    last.map signature = predicates.map signature := by
  induction run with
  | refl => rfl
  | tail _ step ih => rw [step.2, signatures_round, ih]

theorem inlineRounds_of_settled {predicates : List Predicate}
    (settled : callsTrivial (trivialBodies predicates) predicates = false) (fuel : Nat) :
    inlineRounds fuel predicates = predicates := by
  cases fuel with
  | zero => rfl
  | succ fuel => simp [inlineRounds, settled]

theorem inlineRounds_of_round {predicates : List Predicate}
    (goesOn : callsTrivial (trivialBodies predicates) predicates = true) (fuel : Nat) :
    inlineRounds (fuel + 1) predicates =
      inlineRounds fuel (predicates.map (inlineRound (trivialBodies predicates))) := by
  simp [inlineRounds, goesOn]

theorem rounds_inlineRounds (fuel : Nat) (predicates : List Predicate) :
    Relation.ReflTransGen Round predicates (inlineRounds fuel predicates) := by
  induction fuel generalizing predicates with
  | zero => exact .refl
  | succ fuel ih =>
    cases next : callsTrivial (trivialBodies predicates) predicates with
    | false =>
      rw [inlineRounds_of_settled next]
    | true =>
      rw [inlineRounds_of_round next]
      exact .head ⟨next, rfl⟩ (ih _)

/-! ## What a round does to trivial predicates -/

theorem exprs_inlineRound (trivial : List (String × TrivialBody)) (p : Predicate) :
    (p.inlineRound trivial).exprs = p.exprs.map (Expr.inlineCalls trivial) :=
  Stmt.exprsOfAll_mapAllExprs _ p.body

/-- A trivial predicate is without calls, so a round leaves it alone. -/
theorem inlineRound_of_isTrivial (trivial : List (String × TrivialBody)) {p : Predicate}
    (h : p.isTrivial = true) : p.inlineRound trivial = p := by
  obtain ⟨name, parameter, body, reason⟩ := p
  obtain ⟨e, rfl, noCalls, _⟩ := (isTrivial_iff _).1 h
  simp [inlineRound, Stmt.mapAllExprs, Stmt.mapExprs,
    Expr.inlineCalls_of_calls_eq_nil trivial e noCalls]

theorem trivialBody?_eq_none {p : Predicate} (h : p.isTrivial ≠ true) : p.trivialBody? = none := by
  simp [trivialBody?, h]

/-- Trivial predicates stay so, and others may join them. -/
theorem trivialBodies_sublist (trivial : List (String × TrivialBody))
    (predicates : List Predicate) :
    (trivialBodies predicates).Sublist
      (trivialBodies (predicates.map (inlineRound trivial))) := by
  induction predicates with
  | nil => exact .slnil
  | cons p rest ih =>
    by_cases h : p.isTrivial = true
    · rw [List.map_cons, inlineRound_of_isTrivial trivial h]
      unfold trivialBodies
      rw [List.filterMap_cons, List.filterMap_cons]
      cases p.trivialBody? with
      | none => exact ih
      | some body => exact ih.cons_cons _
    · have skipped : trivialBodies (p :: rest) = trivialBodies rest := by
        simp [trivialBodies, trivialBody?_eq_none h]
      rw [skipped]
      refine ih.trans ?_
      unfold trivialBodies
      rw [List.map_cons, List.filterMap_cons]
      split
      · exact .refl _
      · exact List.sublist_cons_self _ _

theorem length_trivialBodies_le (predicates : List Predicate) :
    (trivialBodies predicates).length ≤ predicates.length :=
  List.length_filterMap_le _ _

/-- Some trivial predicate has the name that is looked up. -/
theorem lookup_trivialBodies_isSome {predicates : List Predicate} {p : Predicate}
    (inside : p ∈ predicates) (h : p.isTrivial = true) :
    ((trivialBodies predicates).lookup p.name).isSome = true := by
  obtain ⟨e, body, _⟩ := (isTrivial_iff p).1 h
  have listed : (p.name, (⟨e, p.parameter, p.reason⟩ : TrivialBody)) ∈ trivialBodies predicates :=
    List.mem_filterMap.2 ⟨p, inside, by simp [trivialBody?, h, singleResult?, body]⟩
  rw [List.lookup_isSome_iff]
  exact ⟨_, listed, by simp⟩

/-! ## The measure -/

/-- Calls that count are nested at most this many times in the bodies. -/
def AllWithin (counts : String → Bool) (n : Nat) (predicates : List Predicate) : Prop :=
  ∀ p ∈ predicates, ∀ e ∈ p.exprs, e.WithinDepth counts n

/-- Calls of trivial predicates. -/
def callsOf (trivial : List (String × TrivialBody)) (f : String) : Bool := (trivial.lookup f).isSome

theorem callsTrivial_eq_false_iff (trivial : List (String × TrivialBody))
    (predicates : List Predicate) :
    callsTrivial trivial predicates = false ↔
      ∀ p ∈ predicates, ∀ e ∈ p.exprs, ∀ part ∈ e.nodes,
        part.callee?.any (callsOf trivial) = false := by
  simp only [callsTrivial, Expr.somePart_eq, List.any_eq_false, Bool.not_eq_true]
  exact Iff.rfl

theorem settled_of_allWithin_zero {trivial : List (String × TrivialBody)}
    {predicates : List Predicate} (h : AllWithin (callsOf trivial) 0 predicates) :
    callsTrivial trivial predicates = false :=
  (callsTrivial_eq_false_iff trivial predicates).2 fun p inside e listed =>
    (h p inside e listed).calls_of_zero

theorem allWithin_round {counts : String → Bool} {n : Nat} {predicates : List Predicate}
    {trivial : List (String × TrivialBody)}
    (h : ∀ p ∈ predicates, ∀ e ∈ p.exprs, (e.inlineCalls trivial).WithinDepth counts n) :
    AllWithin counts n (predicates.map (inlineRound trivial)) := by
  intro q inside e listed
  obtain ⟨p, here, rfl⟩ := List.mem_map.1 inside
  rw [exprs_inlineRound] at listed
  obtain ⟨e, written, rfl⟩ := List.mem_map.1 listed
  exact h p here e written

theorem AllWithin.round {counts : String → Bool} {n : Nat} {predicates : List Predicate}
    (h : AllWithin counts n predicates) :
    AllWithin counts n (predicates.map (inlineRound (trivialBodies predicates))) :=
  allWithin_round fun p inside e listed =>
    (h p inside e listed).inlineCalls (areTrivial_trivialBodies predicates)

theorem AllWithin.round_trivial {n : Nat} {predicates : List Predicate}
    (h : AllWithin (callsOf (trivialBodies predicates)) (n + 1) predicates) :
    AllWithin (callsOf (trivialBodies predicates)) n
      (predicates.map (inlineRound (trivialBodies predicates))) :=
  allWithin_round fun p inside e listed =>
    Expr.WithinDepth.inlineCalls_trivial (areTrivial_trivialBodies predicates) e
      (h p inside e listed)

/-- The rounds end: with a bound on the depth of all calls, they are paid for by the predicates that
are not trivial yet and by the depth of the calls of those that are. -/
theorem settled_inlineRounds {bound : Nat} (fuel : Nat) :
    ∀ (predicates : List Predicate) (n : Nat), AllWithin (fun _ => true) bound predicates →
      AllWithin (callsOf (trivialBodies predicates)) n predicates → n ≤ bound →
      (predicates.length - (trivialBodies predicates).length) * (bound + 1) + n < fuel →
      callsTrivial (trivialBodies (inlineRounds fuel predicates)) (inlineRounds fuel predicates)
        = false := by
  induction fuel with
  | zero => intro _ _ _ _ _ enough; omega
  | succ fuel ih =>
    intro predicates n all within le enough
    cases next : callsTrivial (trivialBodies predicates) predicates with
    | false => rwa [inlineRounds_of_settled next]
    | true =>
      rw [inlineRounds_of_round next]
      set after := predicates.map (inlineRound (trivialBodies predicates)) with made
      have same : after.length = predicates.length := List.length_map _
      have grows := trivialBodies_sublist (trivialBodies predicates) predicates
      rw [← made] at grows
      have longer := grows.length_le
      have fits := length_trivialBodies_le after
      obtain _ | n := n
      · rw [settled_of_allWithin_zero within] at next
        cases next
      by_cases further : (trivialBodies predicates).length = (trivialBodies after).length
      · -- the same predicates are trivial, and their calls have lost a level
        have unchanged := grows.eq_of_length further
        refine ih after n all.round ?_ (by omega) (by rw [same, ← unchanged]; omega)
        rw [← unchanged]
        exact within.round_trivial
      · -- a further predicate is trivial, which pays for all levels
        have pays : (after.length - (trivialBodies after).length + 1) * (bound + 1) ≤
            (predicates.length - (trivialBodies predicates).length) * (bound + 1) :=
          Nat.mul_le_mul_right _ (by omega)
        rw [Nat.add_mul] at pays
        refine ih after bound all.round ?_ (Nat.le_refl _) (by omega)
        exact fun p inside e listed => (all.round p inside e listed).of_counts fun _ _ => rfl

theorem allWithin_callDepth (predicates : List Predicate) :
    AllWithin (fun _ => true) (Expr.callDepthOfAll (predicates.flatMap Predicate.exprs))
      predicates := fun p inside e listed =>
  (Expr.WithinDepth.callDepth e).mono
    (Expr.WithinDepth.callDepth_le_callDepthOfAll (List.mem_flatMap.2 ⟨p, inside, listed⟩))

/-- The limit on the number of rounds is never what ends them. -/
theorem settled_roundLimit (predicates : List Predicate) :
    callsTrivial (trivialBodies (inlineRounds (roundLimit predicates) predicates))
      (inlineRounds (roundLimit predicates) predicates) = false := by
  have all := allWithin_callDepth predicates
  refine settled_inlineRounds _ predicates _ all
    (fun p inside e listed => (all p inside e listed).of_counts fun _ _ => rfl) (Nat.le_refl _) ?_
  have fewer : (predicates.length - (trivialBodies predicates).length) *
      (Expr.callDepthOfAll (predicates.flatMap Predicate.exprs) + 1) ≤
      predicates.length * (Expr.callDepthOfAll (predicates.flatMap Predicate.exprs) + 1) :=
    Nat.mul_le_mul_right _ (Nat.sub_le _ _)
  simp only [roundLimit, Nat.add_mul] at fewer ⊢
  omega

/-! ## What pruning keeps -/

/-- One predicate calls another. -/
def Calls (predicates : List Predicate) (f g : String) : Prop :=
  ∃ p ∈ predicates, p.name = f ∧ g ∈ p.calls

theorem calls_of_mem_calleesOf {predicates : List Predicate} {f g : String}
    (h : g ∈ calleesOf predicates f) : Calls predicates f g := by
  unfold calleesOf at h
  split at h
  · rename_i p found
    refine ⟨p, List.mem_of_find?_eq_some found, by simpa using List.find?_some found, ?_⟩
    simpa [callees] using h
  · cases h

/-- A visit goes nowhere but where calls lead. -/
theorem visit_sound {next : String → List String} (fuel : Nat) :
    ∀ (pending seen : List String) (n : String), n ∈ visit next fuel pending seen →
      n ∈ seen ∨ ∃ m ∈ pending, Relation.ReflTransGen (fun f g => g ∈ next f) m n := by
  induction fuel with
  | zero => exact fun _ _ _ h => .inl h
  | succ fuel ih =>
    intro pending seen n h
    cases pending with
    | nil => exact .inl h
    | cons name rest =>
      simp only [visit] at h
      split at h
      · rcases ih rest seen n h with h | ⟨m, hm, path⟩
        · exact .inl h
        · exact .inr ⟨m, List.mem_cons_of_mem _ hm, path⟩
      · rcases ih _ _ n h with h | ⟨m, hm, path⟩
        · rcases List.mem_cons.1 h with rfl | h
          · exact .inr ⟨n, List.mem_cons_self, .refl⟩
          · exact .inl h
        · rcases List.mem_append.1 hm with hm | hm
          · exact .inr ⟨name, List.mem_cons_self, .head hm path⟩
          · exact .inr ⟨m, List.mem_cons_of_mem _ hm, path⟩

/-- The names that are visited are those that calls lead to. -/
theorem mem_reachable_iff {predicates : List Predicate}
    (distinct : (predicates.map Predicate.name).Nodup) {root name : String} :
    name ∈ reachable predicates root ↔
      Relation.ReflTransGen (Calls predicates) root name := by
  constructor
  · intro h
    rcases visit_sound _ _ _ _ h with h | ⟨m, hm, path⟩
    · cases h
    · obtain rfl := List.mem_singleton.1 hm
      exact Relation.ReflTransGen.mono (fun _ _ => calls_of_mem_calleesOf) _ _ path
  · intro path
    induction path with
    | refl => exact mem_reachable_root predicates root
    | tail _ step ih =>
      obtain ⟨p, inside, rfl, called⟩ := step
      exact mem_reachable_of_call distinct inside ih called

/-- What calls lead to, they lead to without the predicates that are dropped. -/
theorem reaches_prune {predicates : List Predicate}
    (distinct : (predicates.map Predicate.name).Nodup) {root name : String}
    (path : Relation.ReflTransGen (Calls predicates) root name) :
    Relation.ReflTransGen (Calls (prune predicates root)) root name := by
  induction path with
  | refl => exact .refl
  | tail before step ih =>
    obtain ⟨p, inside, rfl, called⟩ := step
    exact ih.tail ⟨p, mem_prune.2 ⟨inside, (mem_reachable_iff distinct).2 before⟩, rfl, called⟩

theorem prune_prune {predicates : List Predicate}
    (distinct : (predicates.map Predicate.name).Nodup) (root : String) :
    prune (prune predicates root) root = prune predicates root := by
  have stillDistinct : ((prune predicates root).map Predicate.name).Nodup :=
    distinct.sublist (List.filter_sublist.map _)
  refine List.filter_eq_self.2 fun p inside => ?_
  have path := (mem_reachable_iff distinct).1 (mem_prune.1 inside).2
  simpa using (mem_reachable_iff stillDistinct).2 (reaches_prune distinct path)

theorem callsTrivial_prune {predicates : List Predicate}
    (settled : callsTrivial (trivialBodies predicates) predicates = false) (root : String) :
    callsTrivial (trivialBodies (prune predicates root)) (prune predicates root) = false := by
  rw [callsTrivial_eq_false_iff] at settled ⊢
  intro p inside e listed part here
  have outside := settled p (mem_prune.1 inside).1 e listed part here
  cases called : part.callee? with
  | none => rfl
  | some f =>
    simp only [called, Option.any_some, callsOf, Option.isSome_eq_false_iff,
      Option.isNone_iff_eq_none] at outside ⊢
    -- a predicate that is trivial after pruning is one of those before
    by_contra known
    obtain ⟨callee, known⟩ := Option.ne_none_iff_exists'.1 known
    obtain ⟨q, kept, rfl, found⟩ := lookup_trivialBodies known
    have trivial : q.isTrivial = true := by
      by_contra h
      simp [trivialBody?_eq_none h] at found
    have known := lookup_trivialBodies_isSome (mem_prune.1 kept).1 trivial
    simp [outside] at known

/-- Where no round has anything to do, no body calls a trivial predicate. -/
theorem not_mem_calls_of_settled {predicates : List Predicate}
    (settled : callsTrivial (trivialBodies predicates) predicates = false) {p q : Predicate}
    (hp : p ∈ predicates) (hq : q ∈ predicates) (trivial : q.isTrivial = true) :
    q.name ∉ p.calls := by
  intro called
  obtain ⟨e, listed, called⟩ := List.mem_flatMap.1 called
  obtain ⟨part, inside, calls⟩ := List.mem_filterMap.1 called
  have none := (callsTrivial_eq_false_iff _ _).1 settled p hp e listed part inside
  simp [calls, callsOf, lookup_trivialBodies_isSome hq trivial] at none

/-! ## The whole pass -/

/-- The pass reaches a fixed point and prunes exactly. Its rounds end, at predicates with the same
names, parameters and reasons in the same order; of these it keeps those that the root leads to
through the calls that are left; no body that it keeps calls a trivial one; and a second pass changes
nothing. -/
theorem inlineTrivial_reaches_fixedPoint {predicates : List Predicate}
    (distinct : (predicates.map Predicate.name).Nodup) (root : String) :
    ∃ last, Relation.ReflTransGen Round predicates last ∧ (∀ next, ¬ Round last next) ∧
      last.map signature = predicates.map signature ∧
      (inlineTrivial predicates root).Sublist last ∧
      (∀ p, p ∈ inlineTrivial predicates root ↔
        p ∈ last ∧ Relation.ReflTransGen (Calls last) root p.name) ∧
      (∀ p ∈ inlineTrivial predicates root, ∀ q ∈ inlineTrivial predicates root,
        q.isTrivial = true → q.name ∉ p.calls) ∧
      inlineTrivial (inlineTrivial predicates root) root = inlineTrivial predicates root := by
  have settled := settled_roundLimit predicates
  have run := rounds_inlineRounds (roundLimit predicates) predicates
  have names := Validator.names_inlineRounds (roundLimit predicates) predicates
  unfold inlineTrivial
  set last := inlineRounds (roundLimit predicates) predicates
  have stillDistinct : (last.map Predicate.name).Nodup := by rwa [names]
  have pruned := callsTrivial_prune settled root
  refine ⟨last, run, fun next step => ?_, signatures_of_rounds run, List.filter_sublist,
    fun p => ?_, fun p hp q hq => not_mem_calls_of_settled pruned hp hq, ?_⟩
  · rw [step.1] at settled
    cases settled
  · rw [mem_prune, mem_reachable_iff stillDistinct]
  · rw [inlineRounds_of_settled pruned]
    exact prune_prune stillDistinct root

/-- A predicate that uses its parameter twice, called on a nested call, in one that calls itself. -/
def doublingCalls : List Predicate :=
  [⟨"root", "object", [.ifThen (.call "both" (.call "both" (.call "text" (.var "object"))))
      [.result (.call "root" (.call "held" (.var "object")))]], none⟩,
    ⟨"both", "x", [.result (.and [.var "x", .not (.var "x")])], none⟩,
    ⟨"text", "object", [.result (.typeOfIs .parameter "string")], some .string⟩,
    ⟨"held", "object", [.result (.call "both" .parameter)], none⟩,
    ⟨"loose", "object", [.result (.call "root" .parameter)], none⟩]

theorem inlineTrivial_reaches_fixedPoint_doublingCalls :
    (inlineTrivial doublingCalls "root").map Predicate.name = ["root"] ∧
    ∃ last, Relation.ReflTransGen Round doublingCalls last ∧ (∀ next, ¬ Round last next) ∧
      last.map signature = doublingCalls.map signature ∧
      (inlineTrivial doublingCalls "root").Sublist last ∧
      (∀ p, p ∈ inlineTrivial doublingCalls "root" ↔
        p ∈ last ∧ Relation.ReflTransGen (Calls last) "root" p.name) ∧
      (∀ p ∈ inlineTrivial doublingCalls "root", ∀ q ∈ inlineTrivial doublingCalls "root",
        q.isTrivial = true → q.name ∉ p.calls) ∧
      inlineTrivial (inlineTrivial doublingCalls "root") "root" =
        inlineTrivial doublingCalls "root" := by
  have distinct : (doublingCalls.map Predicate.name).Nodup := by decide
  exact ⟨by rfl, inlineTrivial_reaches_fixedPoint distinct "root"⟩

end Predicate

end ShapeCheck
