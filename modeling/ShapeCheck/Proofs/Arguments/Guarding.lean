import ShapeCheck.Proofs.Arguments.Search
import ShapeCheck.Proofs.Evaluation.Observers

set_option autoImplicit false

/-! # Guards as a map from positions

Setting a guard keeps guards in order, so all guards that are made by setting one after the other are. Of what
has been set, they remember the last validator for each position, and nothing else. A check asks the validators
from the lowest position on and stops at the first that rejects its argument.

Main facts: `Guards.IsAscending.set` and `Guards.find?_set` (one guard), `Guards.find?_setAll` (all of them)
and `Guards.setAll_guards` (what the guards of a function do).
-/

namespace ShapeCheck

namespace Guards

variable {guards : Guards}

/-! ## Guards in order -/

theorem isAscending_empty : empty.IsAscending := List.Pairwise.nil

theorem IsAscending.set (h : guards.IsAscending) (position : Nat) (v : Validator) :
    (guards.set position v).IsAscending := by
  obtain ⟨before, old, after, split, lower, -, higher, made⟩ := exists_set_eq h position v
  have rest : (before ++ after).Pairwise fun a b => a.1 < b.1 := by
    rw [IsAscending, split] at h
    exact h.sublist ((List.sublist_append_left before old).append (.refl after))
  rw [made]
  rw [List.pairwise_append] at rest
  refine List.pairwise_append.2 ⟨rest.1, List.pairwise_cons.2 ⟨higher, rest.2.1⟩, fun a inside b behind => ?_⟩
  rcases List.mem_cons.1 behind with rfl | behind
  · exact lower a inside
  · exact rest.2.2 a inside b behind

theorem IsAscending.setAll (h : guards.IsAscending) (calls : List (Nat × Validator)) :
    (guards.setAll calls).IsAscending := by
  induction calls generalizing guards with
  | nil => exact h
  | cons call rest ih => exact ih (h.set call.1 call.2)

/-! ## What guards remember -/

/-- In order, what is found for a position is what is there. -/
theorem IsAscending.find?_eq_some_iff (h : guards.IsAscending) (position : Nat) (v : Validator) :
    guards.find? position = some v ↔ (position, v) ∈ guards.entries := by
  rw [find?, List.lookup_eq_some_iff]
  constructor
  · rintro ⟨before, after, split, -⟩
    rw [split]
    simp
  · intro inside
    obtain ⟨before, after, split⟩ := List.append_of_mem inside
    rw [IsAscending, split, List.pairwise_append] at h
    refine ⟨before, after, split, fun entry listed => ?_⟩
    have less := h.2.2 entry listed (position, v) List.mem_cons_self
    simpa using Nat.ne_of_gt less

/-- Setting a guard changes what is found for its position, and for no other one. -/
theorem find?_set (h : guards.IsAscending) (position : Nat) (v : Validator) (other : Nat) :
    (guards.set position v).find? other = if other = position then some v else guards.find? other := by
  obtain ⟨before, old, after, split, lower, same, higher, made⟩ := exists_set_eq h position v
  have absent {entries : List (Nat × Validator)} {p : Nat} (ne : ∀ entry ∈ entries, entry.1 ≠ p) :
      entries.lookup p = none :=
    List.lookup_eq_none_iff.2 fun entry listed => bne_iff_ne.2 (ne entry listed).symm
  rw [made, find?, find?, split]
  split
  · rename_i here
    rw [here, List.lookup_append, absent fun entry listed => Nat.ne_of_lt (lower entry listed)]
    simp
  · rename_i elsewhere
    have gone : old.lookup other = none :=
      absent fun entry listed => same entry listed ▸ Ne.symm elsewhere
    rw [List.lookup_append, List.lookup_append, List.lookup_append, List.lookup_cons,
      beq_eq_false_iff_ne.2 elsewhere, gone, Option.or_none]

/-- The validator that is given last for a position. -/
def givenLast? (calls : List (Nat × Validator)) (position : Nat) : Option Validator :=
  calls.reverse.lookup position

theorem givenLast?_cons (call : Nat × Validator) (rest : List (Nat × Validator)) (position : Nat) :
    givenLast? (call :: rest) position =
      (givenLast? rest position).or (if position = call.1 then some call.2 else none) := by
  obtain ⟨p, v⟩ := call
  rw [givenLast?, List.reverse_cons, List.lookup_append, List.lookup_cons, givenLast?]
  by_cases here : position = p
  · simp [here]
  · simp [beq_eq_false_iff_ne.2 here, here]

/-- Setting guards one after the other changes what is found where one is given. -/
theorem find?_setAll (h : guards.IsAscending) (calls : List (Nat × Validator)) (position : Nat) :
    (guards.setAll calls).find? position = (givenLast? calls position).or (guards.find? position) := by
  induction calls generalizing guards with
  | nil => rfl
  | cons call rest ih =>
    show ((guards.set call.1 call.2).setAll rest).find? position = _
    rw [ih (h.set _ _), find?_set h, givenLast?_cons, Option.or_assoc]
    split <;> rfl

/-- Guards in order are known by what is found for each position. -/
theorem IsAscending.eq_of_find?_eq {guards' : Guards} (h : guards.IsAscending) (h' : guards'.IsAscending)
    (same : ∀ position, guards.find? position = guards'.find? position) : guards = guards' := by
  have distinct {guards : Guards} (h : guards.IsAscending) : guards.entries.Nodup := by
    refine List.Pairwise.imp ?_ h
    rintro entry _ less rfl
    exact Nat.lt_irrefl _ less
  have members (entry : Nat × Validator) : entry ∈ guards.entries ↔ entry ∈ guards'.entries := by
    rw [← h.find?_eq_some_iff, ← h'.find?_eq_some_iff, same]
  have listed := (List.perm_ext_iff_of_nodup (distinct h) (distinct h')).2 members
  have entries : guards.entries = guards'.entries :=
    listed.eq_of_pairwise (fun a b _ _ less more => absurd more (Nat.lt_asymm less)) h h'
  cases guards
  cases guards'
  exact congrArg Guards.mk entries

/-! ## Rearranged calls -/

/-- The same calls, where those for different positions may have changed places. -/
inductive Rearranges : List (Nat × Validator) → List (Nat × Validator) → Prop
  | nil : Rearranges [] []
  | cons (call : Nat × Validator) {calls calls' : List (Nat × Validator)} (rest : Rearranges calls calls') :
      Rearranges (call :: calls) (call :: calls')
  | swap {call call' : Nat × Validator} (other : call.1 ≠ call'.1) (rest : List (Nat × Validator)) :
      Rearranges (call :: call' :: rest) (call' :: call :: rest)
  | trans {calls calls' calls'' : List (Nat × Validator)} (first : Rearranges calls calls')
      (second : Rearranges calls' calls'') : Rearranges calls calls''

theorem Rearranges.givenLast?_eq {calls calls' : List (Nat × Validator)} (h : Rearranges calls calls')
    (position : Nat) : givenLast? calls position = givenLast? calls' position := by
  induction h with
  | nil => rfl
  | cons call _ ih => rw [givenLast?_cons, givenLast?_cons, ih]
  | @swap call call' other rest =>
    simp only [givenLast?_cons, Option.or_assoc]
    congr 1
    -- the position is that of one of the two calls at most
    by_cases here : position = call.1
    · simp [here, other]
    · simp [here]
  | trans _ _ ih ih' => exact ih.trans ih'

/-! ## Checking -/

/-- The report accepts what the plain check accepts. -/
theorem check_validator_eq_ok_iff (v : Validator) (value : Value) :
    v.check value = .ok () ↔ v.accepts value = true := by
  have same := v.evaluate_fst Diagnosis.observe .start value
  unfold Validator.accepts Validator.check
  rw [← same]
  rcases v.evaluate Diagnosis.observe .start value with ⟨(_ | _) | (_ | _), d⟩ <;> simp

section
variable (arguments : List Value)

theorem check_cons (entry : Nat × Validator) (rest : List (Nat × Validator)) :
    check ⟨entry :: rest⟩ arguments =
      match entry.2.check (argument arguments entry.1) with
      | .ok () => check ⟨rest⟩ arguments
      | .error failure => .error ⟨entry.1, failure⟩ := by
  obtain ⟨position, v⟩ := entry
  unfold check
  rw [List.forM_eq_forM, List.forM_cons]
  dsimp only
  cases v.check (argument arguments position) <;> rfl

theorem check_eq_ok_iff : guards.check arguments = .ok () ↔
    ∀ entry ∈ guards.entries, entry.2.check (argument arguments entry.1) = .ok () := by
  obtain ⟨entries⟩ := guards
  induction entries with
  | nil => exact iff_of_true rfl (List.forall_mem_nil _)
  | cons entry rest ih =>
    rw [check_cons, List.forall_mem_cons]
    cases passed : entry.2.check (argument arguments entry.1) with
    | ok => simp [ih]
    | error failure => simp

/-- The failure that is reported is the one at the lowest position. -/
theorem IsAscending.check_eq_error_iff (h : guards.IsAscending) (failure : ArgumentFailure) :
    guards.check arguments = .error failure ↔
      ∃ v, (failure.position, v) ∈ guards.entries ∧
        v.check (argument arguments failure.position) = .error failure.failure ∧
        ∀ entry ∈ guards.entries, entry.1 < failure.position →
          entry.2.check (argument arguments entry.1) = .ok () := by
  obtain ⟨entries⟩ := guards
  induction entries with
  | nil =>
    refine iff_of_false ?_ ?_
    · exact fun reported => nomatch reported
    · rintro ⟨v, inside, -⟩
      cases inside
  | cons entry rest ih =>
    obtain ⟨above, ascending⟩ := List.pairwise_cons.1 h
    rw [check_cons]
    cases checked : entry.2.check (argument arguments entry.1) with
    | ok =>
      dsimp only
      rw [ih ascending]
      refine exists_congr fun v => ⟨?_, ?_⟩
      · rintro ⟨inside, rejected, lower⟩
        exact ⟨List.mem_cons_of_mem _ inside, rejected, List.forall_mem_cons.2 ⟨fun _ => checked, lower⟩⟩
      · rintro ⟨inside, rejected, lower⟩
        refine ⟨(List.mem_cons.1 inside).resolve_left ?_, rejected, (List.forall_mem_cons.1 lower).2⟩
        rintro rfl
        rw [checked] at rejected
        cases rejected
    | error first =>
      constructor
      · rintro ⟨⟩
        refine ⟨entry.2, List.mem_cons_self, checked, List.forall_mem_cons.2 ⟨?_, ?_⟩⟩
        · exact fun less => absurd less (Nat.lt_irrefl _)
        · exact fun other inside less => absurd less (Nat.lt_asymm (above other inside))
      · rintro ⟨v, inside, rejected, lower⟩
        rcases List.mem_cons.1 inside with rfl | inside
        · rw [checked] at rejected
          cases rejected
          rfl
        · -- the first entry would have to pass
          have passed := lower entry List.mem_cons_self (above _ inside)
          rw [checked] at passed
          cases passed

theorem wrap_eq {α : Type} (f : List Value → α) :
    guards.wrap f arguments =
      match guards.check arguments with
      | .ok () => .ok (f arguments)
      | .error failure => .error failure := by
  unfold wrap
  cases guards.check arguments <;> rfl

end

/-! ## Guards of a function -/

/-- Guards that are set one after the other are a map from positions to the validators given last. They are
in order, and calls for different positions can change places. A check passes exactly if every guarded argument
is accepted, where one that is not passed is undefined, and otherwise the failure is that of the lowest position
that fails. The function behind the guards runs exactly if the check passes. -/
theorem setAll_guards (calls : List (Nat × Validator)) :
    (empty.setAll calls).IsAscending ∧
    (∀ position, (empty.setAll calls).find? position = givenLast? calls position) ∧
    (∀ calls', Rearranges calls calls' → empty.setAll calls' = empty.setAll calls) ∧
    ∀ arguments : List Value,
      ((empty.setAll calls).check arguments = .ok () ↔
        ∀ position v, givenLast? calls position = some v → v.accepts (argument arguments position) = true) ∧
      (∀ failure : ArgumentFailure, (empty.setAll calls).check arguments = .error failure ↔
        ∃ v, givenLast? calls failure.position = some v ∧
          v.check (argument arguments failure.position) = .error failure.failure ∧
          ∀ position < failure.position, ∀ w, givenLast? calls position = some w →
            w.accepts (argument arguments position) = true) ∧
      ∀ {α : Type} (f : List Value → α),
        (empty.setAll calls).wrap f arguments =
          match (empty.setAll calls).check arguments with
          | .ok () => .ok (f arguments)
          | .error failure => .error failure := by
  have ascending := isAscending_empty.setAll calls
  have found (position : Nat) : (empty.setAll calls).find? position = givenLast? calls position := by
    rw [find?_setAll isAscending_empty]
    exact Option.or_none
  have entries (position : Nat) (v : Validator) :
      (position, v) ∈ (empty.setAll calls).entries ↔ givenLast? calls position = some v := by
    rw [← ascending.find?_eq_some_iff, found]
  refine ⟨ascending, found, fun calls' rearranged => ?_, fun arguments => ⟨?_, fun failure => ?_, wrap_eq arguments⟩⟩
  · refine (isAscending_empty.setAll calls').eq_of_find?_eq ascending fun position => ?_
    rw [found, find?_setAll isAscending_empty, ← rearranged.givenLast?_eq]
    exact Option.or_none
  · rw [check_eq_ok_iff]
    simp only [Prod.forall, entries, check_validator_eq_ok_iff]
  · rw [ascending.check_eq_error_iff]
    simp only [Prod.forall, entries, check_validator_eq_ok_iff]
    refine exists_congr fun v => and_congr_right fun _ => and_congr_right fun _ => ?_
    exact ⟨fun lower position less w given => lower position w given less,
      fun lower position w given less => lower position less w given⟩

end Guards

end ShapeCheck
