import ShapeCheck.Proofs.Evaluation.Laws
import ShapeCheck.Proofs.Evaluation.Observers

set_option autoImplicit false

/-! # The limit of calls

With a higher limit an evaluation does the same as before, and goes on where the lower limit has stopped
it. So the limit never turns one verdict into the other: what it takes away is a verdict at all, and what
an observer has been told until then is where the longer evaluation starts.

Main fact: `Validator.limit_only_cuts`.
-/

namespace ShapeCheck

variable {σ : Type}

/-! ## Evaluations that are cut short -/

/-- The first evaluation is the second one, or it has told the observer a part of the same events and then
come to the limit. -/
def CutShort {α : Type} (observe : Observer σ) (m n : Run σ α) : Prop :=
  ∀ s, ∃ told more : List Event, (n.run.run s).2 = (told ++ more).foldl observe s ∧
    ((m.run.run s).1 ≠ .error .depthExceeded ∧ m.run.run s = n.run.run s ∨
      m.run.run s = (.error .depthExceeded, observe (told.foldl observe s) .depthExceeded))

namespace CutShort

variable {α β : Type} {observe : Observer σ}

theorem pure (a : α) : CutShort observe (Pure.pure a : Run σ α) (Pure.pure a) :=
  fun _ => ⟨[], [], rfl, .inl ⟨nofun, rfl⟩⟩

theorem unknown (name : String) :
    CutShort observe (throw (.unknownPredicate name) : Run σ α) (throw (.unknownPredicate name)) :=
  fun _ => ⟨[], [], rfl, .inl ⟨nofun, rfl⟩⟩

theorem emit (event : Event) :
    CutShort observe (ShapeCheck.emit observe event) (ShapeCheck.emit observe event) :=
  fun _ => ⟨[event], [], rfl, .inl ⟨nofun, rfl⟩⟩

/-- What is cut short in its first part is not continued. -/
theorem bind {m n : Run σ α} {f g : α → Run σ β} (first : CutShort observe m n)
    (second : ∀ a, CutShort observe (f a) (g a)) : CutShort observe (m >>= f) (n >>= g) := by
  intro s
  have unfolded (k : Run σ α) (h : α → Run σ β) : (k >>= h).run.run s =
      (ExceptT.bindCont h (k.run.run s).1).run (k.run.run s).2 := rfl
  obtain ⟨told, more, state, either⟩ := first s
  rw [unfolded m, unfolded n]
  rcases ran : n.run.run s with ⟨result, t⟩
  rw [ran] at state either
  have after (rest : List Event) : (told ++ more ++ rest).foldl observe s = rest.foldl observe t := by
    rw [List.foldl_append, ← state]
  cases result with
  | error halt =>
    rcases either with ⟨other, same⟩ | cut
    · rw [same] at other ⊢
      exact ⟨told, more, state, .inl ⟨fun reached => other (congrArg _ (Except.error.inj reached)), rfl⟩⟩
    · rw [cut]
      exact ⟨told, more, state, .inr rfl⟩
  | ok a =>
    obtain ⟨told', more', state', either'⟩ := second a t
    rcases either with ⟨-, same⟩ | cut
    · rw [same]
      refine ⟨told ++ more ++ told', more', ?_, ?_⟩
      · rw [List.append_assoc (told ++ more), after]
        exact state'
      · rw [after]
        exact either'
    · rw [cut]
      refine ⟨told, more ++ (told' ++ more'), ?_, .inr rfl⟩
      rw [← List.append_assoc, after]
      exact state'

theorem isCongruence (observe : Observer σ) :
    IsCongruence observe observe fun {α : Type} (m n : Run σ α) => CutShort observe m n where
  pure a := .pure a
  bind first second := first.bind second
  emit event := .emit event

end CutShort

/-! ## Validators -/

namespace Validator

/-- A call tells its observer a series of events. -/
theorem exists_events_invoke (v : Validator) (observe : Observer σ) (depth : Nat) (name : String)
    (argument : Located) (s : σ) :
    ∃ events : List Event,
      ((v.invoke observe depth name argument).run.run s).2 = events.foldl observe s := by
  have logged : Translates (fun events => events.foldl observe s)
      (v.invoke Observer.log depth name argument) (v.invoke observe depth name argument) :=
    v.invoke_translates (fun _ _ => List.foldl_append) _ _ _
  exact ⟨_, congrArg Prod.snd (logged [])⟩

/-- A call is cut short where fewer calls may be nested. -/
theorem invoke_cutShort (v : Validator) (observe : Observer σ) (few extra : Nat) (name : String)
    (argument : Located) :
    CutShort observe (v.invoke observe few name argument)
      (v.invoke observe (few + extra) name argument) := by
  induction few generalizing name argument with
  | zero =>
    intro s
    obtain ⟨events, state⟩ := v.exists_events_invoke observe (0 + extra) name argument s
    exact ⟨[], events, state, .inr rfl⟩
  | succ few ih =>
    rw [Nat.succ_add, invoke_succ, invoke_succ]
    cases v.predicate? name with
    | none => exact .unknown name
    | some p => exact (CutShort.isCongruence observe).run (fun f _ x => ih f x) argument

theorem evaluateWithin_cutShort (v : Validator) (observe : Observer σ) (few extra : Nat) (value : Value) :
    CutShort observe (v.evaluateWithin observe few value) (v.evaluateWithin observe (few + extra) value) :=
  (CutShort.emit _).bind fun _ => (v.invoke_cutShort observe few extra v.root _).bind fun passed =>
    (CutShort.emit _).bind fun _ => .pure passed

/-- The halt is one at the limit, or at a name that has no predicate. -/
def MayHalt (v : Validator) (halt : Halt) : Prop :=
  halt = .depthExceeded ∨ ∃ name, halt = .unknownPredicate name ∧ v.predicate? name = none

theorem invoke_mayHalt (v : Validator) (observe : Observer σ) (depth : Nat) (name : String)
    (argument : Located) : OnlyFails v.MayHalt (v.invoke observe depth name argument) := by
  apply (isLaw_onlyFails v.MayHalt observe).invoke v (fun _ => True) (fun _ _ _ _ _ _ => trivial) _ _ depth
    trivial
  · exact (OnlyFails.update _).bind fun _ => .throw (.inl rfl)
  · exact fun name _ absent => .throw (.inr ⟨name, rfl, absent⟩)

theorem evaluateWithin_mayHalt (v : Validator) (observe : Observer σ) (depth : Nat) (value : Value) :
    OnlyFails v.MayHalt (v.evaluateWithin observe depth value) :=
  (isLaw_onlyFails v.MayHalt observe).evaluateWithin (v.invoke_mayHalt observe depth v.root _)

/-- What a lower limit can make of an evaluation that tells an observer in the state `s` what happens. -/
structure OnlyCuts (v : Validator) (observe : Observer σ) (limited relaxed : Run σ Bool) (s : σ) :
    Prop where
  decided : ∀ b t, limited.run.run s = (.ok b, t) → relaxed.run.run s = (.ok b, t)
  unknown : ∀ name t, limited.run.run s = (.error (.unknownPredicate name), t) →
    relaxed.run.run s = (.error (.unknownPredicate name), t)
  ends : (∃ b, (limited.run.run s).1 = .ok b) ∨ (limited.run.run s).1 = .error .depthExceeded ∨
    ∃ name, (limited.run.run s).1 = .error (.unknownPredicate name) ∧ v.predicate? name = none
  /-- At the limit the observer knows the first events of the longer evaluation. -/
  cut : (limited.run.run s).1 = .error .depthExceeded → ∃ told more : List Event,
    (limited.run.run s).2 = observe (told.foldl observe s) .depthExceeded ∧
      (relaxed.run.run s).2 = (told ++ more).foldl observe s

theorem onlyCuts_of_cutShort {v : Validator} {observe : Observer σ} {limited relaxed : Run σ Bool}
    (cutShort : CutShort observe limited relaxed) (mayHalt : OnlyFails v.MayHalt limited) (s : σ) :
    v.OnlyCuts observe limited relaxed s := by
  obtain ⟨told, more, state, either⟩ := cutShort s
  have same (result : Except Halt Bool) (t : σ) (other : result ≠ .error .depthExceeded)
      (outcome : limited.run.run s = (result, t)) : relaxed.run.run s = (result, t) := by
    rcases either with ⟨-, same⟩ | cut
    · rw [← same, outcome]
    · exact absurd (congrArg Prod.fst (outcome.symm.trans cut)) other
  refine ⟨fun b t => same _ t nofun, fun name t => same _ t nofun, ?_, fun reached => ?_⟩
  · rcases ran : limited.run.run s with ⟨_ | b, t⟩
    · rcases mayHalt s _ t ran with rfl | ⟨name, rfl, absent⟩
      · exact .inr (.inl rfl)
      · exact .inr (.inr ⟨name, rfl, absent⟩)
    · exact .inl ⟨b, rfl⟩
  · rcases either with ⟨other, -⟩ | cut
    · exact absurd reached other
    · exact ⟨told, more, by rw [cut], state⟩

/-- The limit of calls never changes a result, it only takes results away. A call that is started at depth
`d` under the limit `l` is one that may nest `l - d` calls; where it may nest `extra` calls more, it
ends in the same way with the same events, unless it had come to the limit before. Every call and every
evaluation has an end, and the only other way to end without a verdict is at a name without a predicate. -/
theorem limit_only_cuts (v : Validator) (observe : Observer σ) (few extra : Nat) (s : σ) :
    (∀ name argument, v.OnlyCuts observe (v.invoke observe few name argument)
      (v.invoke observe (few + extra) name argument) s) ∧
    ∀ value, v.OnlyCuts observe (v.evaluateWithin observe few value)
      (v.evaluateWithin observe (few + extra) value) s := by
  constructor
  · intro name argument
    exact onlyCuts_of_cutShort (v.invoke_cutShort observe few extra name argument)
      (v.invoke_mayHalt observe few name argument) s
  · intro value
    exact onlyCuts_of_cutShort (v.evaluateWithin_cutShort observe few extra value)
      (v.evaluateWithin_mayHalt observe few value) s

/-- A predicate that calls itself comes to the limit at every value. -/
example : (Validator.mk "loop" [⟨"loop", "input", [.result (.call "loop" (.var "input"))], none⟩] {}).evaluateWithin
    Observer.log 2 .null [] = (.error .depthExceeded, [.enter none, .enter none, .enter none, .depthExceeded]) :=
  rfl

end Validator

end ShapeCheck
