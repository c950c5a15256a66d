import ShapeCheck.Proofs.Evaluation.Decisions

set_option autoImplicit false

/-! # Traces

The events of an evaluation that has a result are balanced: every predicate that is entered is left again.
So a diagnosis that follows them ends where it started, whatever predicates were open there, and the
failure that it has in the end depends on the failure and the place that it started with. A failure that
it started with is still there unless a predicate has passed at or above the place of the failure.

Main facts: `Validator.balanced_of_gives` and `Event.AreBalanced.exists_leadTo`.
-/

namespace ShapeCheck

/-! ## Balanced events -/

/-- A visit to the current part: a predicate is entered, other events follow, and it is left again. -/
def Event.visit (passed : Bool) (name : String) (events : List Event) : List Event :=
  .enter none :: (events ++ [.exit passed name])

/-- Every predicate that is entered is left again, and no limit is reached. -/
inductive Event.AreBalanced : List Event → Prop
  | nil : AreBalanced []
  | reason (reason : Reason) : AreBalanced [.reason reason]
  | superfluousKey (key : String) : AreBalanced [.superfluousKey key]
  | append {events events' : List Event} (first : AreBalanced events) (second : AreBalanced events') :
      AreBalanced (events ++ events')
  | bracket {events : List Event} (segment : Option Segment) (inside : AreBalanced events) (passed : Bool)
      (name : String) : AreBalanced (.enter segment :: (events ++ [.exit passed name]))

/-- What runs inside of a bracket decides. -/
theorem gives_bracket {σ : Type} {observe : Observer σ} {m : Run σ Bool} {segment : Option Segment}
    {name : String} {s t : σ} {b : Bool} :
    Gives (do
      emit observe (.enter segment)
      let passed ← m
      emit observe (.exit passed name)
      return passed) s b t ↔
      ∃ u, Gives m (observe s (.enter segment)) b u ∧ observe u (.exit b name) = t := by
  simp only [gives_bind, emit, gives_modify, gives_pure]
  constructor
  · rintro ⟨_, _, rfl, passed, u, h, _, _, rfl, rfl, rfl⟩
    exact ⟨u, h, rfl⟩
  · rintro ⟨u, h, rfl⟩
    exact ⟨(), _, rfl, b, u, h, (), _, rfl, rfl, rfl⟩

theorem foldl_log (log events : List Event) : events.foldl Observer.log log = log ++ events := by
  induction events generalizing log with
  | nil => exact (List.append_nil log).symm
  | cons event rest ih => rw [List.foldl_cons, ih, Observer.log, List.append_assoc, List.singleton_append]

/-- An evaluation with a result adds balanced events to a log. -/
theorem isLaw_balanced : IsLaw Observer.log fun {α : Type} (m : Run (List Event) α) =>
    ∀ s a t, Gives m s a t → ∃ events, Event.AreBalanced events ∧ t = s ++ events where
  pure a s b t outcome := by
    obtain ⟨-, rfl⟩ := gives_pure.1 outcome
    exact ⟨[], .nil, (List.append_nil s).symm⟩
  bind first second s b t outcome := by
    obtain ⟨a, u, ran, rest⟩ := gives_bind.1 outcome
    obtain ⟨events, balanced, rfl⟩ := first s a u ran
    obtain ⟨events', balanced', rfl⟩ := second a _ b t rest
    exact ⟨events ++ events', balanced.append balanced', List.append_assoc s events events'⟩
  reason reason s _ t outcome := ⟨_, .reason reason, (gives_modify.1 outcome).symm⟩
  superfluousKey key s _ t outcome := ⟨_, .superfluousKey key, (gives_modify.1 outcome).symm⟩
  bracket segment name inside s passed t outcome := by
    obtain ⟨u, ran, rfl⟩ := gives_bracket.1 outcome
    obtain ⟨events, balanced, rfl⟩ := inside _ _ _ ran
    exact ⟨_, balanced.bracket segment passed name, by simp [Observer.log]⟩

namespace Validator

variable {v : Validator} {depth : Nat} {name : String} {x : Located} {b : Bool}

/-- The events of a call with a result are balanced. -/
theorem balanced_of_gives {events : List Event}
    (h : Gives (v.invoke Observer.log depth name x) [] b events) : Event.AreBalanced events := by
  have law : ∀ s a t, Gives (v.invoke Observer.log depth name x) s a t →
      ∃ events, Event.AreBalanced events ∧ t = s ++ events := by
    apply isLaw_balanced.invoke v (fun _ => True) (fun _ _ _ _ _ _ => trivial) _ _ depth trivial
    · intro s a t outcome
      obtain ⟨_, _, _, halted⟩ := gives_bind.1 outcome
      exact absurd halted gives_throw
    · exact fun _ _ _ s a t outcome => absurd outcome gives_throw
  obtain ⟨events', balanced, rfl⟩ := law _ _ _ h
  exact balanced

/-- An observer ends a call where the events lead it. -/
theorem gives_of_log {σ : Type} {observe : Observer σ} {events : List Event}
    (h : Gives (v.invoke Observer.log depth name x) [] b events) (state : σ) :
    Gives (v.invoke observe depth name x) state b (events.foldl observe state) :=
  have logged : Translates (fun events => events.foldl observe state)
      (v.invoke Observer.log depth name x) (v.invoke observe depth name x) :=
    v.invoke_translates (fun _ _ => List.foldl_append) _ _ _
  logged.gives h

/-- The events of a call do not depend on the log that they are added to. -/
theorem exists_log_of_gives {log log' : List Event}
    (h : Gives (v.invoke Observer.log depth name x) log b log') :
    ∃ events, Gives (v.invoke Observer.log depth name x) [] b events ∧ log' = log ++ events := by
  have added : Translates (fun events => log ++ events) (v.invoke Observer.log depth name x)
      (v.invoke Observer.log depth name x) :=
    v.invoke_translates (fun events event => (List.append_assoc log events [event]).symm) _ _ _
  have here := added []
  dsimp only at here
  rw [List.append_nil, show (v.invoke Observer.log depth name x).run.run log = (.ok b, log') from h] at here
  obtain ⟨result, rfl⟩ := Prod.mk.inj here
  exact ⟨_, Prod.ext result.symm rfl, rfl⟩

end Validator

/-! ## What a diagnosis makes of them -/

/-- The places at which predicates have passed, found with a diagnosis that follows the events. -/
structure Passages where
  diagnosis : Diagnosis := .start
  places : List Path := []

/-- Takes note of an event. -/
def Passages.observe : Observer Passages
  | ⟨d, places⟩, event =>
    ⟨d.observe event, match event with
      | .exit true _ => places ++ [d.path]
      | _ => places⟩

/-- The places at which predicates pass when the validator is evaluated on a value. -/
def Validator.passages (v : Validator) (value : Value) : List Path :=
  (v.evaluate Passages.observe {} value).2.places

/-- The failure is not forgiven where a predicate passes at none of these places. -/
def Failure.Outlasts (failure : Failure) (places : List Path) : Prop :=
  ∀ place ∈ places, ¬ place <+: failure.path

theorem Passages.diagnosis_foldl (events : List Event) (p : Passages) :
    (events.foldl observe p).diagnosis = events.foldl Diagnosis.observe p.diagnosis := by
  induction events generalizing p with
  | nil => rfl
  | cons event rest ih => exact ih _

theorem Diagnosis.forgive_eq (path : Path) (steps : List Bool) (failure : Option Failure) :
    forgive ⟨path, steps, failure⟩ =
      ⟨path, steps, failure.filter fun failure => !path.isPrefixOf failure.path⟩ := by
  cases failure with
  | none => rfl
  | some failure => cases below : path.isPrefixOf failure.path <;> simp [forgive, Option.filter, below]

/-- What balanced events make of a failure, and where predicates pass on the way. A diagnosis ends where it
started, and the failure does not depend on the predicates that are open. -/
structure Event.LeadTo (events : List Event) (path : Path) (after : Option Failure → Option Failure)
    (places : List Path) : Prop where
  ends : ∀ steps failure passed, events.foldl Passages.observe ⟨⟨path, steps, failure⟩, passed⟩ =
    ⟨⟨path, steps, after failure⟩, passed ++ places⟩
  outlasts : ∀ failure, failure.Outlasts places → after (some failure) = some failure

namespace Event.LeadTo

theorem nil (path : Path) : LeadTo [] path id [] where
  ends _ _ _ := by
    rw [List.append_nil]
    rfl
  outlasts _ _ := rfl

theorem append {events events' : List Event} {path : Path} {after after' : Option Failure → Option Failure}
    {places places' : List Path} (h : LeadTo events path after places)
    (h' : LeadTo events' path after' places') :
    LeadTo (events ++ events') path (after' ∘ after) (places ++ places') where
  ends steps failure passed := by
    rw [List.foldl_append, h.ends, h'.ends, List.append_assoc]
    rfl
  outlasts failure outlasts := by
    have first := h.outlasts failure fun place inside => outlasts place (List.mem_append_left _ inside)
    have second := h'.outlasts failure fun place inside => outlasts place (List.mem_append_right _ inside)
    rw [Function.comp_apply, first, second]

/-- Where a predicate is left that has passed, a failure at or below the place of the predicate is dropped. -/
theorem passed {events : List Event} {path : Path} {after : Option Failure → Option Failure}
    {places : List Path} (segment : Option Segment) (name : String)
    (h : LeadTo events (path ++ segment.toList) after places) :
    LeadTo (.enter segment :: (events ++ [.exit true name])) path
      (fun failure => (after failure).filter fun failure => !(path ++ segment.toList).isPrefixOf failure.path)
      (places ++ [path ++ segment.toList]) where
  ends steps failure passed := by
    cases segment with
    | none =>
      have inside := h.ends (false :: steps) failure passed
      simp only [Option.toList_none, List.append_nil] at inside ⊢
      simp [Passages.observe, Diagnosis.observe, inside, Diagnosis.forgive_eq, Diagnosis.leave]
    | some segment =>
      have inside := h.ends (true :: steps) failure passed
      simp only [Option.toList_some] at inside ⊢
      simp [Passages.observe, Diagnosis.observe, inside, Diagnosis.forgive_eq, Diagnosis.leave]
  outlasts failure outlasts := by
    have below := h.outlasts failure fun place inside => outlasts place (List.mem_append_left _ inside)
    have here := outlasts (path ++ segment.toList) (List.mem_append_right _ List.mem_cons_self)
    rw [below]
    simpa [Option.filter] using here

/-- Where a predicate is left that has not passed, that counts as a failure unless there is one already. -/
theorem rejected {events : List Event} {path : Path} {after : Option Failure → Option Failure}
    {places : List Path} (segment : Option Segment) (name : String)
    (h : LeadTo events (path ++ segment.toList) after places) :
    LeadTo (.enter segment :: (events ++ [.exit false name])) path
      (fun failure => after failure <|> some (.mismatch (path ++ segment.toList) name)) places where
  ends steps failure passed := by
    cases segment with
    | none =>
      have inside := h.ends (false :: steps) failure passed
      simp only [Option.toList_none, List.append_nil] at inside ⊢
      simp [Passages.observe, Diagnosis.observe, inside, Diagnosis.record, Diagnosis.leave]
    | some segment =>
      have inside := h.ends (true :: steps) failure passed
      simp only [Option.toList_some] at inside ⊢
      simp [Passages.observe, Diagnosis.observe, inside, Diagnosis.record, Diagnosis.leave]
  outlasts failure outlasts := by
    rw [h.outlasts failure outlasts]
    rfl

end Event.LeadTo

/-- Balanced events lead back to where they started. -/
theorem Event.AreBalanced.exists_leadTo {events : List Event} (h : AreBalanced events) (path : Path) :
    ∃ after places, LeadTo events path after places := by
  induction h generalizing path with
  | nil => exact ⟨_, _, .nil path⟩
  | reason reason =>
    exact ⟨(· <|> some (.ofReason path reason)), [], fun _ _ _ => by rw [List.append_nil]; rfl, fun _ _ => rfl⟩
  | superfluousKey key =>
    exact ⟨(· <|> some (.superfluousKey path key)), [], fun _ _ _ => by rw [List.append_nil]; rfl, fun _ _ => rfl⟩
  | append _ _ ih ih' =>
    obtain ⟨after, places, first⟩ := ih path
    obtain ⟨after', places', second⟩ := ih' path
    exact ⟨_, _, first.append second⟩
  | bracket segment _ passed name ih =>
    obtain ⟨after, places, inside⟩ := ih (path ++ segment.toList)
    cases passed with
    | true => exact ⟨_, _, inside.passed segment name⟩
    | false => exact ⟨_, _, inside.rejected segment name⟩

end ShapeCheck
