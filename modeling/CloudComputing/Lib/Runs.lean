import Mathlib.Tactic.TypeStar

/-!
# Runs of a transition system

A system is a partial step function on states and events.  A run is a finite
sequence of enabled steps; a guard may restrict the steps a run is allowed to
take.  An invariant that every step keeps holds in every state of every run.
-/

namespace CloudComputing

variable {σ ε : Type*}

/-- A finite run whose steps all satisfy `guard`. -/
inductive Run
    (step : σ → ε → Option σ)
    (guard : σ → ε → Prop) : σ → List ε → σ → Prop
  | nil (state : σ) : Run step guard state [] state
  | cons
      {state next last : σ}
      {event : ε}
      {events : List ε}
      (allowed : guard state event)
      (taken : step state event = some next)
      (rest : Run step guard next events last) :
      Run step guard state (event :: events) last

namespace Run

variable {step : σ → ε → Option σ} {guard : σ → ε → Prop}

/-- The unrestricted guard. -/
abbrev free : σ → ε → Prop := fun _ _ => True

/-- A property that every allowed step keeps holds at the end of every run. -/
theorem preserves
    {invariant : σ → Prop}
    (keeps : ∀ state event next, invariant state → guard state event →
      step state event = some next → invariant next)
    {state last : σ}
    {events : List ε}
    (run : Run step guard state events last)
    (initially : invariant state) :
    invariant last := by
  induction run with
  | nil => exact initially
  | cons allowed taken _ inductionHypothesis =>
      exact inductionHypothesis (keeps _ _ _ initially allowed taken)

/-- Events that can be executed one after the other are a run, when a check
that implies the guard succeeds before each of them. -/
theorem of_checked
    {check : σ → ε → Bool}
    (sound : ∀ state event, check state event = true → guard state event)
    {events : List ε}
    {state last : σ}
    (executed : events.foldlM
      (fun state event => if check state event then step state event else none)
      state = some last) :
    Run step guard state events last := by
  induction events generalizing state with
  | nil =>
      cases executed
      exact .nil _
  | cons event events inductionHypothesis =>
      rw [List.foldlM_cons] at executed
      cases checked : check state event with
      | false => simp [checked] at executed
      | true =>
          rw [checked, if_pos rfl] at executed
          cases taken : step state event with
          | none => simp [taken] at executed
          | some next =>
              rw [taken] at executed
              exact .cons (sound state event checked) taken
                (inductionHypothesis executed)

/-- Without a guard, whatever can be executed is a run. -/
theorem of_executed
    {events : List ε}
    {state last : σ}
    (executed : events.foldlM step state = some last) :
    Run step free state events last := by
  induction events generalizing state with
  | nil =>
      cases executed
      exact .nil _
  | cons event events inductionHypothesis =>
      rw [List.foldlM_cons] at executed
      obtain ⟨next, taken, executed⟩ := Option.bind_eq_some_iff.mp executed
      exact .cons trivial taken (inductionHypothesis executed)

/-- A run that goes on. -/
theorem append
    {state middle last : σ}
    {events further : List ε}
    (run : Run step guard state events middle)
    (rest : Run step guard middle further last) :
    Run step guard state (events ++ further) last := by
  induction run with
  | nil => exact rest
  | cons allowed taken _ inductionHypothesis =>
      exact .cons allowed taken (inductionHypothesis rest)

/-- The events decide where a run ends. -/
theorem last_unique
    {state last other : σ}
    {events : List ε}
    (run : Run step guard state events last)
    (again : Run step guard state events other) :
    last = other := by
  induction run with
  | nil =>
      cases again
      rfl
  | cons _ taken _ inductionHypothesis =>
      cases again with
      | cons _ taken' rest =>
          rw [taken, Option.some_inj] at taken'
          subst taken'
          exact inductionHypothesis rest

/-- Weaker guards allow more runs. -/
theorem mono
    {guard' : σ → ε → Prop}
    (weaker : ∀ state event, guard state event → guard' state event)
    {state last : σ}
    {events : List ε}
    (run : Run step guard state events last) :
    Run step guard' state events last := by
  induction run with
  | nil => exact .nil _
  | cons allowed taken _ inductionHypothesis =>
      exact .cons (weaker _ _ allowed) taken inductionHypothesis

/-- Another guard holds of a run wherever it follows for the events. -/
theorem mono_of_mem
    {guard' : σ → ε → Prop}
    {state last : σ}
    {events : List ε}
    (run : Run step guard state events last)
    (weaker : ∀ event ∈ events, ∀ state,
      guard state event → guard' state event) :
    Run step guard' state events last := by
  induction run with
  | nil => exact .nil _
  | cons allowed taken _ inductionHypothesis =>
      exact .cons (weaker _ List.mem_cons_self _ allowed) taken
        (inductionHypothesis fun event member =>
          weaker event (List.mem_cons_of_mem _ member))

/-- The guard holds of every event of a run, in some state. -/
theorem exists_guard
    {state last : σ}
    {events : List ε}
    (run : Run step guard state events last) :
    ∀ event ∈ events, ∃ state, guard state event := by
  induction run with
  | nil => simp
  | cons allowed _ _ inductionHypothesis =>
      intro event member
      rcases List.mem_cons.mp member with same | later
      · rw [same]
        exact ⟨_, allowed⟩
      · exact inductionHypothesis event later

/-- One step is a run. -/
theorem single
    {state next : σ}
    {event : ε}
    (allowed : guard state event)
    (taken : step state event = some next) :
    Run step guard state [event] next :=
  .cons allowed taken (.nil next)

end Run
end CloudComputing
