import Mathlib.Tactic.Common

/-! # Runs of a partial transition system

`step state event` is the next state, or `none` when the event cannot happen.
A run takes a list of events from a start state.  An invariant is proved once
per step and carried along every run by `run_invariant`; `StepsMeet` and
`Always` say of a whole run that each step meets a condition and that each
state visited has a property; `withHistory` adds a history variable that the
system cannot see.
-/

set_option autoImplicit false

namespace TimeOff.Lib

variable {σ ε γ : Type} (step : σ → ε → Option σ)

/-- The state after the events, when every one of them can happen in its turn. -/
def run : σ → List ε → Option σ
  | state, [] => some state
  | state, event :: rest => (step state event).bind fun next => run next rest

/-- Every step of the run meets `guard`, which sees the state before the step. -/
def StepsMeet (guard : σ → ε → Prop) : σ → List ε → Prop
  | _, [] => True
  | state, event :: rest =>
    guard state event ∧ ∀ next, step state event = some next → StepsMeet guard next rest

/-- Every state the run visits has the property. -/
def Always (property : σ → Prop) : σ → List ε → Prop
  | state, [] => property state
  | state, event :: rest =>
    property state ∧ ∀ next, step state event = some next → Always property next rest

instance decidableAlways (property : σ → Prop) [DecidablePred property] :
    (state : σ) → (events : List ε) → Decidable (Always step property state events)
  | state, [] => inferInstanceAs (Decidable (property state))
  | state, event :: rest =>
    match stepped : step state event with
    | none => decidable_of_iff (property state) (by simp [Always, stepped])
    | some next =>
      have := decidableAlways property next rest
      decidable_of_iff (property state ∧ Always step property next rest) (by simp [Always, stepped])

instance decidableStepsMeet (guard : σ → ε → Prop) [∀ state event, Decidable (guard state event)] :
    (state : σ) → (events : List ε) → Decidable (StepsMeet step guard state events)
  | _, [] => inferInstanceAs (Decidable True)
  | state, event :: rest =>
    match stepped : step state event with
    | none => decidable_of_iff (guard state event) (by simp [StepsMeet, stepped])
    | some next =>
      have := decidableStepsMeet guard next rest
      decidable_of_iff (guard state event ∧ StepsMeet step guard next rest)
        (by simp [StepsMeet, stepped])

variable {step}

theorem run_cons {state final : σ} {event : ε} {rest : List ε} :
    run step state (event :: rest) = some final ↔
      ∃ next, step state event = some next ∧ run step next rest = some final := by
  simp [run, Option.bind_eq_some_iff]

/-- What each step preserves holds at the end of every run. -/
theorem run_invariant (invariant : σ → Prop)
    (preserved : ∀ state event next, invariant state → step state event = some next → invariant next)
    {state final : σ} {events : List ε} (start : invariant state)
    (ran : run step state events = some final) : invariant final := by
  induction events generalizing state with
  | nil =>
    cases ran
    exact start
  | cons event rest inductionHypothesis =>
    obtain ⟨next, stepped, ranRest⟩ := run_cons.mp ran
    exact inductionHypothesis (preserved state event next start stepped) ranRest

/-- What each step preserves holds in every state of every run. -/
theorem always_of_invariant (invariant : σ → Prop)
    (preserved : ∀ state event next, invariant state → step state event = some next → invariant next)
    {state : σ} (start : invariant state) (events : List ε) : Always step invariant state events := by
  induction events generalizing state with
  | nil => exact start
  | cons event rest inductionHypothesis =>
    refine ⟨start, ?_⟩
    intro next stepped
    exact inductionHypothesis (preserved state event next start stepped)

/-- An invariant that only the guarded steps preserve holds in every state of a guarded run. -/
theorem always_of_stepsMeet (invariant : σ → Prop) {guard : σ → ε → Prop}
    (preserved : ∀ state event next, invariant state → guard state event →
      step state event = some next → invariant next)
    {state : σ} {events : List ε} (start : invariant state)
    (guarded : StepsMeet step guard state events) : Always step invariant state events := by
  induction events generalizing state with
  | nil => exact start
  | cons event rest inductionHypothesis =>
    obtain ⟨here, later⟩ := guarded
    refine ⟨start, ?_⟩
    intro next stepped
    exact inductionHypothesis (preserved state event next start here stepped) (later next stepped)

/-- A guard that no step can fail is met by every run. -/
theorem stepsMeet_of_forall {guard : σ → ε → Prop} (met : ∀ state event, guard state event)
    (state : σ) (events : List ε) : StepsMeet step guard state events := by
  induction events generalizing state with
  | nil => trivial
  | cons event rest inductionHypothesis =>
    exact ⟨met state event, fun next _ => inductionHypothesis next⟩

/-- Guards that agree wherever the invariant holds are met by the same runs. -/
theorem stepsMeet_congr_of_invariant (invariant : σ → Prop) {first second : σ → ε → Prop}
    (preserved : ∀ state event next, invariant state → step state event = some next → invariant next)
    (agree : ∀ state event, invariant state → (first state event ↔ second state event))
    {state : σ} {events : List ε} (start : invariant state) :
    StepsMeet step first state events ↔ StepsMeet step second state events := by
  induction events generalizing state with
  | nil => exact Iff.rfl
  | cons event rest inductionHypothesis =>
    refine and_congr (agree state event start) ?_
    apply forall_congr'
    intro next
    apply forall_congr'
    intro stepped
    exact inductionHypothesis (preserved state event next start stepped)

/-- Guards that agree on every step are met by the same runs. -/
theorem stepsMeet_congr {first second : σ → ε → Prop}
    (agree : ∀ state event, first state event ↔ second state event) {state : σ} {events : List ε} :
    StepsMeet step first state events ↔ StepsMeet step second state events :=
  stepsMeet_congr_of_invariant (fun _ => True) (fun _ _ _ _ _ => trivial)
    (fun state event _ => agree state event) trivial

/-- The two parts of a guarded run are guarded. -/
theorem stepsMeet_append {guard : σ → ε → Prop} {state : σ} {earlier later : List ε} :
    StepsMeet step guard state (earlier ++ later) ↔ StepsMeet step guard state earlier ∧
      ∀ middle, run step state earlier = some middle → StepsMeet step guard middle later := by
  induction earlier generalizing state with
  | nil => simp [StepsMeet, run]
  | cons event rest inductionHypothesis =>
    simp only [List.cons_append, StepsMeet, run_cons, inductionHypothesis]
    constructor
    · intro ⟨here, parts⟩
      refine ⟨⟨here, fun next stepped => (parts next stepped).1⟩, ?_⟩
      intro middle ⟨next, stepped, ran⟩
      exact (parts next stepped).2 middle ran
    · intro ⟨⟨here, left⟩, right⟩
      refine ⟨here, fun next stepped => ⟨left next stepped, ?_⟩⟩
      intro middle ran
      exact right middle ⟨next, stepped, ran⟩

theorem Always.mono {strong weak : σ → Prop} (implies : ∀ state, strong state → weak state)
    {state : σ} {events : List ε} (always : Always step strong state events) :
    Always step weak state events := by
  induction events generalizing state with
  | nil => exact implies state always
  | cons event rest inductionHypothesis =>
    exact ⟨implies state always.1, fun next stepped => inductionHypothesis (always.2 next stepped)⟩

theorem Always.start {property : σ → Prop} {state : σ} {events : List ε}
    (always : Always step property state events) : property state := by
  cases events with
  | nil => exact always
  | cons event rest => exact always.1

/-- When a step keeps the property exactly if it meets the guard, a run keeps the property
throughout exactly if every one of its steps meets the guard. -/
theorem always_iff_stepsMeet (invariant property : σ → Prop) {guard : σ → ε → Prop}
    (preserved : ∀ state event next, invariant state → step state event = some next → invariant next)
    (exact_step : ∀ state event, invariant state → property state →
      ((∀ next, step state event = some next → property next) ↔ guard state event))
    {state : σ} {events : List ε} (start : invariant state) (holds : property state) :
    Always step property state events ↔ StepsMeet step guard state events := by
  induction events generalizing state with
  | nil => simp [Always, StepsMeet, holds]
  | cons event rest inductionHypothesis =>
    have exactHere := exact_step state event start holds
    -- in both directions the property holds of the next state, where the rest of the run begins
    constructor
    · rintro ⟨_, later⟩
      refine ⟨exactHere.mp fun next stepped => (later next stepped).start, ?_⟩
      intro next stepped
      have holdsNext := (later next stepped).start
      exact (inductionHypothesis (preserved state event next start stepped) holdsNext).mp
        (later next stepped)
    · rintro ⟨here, later⟩
      refine ⟨holds, ?_⟩
      intro next stepped
      have holdsNext := exactHere.mpr here next stepped
      exact (inductionHypothesis (preserved state event next start stepped) holdsNext).mpr
        (later next stepped)

/-- The system in an environment that brings about allowed events only. -/
def restrict (step : σ → ε → Option σ) (allowed : σ → ε → Prop)
    [∀ state event, Decidable (allowed state event)] (state : σ) (event : ε) : Option σ :=
  if allowed state event then step state event else none

theorem restrict_eq_some {allowed : σ → ε → Prop} [∀ state event, Decidable (allowed state event)]
    {state next : σ} {event : ε} :
    restrict step allowed state event = some next ↔ allowed state event ∧ step state event = some next := by
  simp only [restrict]
  split
  next holds => simp [holds]
  next fails => simp [fails]

/-- The system with a history variable that `record` extends at every step. -/
def withHistory (step : σ → ε → Option σ) (record : γ → σ → ε → σ → γ) (state : σ × γ)
    (event : ε) : Option (σ × γ) :=
  (step state.1 event).map fun next => (next, record state.2 state.1 event next)

theorem withHistory_eq_some {record : γ → σ → ε → σ → γ} {state next : σ × γ} {event : ε} :
    withHistory step record state event = some next ↔
      step state.1 event = some next.1 ∧ next.2 = record state.2 state.1 event next.1 := by
  simp only [withHistory, Option.map_eq_some_iff, Prod.ext_iff]
  constructor
  · rintro ⟨after, stepped, rfl, recorded⟩
    exact ⟨stepped, recorded.symm⟩
  · rintro ⟨stepped, recorded⟩
    exact ⟨next.1, stepped, rfl, recorded.symm⟩

/-- A guard that does not look at the history is met with and without it. -/
theorem stepsMeet_withHistory (record : γ → σ → ε → σ → γ) {guard : σ → ε → Prop} (state : σ)
    (history : γ) (events : List ε) :
    StepsMeet (withHistory step record) (fun state event => guard state.1 event) (state, history) events ↔
      StepsMeet step guard state events := by
  induction events generalizing state history with
  | nil => exact Iff.rfl
  | cons event rest inductionHypothesis =>
    refine and_congr Iff.rfl ⟨?_, ?_⟩
    · intro later next stepped
      exact (inductionHypothesis next _).mp
        (later (next, record history state event next) (withHistory_eq_some.mpr ⟨stepped, rfl⟩))
    · rintro later ⟨next, nextHistory⟩ stepped
      exact (inductionHypothesis next nextHistory).mpr (later next (withHistory_eq_some.mp stepped).1)

end TimeOff.Lib
