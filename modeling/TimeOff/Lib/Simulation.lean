import Mathlib.Logic.Relation
import TimeOff.Lib.Runs

/-! # Simulation between two systems

A state of the concrete system stands in a relation to a state of the abstract one, and
every concrete step is matched by abstract steps, none or several.  Then what every
abstract run keeps true is true of every concrete run, seen through the relation.
-/

set_option autoImplicit false

namespace TimeOff.Lib

variable {σ τ ε δ : Type} {step : σ → ε → Option σ} {abstractStep : τ → δ → Option τ}

theorem run_nil (state : τ) : run abstractStep state [] = some state := rfl

theorem run_singleton {state next : τ} {event : δ} (stepped : abstractStep state event = some next) :
    run abstractStep state [event] = some next :=
  run_cons.mpr ⟨next, stepped, rfl⟩

theorem run_append {state middle final : τ} {earlier later : List δ}
    (first : run abstractStep state earlier = some middle)
    (second : run abstractStep middle later = some final) :
    run abstractStep state (earlier ++ later) = some final := by
  induction earlier generalizing state with
  | nil =>
    cases first
    exact second
  | cons event rest inductionHypothesis =>
    obtain ⟨next, stepped, ran⟩ := run_cons.mp first
    exact run_cons.mpr ⟨next, stepped, inductionHypothesis ran⟩

/-- Steps that meet the guard lead from one state to the other. -/
abbrev RunsBy (step : σ → ε → Option σ) (guard : σ → ε → Prop) : σ → σ → Prop :=
  Relation.ReflTransGen fun state next => ∃ event, guard state event ∧ step state event = some next

section Guarded

variable {guard : σ → ε → Prop} {state final : σ}

theorem RunsBy.stay (state : σ) : RunsBy step guard state state := .refl

theorem RunsBy.once {event : ε} (stepped : step state event = some final) (met : guard state event) :
    RunsBy step guard state final :=
  .single ⟨event, met, stepped⟩

theorem RunsBy.mono {wider : σ → ε → Prop} (runs : RunsBy step guard state final)
    (widens : ∀ state event, guard state event → wider state event) : RunsBy step wider state final := by
  refine Relation.ReflTransGen.mono ?_ state final runs
  rintro state next ⟨event, met, stepped⟩
  exact ⟨event, widens state event met, stepped⟩

theorem RunsBy.run (runs : RunsBy step guard state final) : ∃ events, run step state events = some final := by
  induction runs using Relation.ReflTransGen.head_induction_on with
  | refl => exact ⟨[], rfl⟩
  | head stepped rest inductionHypothesis =>
    obtain ⟨event, _, stepped⟩ := stepped
    obtain ⟨events, ran⟩ := inductionHypothesis
    exact ⟨event :: events, run_cons.mpr ⟨_, stepped, ran⟩⟩

/-- What each step that meets the guard preserves, a run of them preserves. -/
theorem RunsBy.invariant {invariant : σ → Prop}
    (preserved : ∀ state event next, invariant state → guard state event →
      step state event = some next → invariant next)
    (runs : RunsBy step guard state final) (start : invariant state) : invariant final := by
  induction runs with
  | refl => exact start
  | tail earlier stepped holds =>
    obtain ⟨event, met, stepped⟩ := stepped
    exact preserved _ event _ holds met stepped

/-- Where steps bring a rank down from every state short of the goal, they lead to the goal. -/
theorem RunsBy.of_rank {invariant goal : σ → Prop} (rank : σ → ℕ)
    (descends : ∀ state, invariant state → goal state ∨
      ∃ next, RunsBy step guard state next ∧ invariant next ∧ rank next < rank state)
    (start : invariant state) : ∃ final, RunsBy step guard state final ∧ invariant final ∧ goal final := by
  -- by induction on the rank
  induction measured : rank state using Nat.strongRecOn generalizing state with
  | ind n inductionHypothesis =>
    obtain reached | ⟨next, runs, holds, lower⟩ := descends state start
    · exact ⟨state, .stay state, start, reached⟩
    · obtain ⟨final, runsOn, holdsAtEnd, reached⟩ :=
        inductionHypothesis (rank next) (measured ▸ lower) holds rfl
      exact ⟨final, runs.trans runsOn, holdsAtEnd, reached⟩

end Guarded

/-- What holds throughout a run holds at its end. -/
theorem Always.final {property : τ → Prop} {state final : τ} {events : List δ}
    (always : Always abstractStep property state events)
    (ran : run abstractStep state events = some final) : property final := by
  induction events generalizing state with
  | nil =>
    cases ran
    exact always
  | cons event rest inductionHypothesis =>
    obtain ⟨next, stepped, ranRest⟩ := run_cons.mp ran
    exact inductionHypothesis (always.2 next stepped) ranRest

/-- A guard on the events alone is met by a run of such events. -/
theorem stepsMeet_of_events {guard : ε → Prop} (state : σ) {events : List ε}
    (met : ∀ event ∈ events, guard event) : StepsMeet step (fun _ event => guard event) state events := by
  induction events generalizing state with
  | nil => trivial
  | cons event rest inductionHypothesis =>
    obtain ⟨here, later⟩ := List.forall_mem_cons.mp met
    exact ⟨here, fun next _ => inductionHypothesis next later⟩

/-- Every concrete step that keeps the guard is matched by abstract steps. -/
def Simulates (step : σ → ε → Option σ) (abstractStep : τ → δ → Option τ) (guard : σ → ε → Prop)
    (related : σ → τ → Prop) : Prop :=
  ∀ state abstract event next, related state abstract → guard state event →
    step state event = some next →
    ∃ events after, run abstractStep abstract events = some after ∧ related next after

variable {guard : σ → ε → Prop} {related : σ → τ → Prop}

/-- Each state of a concrete run stands for the end of an abstract run. -/
theorem Simulates.always (simulates : Simulates step abstractStep guard related) {start : σ} {origin : τ}
    (started : related start origin) {events : List ε} (guarded : StepsMeet step guard start events) :
    Always step (fun state => ∃ abstractEvents abstract,
      run abstractStep origin abstractEvents = some abstract ∧ related state abstract) start events := by
  refine always_of_stepsMeet _ ?_ ⟨[], origin, rfl, started⟩ guarded
  -- the abstract run so far goes on with the steps that match this one
  rintro state event next ⟨earlier, abstract, ran, relates⟩ met stepped
  obtain ⟨later, after, ranOn, relatesNext⟩ := simulates state abstract event next relates met stepped
  exact ⟨earlier ++ later, after, run_append ran ranOn, relatesNext⟩

/-- What every abstract run keeps true, the concrete runs keep true of the states they stand for. -/
theorem Simulates.transfer (simulates : Simulates step abstractStep guard related) {start : σ} {origin : τ}
    (started : related start origin) {property : τ → Prop}
    (kept : ∀ abstractEvents, Always abstractStep property origin abstractEvents) {events : List ε}
    (guarded : StepsMeet step guard start events) :
    Always step (fun state => ∃ abstract, related state abstract ∧ property abstract) start events := by
  apply (simulates.always started guarded).mono
  rintro state ⟨abstractEvents, abstract, ran, relates⟩
  exact ⟨abstract, relates, (kept abstractEvents).final ran⟩

end TimeOff.Lib
