import Mathlib.Data.List.Chain

/-! # Paths written down as a list of steps

A log that keeps the value before and after each change describes a path when
the first entry starts where the path does, every entry takes up where the one
before it left off, and the last one ends where the path is now.
-/

set_option autoImplicit false

namespace TimeOff.Lib

variable {σ : Type} {edge : σ → σ → Prop}

/-- The steps lead from `start` to `final`, each along an edge. -/
def Path (edge : σ → σ → Prop) : σ → List (σ × σ) → σ → Prop
  | start, [], final => start = final
  | start, (before, after) :: rest, final => before = start ∧ edge before after ∧ Path edge after rest final

theorem Path.append {start middle final : σ} {first second : List (σ × σ)}
    (left : Path edge start first middle) (right : Path edge middle second final) :
    Path edge start (first ++ second) final := by
  induction first generalizing start with
  | nil =>
    cases left
    exact right
  | cons step rest inductionHypothesis =>
    obtain ⟨here, along, later⟩ := left
    exact ⟨here, along, inductionHypothesis later⟩

/-- A path that runs on goes on from where its first part ends. -/
theorem Path.rest {start middle final : σ} {first second : List (σ × σ)}
    (left : Path edge start first middle) (whole : Path edge start (first ++ second) final) :
    Path edge middle second final := by
  induction first generalizing start with
  | nil =>
    cases left
    exact whole
  | cons step rest inductionHypothesis => exact inductionHypothesis left.2.2 whole.2.2

/-- A path ends where it starts, or where one of its steps does. -/
theorem Path.final_cases {start final : σ} {steps : List (σ × σ)} (path : Path edge start steps final) :
    final = start ∨ ∃ step ∈ steps, step.2 = final := by
  induction steps generalizing start with
  | nil => exact .inl path.symm
  | cons step rest inductionHypothesis =>
    right
    cases inductionHypothesis path.2.2 with
    | inl same => exact ⟨step, List.mem_cons_self, same.symm⟩
    | inr later =>
      obtain ⟨other, member, ends⟩ := later
      exact ⟨other, List.mem_cons_of_mem _ member, ends⟩

/-- From where no edge leads on, a path stays. -/
theorem Path.stays {start final : σ} {steps : List (σ × σ)} (path : Path edge start steps final)
    (terminal : ∀ after, ¬ edge start after) : final = start := by
  cases steps with
  | nil => exact path.symm
  | cons step rest =>
    obtain ⟨rfl, along, _⟩ := path
    exact absurd along (terminal _)

theorem Path.step {before after : σ} (along : edge before after) :
    Path edge before [(before, after)] after :=
  ⟨rfl, along, rfl⟩

end TimeOff.Lib
