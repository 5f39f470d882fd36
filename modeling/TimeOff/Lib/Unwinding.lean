import Mathlib.Tactic.Common

/-! # What an observer can tell of a run

Operations answer and change a state.  Some of them concern an observer;
`purge` leaves out the others.  The observer can not tell the purged run from
the whole one when the operations that do not concern it leave its view alone
and those that do concern it depend on nothing but its view (`unwinding`).
What the operations still to come take for granted of a state is carried along.
-/

set_option autoImplicit false

namespace TimeOff.Lib

variable {σ ω α : Type} (perform : ω → σ → α × σ) (concerns : σ → ω → Bool)

/-- The state after the operations. -/
def performAll (ops : List ω) (state : σ) : σ := ops.foldl (fun state op => (perform op state).2) state

/-- What the operations answer, one after the other. -/
def answers : List ω → σ → List α
  | [], _ => []
  | op :: rest, state => (perform op state).1 :: answers rest (perform op state).2

/-- The operations that concern the observer in the state in which the run reaches them. -/
def purge : List ω → σ → List ω
  | [], _ => []
  | op :: rest, state =>
    if concerns state op then op :: purge rest (perform op state).2 else purge rest (perform op state).2

/-- What the operations that concern the observer answer. -/
def heard : List ω → σ → List α
  | [], _ => []
  | op :: rest, state =>
    if concerns state op then (perform op state).1 :: heard rest (perform op state).2
    else heard rest (perform op state).2

variable {perform concerns}

theorem performAll_cons (op : ω) (rest : List ω) (state : σ) :
    performAll perform (op :: rest) state = performAll perform rest (perform op state).2 := rfl

/-- The whole run and the purged run, from states that look alike, answer the observer the same and
end in states that look alike. -/
theorem unwinding (ready : List ω → σ → Prop) (alike : σ → σ → Prop)
    (trans : ∀ {first second third}, alike first second → alike second third → alike first third)
    (performed : ∀ op rest state, ready (op :: rest) state → ready rest (perform op state).2)
    (skipped : ∀ op rest state, ready (op :: rest) state → ready rest state)
    (respects : ∀ op rest state, ready (op :: rest) state → concerns state op = false →
      alike (perform op state).2 state)
    (consistent : ∀ op rest state other, ready (op :: rest) state → ready (op :: rest) other →
      concerns state op = true → alike state other →
      (perform op state).1 = (perform op other).1 ∧ alike (perform op state).2 (perform op other).2)
    {ops : List ω} {state other : σ} (here : ready ops state) (there : ready ops other)
    (start : alike state other) :
    heard perform concerns ops state = answers perform (purge perform concerns ops state) other ∧
      alike (performAll perform ops state) (performAll perform (purge perform concerns ops state) other) := by
  induction ops generalizing state other with
  | nil => exact ⟨rfl, start⟩
  | cons op rest inductionHypothesis =>
    have hereAfter := performed op rest state here
    simp only [heard, purge, performAll_cons]
    cases judged : concerns state op with
    | true =>
      obtain ⟨same, next⟩ := consistent op rest state other here there judged start
      obtain ⟨later, final⟩ := inductionHypothesis hereAfter (performed op rest other there) next
      simp only [if_true, answers, performAll_cons]
      exact ⟨by rw [same, later], final⟩
    | false =>
      -- the purged run stays where it is
      have next := trans (respects op rest state here judged) start
      simp only [Bool.false_eq_true, if_false]
      exact inductionHypothesis hereAfter (skipped op rest other there) next

end TimeOff.Lib
