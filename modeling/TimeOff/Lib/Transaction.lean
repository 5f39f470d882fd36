import Mathlib.Tactic.Common

/-! # Atomic transactions over a store

A transaction body reads and writes a working copy of the store and either
returns or throws.  `transaction` runs a body atomically: its writes are kept
when it returns and dropped when it throws.  The inversion lemmas take a body
that returned apart, one statement at a time, so that no proof has to unfold
the state-and-exception monad.
-/

set_option autoImplicit false

namespace TimeOff.Lib

/-- A transaction body over the store `σ` that may throw an `ε`. -/
abbrev Tx (σ ε : Type) := StateT σ (Except ε)

variable {σ ε α β : Type}

namespace Tx

/-- Read from the working copy. -/
def query (view : σ → α) : Tx σ ε α := fun store => .ok (view store, store)

/-- Overwrite the working copy. -/
def write (change : σ → σ) : Tx σ ε Unit := fun store => .ok ((), change store)

/-- Throw `failure` unless `condition` holds. -/
def require (condition : Prop) [Decidable condition] (failure : ε) : Tx σ ε Unit :=
  if condition then pure () else throw failure

/-- The value of an option, or `failure` when there is none. -/
def orThrow (value : Option α) (failure : ε) : Tx σ ε α :=
  match value with
  | some a => pure a
  | none => throw failure

theorem bind_ok {body : Tx σ ε α} {next : α → Tx σ ε β} {store : σ} {result : β × σ} :
    (body >>= next) store = .ok result ↔
      ∃ a middle, body store = .ok (a, middle) ∧ next a middle = .ok result := by
  simp only [Bind.bind, StateT.bind, Except.bind]
  cases body store with
  | error failure => simp
  | ok outcome => simp [Prod.ext_iff]

theorem pure_run (a : α) (store : σ) : (pure a : Tx σ ε α) store = .ok (a, store) := rfl

@[simp] theorem pure_ok {a : α} {store : σ} {result : α × σ} :
    (pure a : Tx σ ε α) store = .ok result ↔ (a, store) = result := by
  rw [pure_run, Except.ok.injEq]

@[simp] theorem throw_ok {failure : ε} {store : σ} {result : α × σ} :
    (throw failure : Tx σ ε α) store = .ok result ↔ False := by
  simp [throw, throwThe, MonadExceptOf.throw, StateT.lift, Bind.bind, Except.bind]

@[simp] theorem query_ok {view : σ → α} {store : σ} {result : α × σ} :
    (query view : Tx σ ε α) store = .ok result ↔ (view store, store) = result := by
  simp only [query, Except.ok.injEq]

@[simp] theorem write_ok {change : σ → σ} {store : σ} {result : Unit × σ} :
    (write change : Tx σ ε Unit) store = .ok result ↔ ((), change store) = result := by
  simp only [write, Except.ok.injEq]

@[simp] theorem require_ok {condition : Prop} [Decidable condition] {failure : ε} {store : σ}
    {result : Unit × σ} :
    (require condition failure : Tx σ ε Unit) store = .ok result ↔
      condition ∧ ((), store) = result := by
  simp only [require]
  split
  next holds => simp [holds]
  next fails => simp [fails]

@[simp] theorem orThrow_ok {value : Option α} {failure : ε} {store : σ} {result : α × σ} :
    (orThrow value failure : Tx σ ε α) store = .ok result ↔
      value = some result.1 ∧ store = result.2 := by
  cases value with
  | none => simp [orThrow]
  | some b => simp [orThrow, Prod.ext_iff]

theorem bind_error {body : Tx σ ε α} {next : α → Tx σ ε β} {store : σ} {failure : ε} :
    (body >>= next) store = .error failure ↔ body store = .error failure ∨
      ∃ a middle, body store = .ok (a, middle) ∧ next a middle = .error failure := by
  simp only [Bind.bind, StateT.bind, Except.bind]
  cases body store with
  | error other => simp
  | ok outcome => simp [Prod.ext_iff]

@[simp] theorem pure_error {a : α} {store : σ} {failure : ε} :
    (pure a : Tx σ ε α) store = .error failure ↔ False := by
  rw [pure_run]
  exact ⟨nofun, False.elim⟩

@[simp] theorem write_error {change : σ → σ} {store : σ} {failure : ε} :
    (write change : Tx σ ε Unit) store = .error failure ↔ False := by
  simp only [write, reduceCtorEq]

@[simp] theorem query_error {view : σ → α} {store : σ} {failure : ε} :
    (query view : Tx σ ε α) store = .error failure ↔ False := by
  simp only [query, reduceCtorEq]

@[simp] theorem require_error {condition : Prop} [Decidable condition] {failure other : ε} {store : σ} :
    (require condition failure : Tx σ ε Unit) store = .error other ↔ ¬ condition ∧ failure = other := by
  by_cases holds : condition
  · simp [require, holds, pure_run]
  · simp only [require, holds, if_false, not_false_eq_true, true_and]
    exact Except.error.injEq failure other ▸ Iff.rfl

@[simp] theorem orThrow_error {value : Option α} {failure other : ε} {store : σ} :
    (orThrow value failure : Tx σ ε α) store = .error other ↔ value = none ∧ failure = other := by
  cases value with
  | none =>
    simp only [orThrow, true_and]
    exact Except.error.injEq failure other ▸ Iff.rfl
  | some b => simp [orThrow, pure_run]

end Tx

/-- Run `body` atomically: commit what it wrote when it returns, roll back when it throws. -/
def transaction (body : Tx σ ε α) (store : σ) : Except ε α × σ :=
  match body store with
  | .ok (a, after) => (.ok a, after)
  | .error failure => (.error failure, store)

/-- A transaction either commits the result of its body or leaves the store as it was. -/
theorem transaction_cases (body : Tx σ ε α) (store : σ) :
    (∃ a after, body store = .ok (a, after) ∧ transaction body store = (.ok a, after)) ∨
      ∃ failure, body store = .error failure ∧ transaction body store = (.error failure, store) := by
  simp only [transaction]
  cases outcome : body store with
  | error failure => exact .inr ⟨failure, rfl, rfl⟩
  | ok result => exact .inl ⟨result.1, result.2, rfl, rfl⟩

theorem transaction_ok {body : Tx σ ε α} {store after : σ} {a : α} :
    transaction body store = (.ok a, after) ↔ body store = .ok (a, after) := by
  simp only [transaction]
  cases outcome : body store with
  | error failure => simp
  | ok result => simp [Prod.ext_iff]

theorem transaction_error {body : Tx σ ε α} {store after : σ} {failure : ε} :
    transaction body store = (.error failure, after) ↔ body store = .error failure ∧ after = store := by
  simp only [transaction]
  cases outcome : body store with
  | error other => simp [eq_comm]
  | ok result => simp

/-- What every committed body establishes and every rollback keeps holds after the transaction. -/
theorem transaction_rule {body : Tx σ ε α} {store : σ} (post : Except ε α → σ → Prop)
    (committed : ∀ a after, body store = .ok (a, after) → post (.ok a) after)
    (rolledBack : ∀ failure, body store = .error failure → post (.error failure) store) :
    post (transaction body store).1 (transaction body store).2 := by
  obtain ⟨a, after, ran, result⟩ | ⟨failure, threw, result⟩ := transaction_cases body store
  · rw [result]
    exact committed a after ran
  · rw [result]
    exact rolledBack failure threw

end TimeOff.Lib
