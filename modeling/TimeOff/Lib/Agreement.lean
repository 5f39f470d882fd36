import TimeOff.Lib.Transaction

/-! # Two transactions that agree

`Agree pre left right post` compares two bodies on two stores: from stores
related by `pre` they throw the same failure, or both return, and `post` relates
what they return and the stores they leave.  The rules follow the statements of
a body one after the other.
-/

set_option autoImplicit false

namespace TimeOff.Lib

variable {σ ε α β γ δ : Type}

/-- Both outcomes are the same failure, or results that `post` relates. -/
def Agreed (post : α → β → σ → σ → Prop) : Except ε (α × σ) → Except ε (β × σ) → Prop
  | .ok (a, first), .ok (b, second) => post a b first second
  | .error failure, .error other => failure = other
  | _, _ => False

theorem Agreed.cases {post : α → β → σ → σ → Prop} {left : Except ε (α × σ)} {right : Except ε (β × σ)}
    (agreed : Agreed post left right) :
    (∃ a b first second, left = .ok (a, first) ∧ right = .ok (b, second) ∧ post a b first second) ∨
    ∃ failure, left = .error failure ∧ right = .error failure := by
  cases left with
  | error failure =>
    cases right with
    | error other =>
      cases agreed
      exact .inr ⟨failure, rfl, rfl⟩
    | ok result => cases agreed
  | ok result =>
    cases right with
    | error other => cases agreed
    | ok other => exact .inl ⟨result.1, other.1, result.2, other.2, rfl, rfl, agreed⟩

def Agree (pre : σ → σ → Prop) (left : Tx σ ε α) (right : Tx σ ε β) (post : α → β → σ → σ → Prop) :
    Prop :=
  ∀ first second, pre first second → Agreed post (left first) (right second)

namespace Agree

variable {pre : σ → σ → Prop} {left : Tx σ ε α} {right : Tx σ ε β} {post : α → β → σ → σ → Prop}

theorem pure {a : α} {b : β} (related : ∀ first second, pre first second → post a b first second) :
    Agree pre (Pure.pure a : Tx σ ε α) (Pure.pure b) post :=
  related

theorem bind {nextLeft : α → Tx σ ε γ} {nextRight : β → Tx σ ε δ} {final : γ → δ → σ → σ → Prop}
    (here : Agree pre left right post)
    (later : ∀ a b, Agree (post a b) (nextLeft a) (nextRight b) final) :
    Agree pre (left >>= nextLeft) (right >>= nextRight) final := by
  intro first second related
  show Agreed final (Except.bind (left first) _) (Except.bind (right second) _)
  cases (here first second related).cases with
  | inl returned =>
    obtain ⟨a, b, firstAfter, secondAfter, ranLeft, ranRight, holds⟩ := returned
    rw [ranLeft, ranRight]
    exact later a b firstAfter secondAfter holds
  | inr threw =>
    obtain ⟨failure, threwLeft, threwRight⟩ := threw
    rw [threwLeft, threwRight]
    rfl

theorem query {view : σ → α} {otherView : σ → β}
    (related : ∀ first second, pre first second → post (view first) (otherView second) first second) :
    Agree pre (Tx.query view : Tx σ ε α) (Tx.query otherView) post :=
  related

theorem write {change otherChange : σ → σ} {post : Unit → Unit → σ → σ → Prop}
    (related : ∀ first second, pre first second → post () () (change first) (otherChange second)) :
    Agree pre (Tx.write change : Tx σ ε Unit) (Tx.write otherChange) post :=
  related

/-- A check of the same condition that throws the same failure. -/
theorem require {condition : Prop} [Decidable condition] {failure : ε}
    {post : Unit → Unit → σ → σ → Prop}
    (related : condition → ∀ first second, pre first second → post () () first second) :
    Agree pre (Tx.require condition failure) (Tx.require condition failure) post := by
  intro first second holds
  by_cases met : condition
  · simp only [Tx.require, met, if_true]
    exact related met first second holds
  · simp only [Tx.require, met, if_false]
    rfl

/-- Options that are both there or both missing. -/
theorem orThrow {value : Option α} {other : Option β} {failure : ε}
    (same : value.isSome = other.isSome)
    (related : ∀ a b, value = some a → other = some b →
      ∀ first second, pre first second → post a b first second) :
    Agree pre (Tx.orThrow value failure) (Tx.orThrow other failure) post := by
  intro first second holds
  cases value with
  | none =>
    cases other with
    | none => rfl
    | some b => cases same
  | some a =>
    cases other with
    | none => cases same
    | some b => exact related a b rfl rfl first second holds

/-- Both sides take the value of the same option. -/
theorem take {value : Option α} {failure : ε} :
    Agree pre (Tx.orThrow value failure) (Tx.orThrow value failure)
      fun a b first second => (value = some a ∧ a = b) ∧ pre first second := by
  apply orThrow rfl
  intro a b is_a is_b first second holds
  exact ⟨⟨is_a, Option.some.inj (is_a.symm.trans is_b)⟩, holds⟩

theorem check {condition : Prop} [Decidable condition] {failure : ε} :
    Agree pre (Tx.require condition failure) (Tx.require condition failure) fun _ _ => pre :=
  require fun _ _ _ holds => holds

/-- What is known of the values at hand is used from here on. -/
theorem given {fact : Prop} (agree : fact → Agree pre left right post) :
    Agree (fun first second => fact ∧ pre first second) left right post :=
  fun first second holds => agree holds.1 first second holds.2

theorem strengthen {stronger : σ → σ → Prop} (agree : Agree pre left right post)
    (implies : ∀ first second, stronger first second → pre first second) :
    Agree stronger left right post :=
  fun first second holds => agree first second (implies first second holds)

/-- Two bodies that are known to return. -/
theorem of_ok (related : ∀ first second, pre first second → ∃ a b firstAfter secondAfter,
    left first = .ok (a, firstAfter) ∧ right second = .ok (b, secondAfter) ∧
      post a b firstAfter secondAfter) : Agree pre left right post := by
  intro first second holds
  obtain ⟨a, b, firstAfter, secondAfter, ranLeft, ranRight, after⟩ := related first second holds
  rw [ranLeft, ranRight]
  exact after

end Agree

/-- Two transactions that agree commit results that are related, or both roll back. -/
theorem transaction_agree {pre : σ → σ → Prop} {left : Tx σ ε α} {right : Tx σ ε β}
    {post : α → β → σ → σ → Prop} (agree : Agree pre left right post) {first second : σ}
    (related : pre first second) :
    (∃ a b firstAfter secondAfter, transaction left first = (.ok a, firstAfter) ∧
      transaction right second = (.ok b, secondAfter) ∧ post a b firstAfter secondAfter) ∨
    ∃ failure, transaction left first = (.error failure, first) ∧
      transaction right second = (.error failure, second) := by
  simp only [transaction]
  cases (agree first second related).cases with
  | inl returned =>
    obtain ⟨a, b, firstAfter, secondAfter, ranLeft, ranRight, held⟩ := returned
    rw [ranLeft, ranRight]
    exact .inl ⟨a, b, firstAfter, secondAfter, rfl, rfl, held⟩
  | inr threw =>
    obtain ⟨failure, threwLeft, threwRight⟩ := threw
    rw [threwLeft, threwRight]
    exact .inr ⟨failure, rfl, rfl⟩

end TimeOff.Lib
