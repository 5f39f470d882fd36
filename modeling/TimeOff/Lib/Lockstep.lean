import Mathlib.Data.List.Forall2
import Mathlib.Data.List.Nodup
import Mathlib.Tactic.Common

/-! # Lists in lockstep

Two lists whose elements are related one by one, as the rows of two tables
that always grow together.  What is kept pairwise is kept by the lists, and an
element of one side picks out exactly one of the other by its key.
-/

set_option autoImplicit false

namespace TimeOff.Lib

variable {α β κ : Type} {related : α → β → Prop} {left : List α} {right : List β}

theorem lockstep_append (lockstep : List.Forall₂ related left right) {a : α} {b : β}
    (last : related a b) : List.Forall₂ related (left ++ [a]) (right ++ [b]) := by
  induction lockstep with
  | nil => exact .cons last .nil
  | cons first rest inductionHypothesis => exact .cons first inductionHypothesis

/-- Only the pairs that are in the lists have to be kept. -/
theorem lockstep_map {f : α → α} {g : β → β} (lockstep : List.Forall₂ related left right)
    (kept : ∀ a ∈ left, ∀ b, related a b → related (f a) (g b)) :
    List.Forall₂ related (left.map f) (right.map g) := by
  induction lockstep with
  | nil => exact .nil
  | cons first rest inductionHypothesis =>
    refine .cons (kept _ List.mem_cons_self _ first) (inductionHypothesis ?_)
    intro a member b pair
    exact kept a (List.mem_cons_of_mem _ member) b pair

theorem lockstep_filter_map {γ : Type} {chosen : α → Bool} {selected : β → Bool} {value : α → γ}
    {weight : β → γ} (lockstep : List.Forall₂ related left right)
    (agree : ∀ a b, related a b → selected b = chosen a ∧ weight b = value a) :
    (right.filter selected).map weight = (left.filter chosen).map value := by
  induction lockstep with
  | nil => rfl
  | cons first rest inductionHypothesis =>
    obtain ⟨same, weighs⟩ := agree _ _ first
    rw [List.filter_cons, List.filter_cons, same]
    split
    · rw [List.map_cons, List.map_cons, weighs, inductionHypothesis]
    · exact inductionHypothesis

variable {keyOf : α → κ} {refersTo : β → κ}

theorem lockstep_refers (lockstep : List.Forall₂ related left right)
    (agree : ∀ a b, related a b → refersTo b = keyOf a) : right.map refersTo = left.map keyOf := by
  induction lockstep with
  | nil => rfl
  | cons first rest inductionHypothesis =>
    rw [List.map_cons, List.map_cons, agree _ _ first, inductionHypothesis]

/-- With distinct keys on the left, each element there has exactly one partner. -/
theorem lockstep_unique [DecidableEq κ] (lockstep : List.Forall₂ related left right)
    (agree : ∀ a b, related a b → refersTo b = keyOf a) (distinct : (left.map keyOf).Nodup) {a : α}
    (member : a ∈ left) :
    ∃ b, right.filter (fun other => refersTo other = keyOf a) = [b] ∧ related a b := by
  induction lockstep with
  | nil => cases member
  | @cons first partner lefts rights pair rest inductionHypothesis =>
    rw [List.map_cons, List.nodup_cons] at distinct
    obtain ⟨absent, distinctRest⟩ := distinct
    have references := lockstep_refers rest agree
    obtain rfl | later := List.mem_cons.mp member
    -- the head: its key is not among those of the rest
    · refine ⟨partner, ?_, pair⟩
      have noOther : rights.filter (fun other => refersTo other = keyOf a) = [] := by
        rw [List.filter_eq_nil_iff]
        intro other otherIn same
        rw [decide_eq_true_eq] at same
        rw [← references, ← same] at absent
        exact absent (List.mem_map_of_mem otherIn)
      rw [List.filter_cons_of_pos (by simpa using agree _ _ pair), noOther]
    -- further on: the head's partner refers to another key
    · obtain ⟨b, only, relatedPair⟩ := inductionHypothesis distinctRest later
      refine ⟨b, ?_, relatedPair⟩
      have different : refersTo partner ≠ keyOf a := by
        rw [agree _ _ pair]
        intro same
        exact absent (same ▸ List.mem_map_of_mem later)
      rw [List.filter_cons_of_neg (by simpa using different), only]

end TimeOff.Lib
