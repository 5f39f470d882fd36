import Mathlib.Data.List.Sort

/-! # Stable sorting and selections

An insertion sort keeps the order of the list among elements that the relation does not tell
apart.  So it can be taken before or after a selection, and an element that nothing of the
list has to stand behind goes to the end.
-/

set_option autoImplicit false

namespace TimeOff.Lib

variable {α : Type} {r : α → α → Prop} [DecidableRel r]

/-- An element that stands before all others is inserted in front. -/
theorem orderedInsert_front {x : α} {l : List α} (before : ∀ a ∈ l, r x a) : l.orderedInsert r x = x :: l := by
  cases l with
  | nil => rfl
  | cons a rest => exact List.orderedInsert_cons_of_le r rest (before a List.mem_cons_self)

theorem orderedInsert_concat {a x : α} {l : List α} (inOrder : r a x) :
    (l ++ [x]).orderedInsert r a = l.orderedInsert r a ++ [x] := by
  induction l with
  | nil => exact List.orderedInsert_cons_of_le r [] inOrder
  | cons b rest inductionHypothesis =>
    simp only [List.cons_append, List.orderedInsert_cons]
    split
    · rfl
    · rw [inductionHypothesis, List.cons_append]

/-- What may stand behind everything is sorted to the end. -/
theorem insertionSort_concat {x : α} {l : List α} (behind : ∀ a ∈ l, r a x) :
    (l ++ [x]).insertionSort r = l.insertionSort r ++ [x] := by
  induction l with
  | nil => rfl
  | cons a rest inductionHypothesis =>
    obtain ⟨here, later⟩ := List.forall_mem_cons.mp behind
    simp only [List.cons_append, List.insertionSort_cons]
    rw [inductionHypothesis later, orderedInsert_concat here]

/-- Inserting into a sorted list and selecting from it can be exchanged. -/
theorem filter_orderedInsert [IsTrans α r] {select : α → Bool} {x : α} {l : List α} (sorted : l.Pairwise r) :
    (l.orderedInsert r x).filter select =
      if select x then (l.filter select).orderedInsert r x else l.filter select := by
  induction l with
  | nil =>
    simp only [List.orderedInsert_nil, List.filter_nil, List.filter_singleton]
    cases select x <;> rfl
  | cons b rest inductionHypothesis =>
    obtain ⟨first, sortedRest⟩ := List.pairwise_cons.mp sorted
    rw [List.orderedInsert_cons]
    split
    next inOrder =>
      -- `x` stands before `b`, so before all that is behind `b`
      have front : ((b :: rest).filter select).orderedInsert r x = x :: (b :: rest).filter select := by
        apply orderedInsert_front
        intro a member
        obtain rfl | later := List.mem_cons.mp (List.mem_of_mem_filter member)
        · exact inOrder
        · exact trans_of r inOrder (first a later)
      rw [front, List.filter_cons]
    next outOfOrder =>
      rw [List.filter_cons, inductionHypothesis sortedRest, List.filter_cons]
      cases selected : select b with
      | false => rfl
      | true =>
        cases select x with
        | false => rfl
        | true =>
          simp only [if_true]
          rw [List.orderedInsert_of_not_le r _ outOfOrder]

/-- The selected elements of a sorted list are sorted among themselves. -/
theorem filter_insertionSort [IsTrans α r] [Std.Total r] (select : α → Bool) (l : List α) :
    (l.insertionSort r).filter select = (l.filter select).insertionSort r := by
  induction l with
  | nil => rfl
  | cons a rest inductionHypothesis =>
    rw [List.insertionSort_cons, filter_orderedInsert (List.pairwise_insertionSort r rest), inductionHypothesis,
      List.filter_cons]
    split
    · rw [List.insertionSort_cons]
    · rfl

end TimeOff.Lib
