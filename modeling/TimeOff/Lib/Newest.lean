import Mathlib.Data.List.MinMax

/-! # The newest row

Rows arrive one by one, each dated by an instant.  The newest is the one of
the greatest instant, the last of these when several share it; it is found by
holding on to one row and letting the next replace it unless that is older.
Which instant wins does not depend on the order of arrival.
-/

set_option autoImplicit false

namespace TimeOff.Lib

variable {α ι : Type} [LinearOrder ι] (instant : α → ι)

/-- The row of the greatest instant, the last one to arrive among equals. -/
def newest (rows : List α) : Option α := rows.reverse.argmax instant

variable {instant} {rows : List α}

@[simp] theorem newest_nil : newest instant [] = none := rfl

/-- The next row replaces the one held unless it is older. -/
theorem newest_concat (instant : α → ι) (rows : List α) (next : α) : newest instant (rows ++ [next]) =
    match newest instant rows with
    | none => some next
    | some held => if instant next < instant held then some held else some next := by
  simp only [newest]
  rw [List.reverse_append, List.reverse_singleton, List.singleton_append, List.argmax_cons]
  cases rows.reverse.argmax instant <;> rfl

theorem newest_mem {row : α} (isNewest : newest instant rows = some row) : row ∈ rows :=
  List.mem_reverse.mp (List.argmax_mem isNewest)

theorem newest_eq_none : newest instant rows = none ↔ rows = [] := by
  simp [newest]

theorem instant_le_newest {row other : α} (isNewest : newest instant rows = some row)
    (member : other ∈ rows) : instant other ≤ instant row :=
  List.le_of_mem_argmax (List.mem_reverse.mpr member) isNewest

/-- What rows of one instant share is, for the newest row, the same in every order of arrival. -/
theorem newest_perm {β : Type} {value : α → β} {others : List α} (perm : rows.Perm others)
    (agree : ∀ left ∈ rows, ∀ right ∈ rows, instant left = instant right → value left = value right) :
    (newest instant rows).map value = (newest instant others).map value := by
  cases first : newest instant rows with
  | none =>
    obtain rfl := newest_eq_none.mp first
    rw [List.nil_perm.mp perm]
    rfl
  | some left =>
    cases second : newest instant others with
    | none =>
      rw [newest_eq_none.mp second, List.perm_nil] at perm
      cases perm ▸ newest_mem first
    | some right =>
      -- either row is a greatest one of the same rows
      have rightIn : right ∈ rows := perm.mem_iff.mpr (newest_mem second)
      have same : instant left = instant right :=
        le_antisymm (instant_le_newest second (perm.mem_iff.mp (newest_mem first)))
          (instant_le_newest first rightIn)
      exact congrArg some (agree left (newest_mem first) right rightIn same)

end TimeOff.Lib
