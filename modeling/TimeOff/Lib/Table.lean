import Mathlib.Data.List.Nodup
import Mathlib.Data.List.Pairwise
import Mathlib.Tactic.Common
import TimeOff.Lib.Lockstep

/-! # Relational tables

A table is a list of rows in insertion order whose keys are pairwise distinct;
the proof of that is part of the table, so a table with a duplicate key cannot
be built.  `insertUnique` is an INSERT that the primary key may refuse, `update`
an UPDATE ... WHERE that leaves the keys alone.  A `SerialTable` assigns its
keys itself, each above every key it ever assigned (AUTOINCREMENT).
-/

set_option autoImplicit false

namespace TimeOff.Lib

/-- Rows that carry their own primary key. -/
class Keyed (α : Type) (κ : outParam Type) where
  rowKey : α → κ

export Keyed (rowKey)

/-- Rows in insertion order, no two with the same key. -/
structure Table (α : Type) {κ : Type} [Keyed α κ] where
  rows : List α
  unique : (rows.map (rowKey (α := α))).Nodup

/-- `change` on the rows that `hit` selects, the others as they are. -/
def patchRow {α : Type} (hit : α → Bool) (change : α → α) (row : α) : α :=
  if hit row then change row else row

section Rows

variable {α κ : Type} [Keyed α κ] {hit : α → Bool} {change : α → α}

theorem patchRow_of_hit {row : α} (selected : hit row = true) :
    patchRow hit change row = change row := if_pos selected

theorem patchRow_of_miss {row : α} (missed : hit row = false) : patchRow hit change row = row := by
  simp [patchRow, missed]

theorem patchRow_key (keeps : ∀ row, rowKey (change row) = rowKey row) (row : α) :
    rowKey (patchRow hit change row) = rowKey row := by
  simp only [patchRow]
  split
  · exact keeps row
  · rfl

theorem map_patchRow_key (keeps : ∀ row, rowKey (change row) = rowKey row) (rows : List α) :
    (rows.map (patchRow hit change)).map rowKey = rows.map rowKey := by
  rw [List.map_map]
  exact List.map_congr_left fun row _ => patchRow_key keeps row

/-- A column that the update leaves alone selects the same rows afterwards. -/
theorem find?_map_patchRow {select : α → Bool} (keeps : ∀ row, select (change row) = select row)
    (rows : List α) :
    (rows.map (patchRow hit change)).find? select = (rows.find? select).map (patchRow hit change) := by
  rw [List.find?_map]
  congr 2
  funext row
  simp only [Function.comp, patchRow]
  split
  · exact keeps row
  · rfl

end Rows

namespace Table

variable {α κ : Type} [Keyed α κ]

def empty : Table α := ⟨[], List.nodup_nil⟩

/-- SELECT ... WHERE key = ? -/
def find? [DecidableEq κ] (table : Table α) (key : κ) : Option α :=
  table.rows.find? fun row => rowKey row = key

/-- INSERT, refused when the key is taken. -/
def insertUnique [DecidableEq κ] (table : Table α) (row : α) : Option (Table α) :=
  if fresh : rowKey row ∈ table.rows.map rowKey then none
  else some ⟨table.rows ++ [row], by
    rw [List.map_append]
    exact table.unique.append (List.nodup_singleton _) (by simpa using fresh)⟩

/-- UPDATE ... WHERE, on columns other than the key. -/
def update (table : Table α) (hit : α → Bool) (change : α → α)
    (keeps : ∀ row, rowKey (change row) = rowKey row) : Table α :=
  ⟨table.rows.map (patchRow hit change), by rw [map_patchRow_key keeps]; exact table.unique⟩

/-- The rows without the one of this key. -/
def without [DecidableEq κ] (table : Table α) (key : κ) : List α :=
  table.rows.filter fun row => rowKey row ≠ key

/-- DELETE ... WHERE key = ? -/
def delete [DecidableEq κ] (table : Table α) (key : κ) : Table α :=
  ⟨table.without key, table.unique.sublist ((List.filter_sublist).map _)⟩

/-- INSERT OR REPLACE. -/
def insertOrReplace [DecidableEq κ] (table : Table α) (row : α) : Table α :=
  ⟨table.without (rowKey row) ++ [row], by
    rw [List.map_append]
    apply (table.unique.sublist ((List.filter_sublist).map _)).append (List.nodup_singleton _)
    simp⟩

theorem eq_of_key {table : Table α} {left right : α} (leftIn : left ∈ table.rows)
    (rightIn : right ∈ table.rows) (same : rowKey left = rowKey right) : left = right :=
  List.inj_on_of_nodup_map table.unique leftIn rightIn same

variable [DecidableEq κ]

theorem find?_eq_some {table : Table α} {key : κ} {row : α} :
    table.find? key = some row ↔ row ∈ table.rows ∧ rowKey row = key := by
  constructor
  · intro found
    exact ⟨List.mem_of_find?_eq_some found, by simpa using List.find?_some found⟩
  · rintro ⟨member, rfl⟩
    cases found : table.find? (rowKey row) with
    | none =>
      have missed := List.find?_eq_none.mp found row member
      simp at missed
    | some other =>
      have otherIn := List.mem_of_find?_eq_some found
      have same : rowKey other = rowKey row := by simpa using List.find?_some found
      rw [eq_of_key otherIn member same]

theorem find?_eq_none {table : Table α} {key : κ} :
    table.find? key = none ↔ ∀ row ∈ table.rows, rowKey row ≠ key := by
  simp [find?, List.find?_eq_none]

/-- A key selects its one row. -/
theorem filter_key {table : Table α} {row : α} (member : row ∈ table.rows) :
    table.rows.filter (fun other => rowKey other = rowKey row) = [row] := by
  -- the table is in lockstep with itself, and the keys are distinct
  have paired : List.Forall₂ Eq table.rows table.rows := List.forall₂_same.mpr fun _ _ => rfl
  have agree : ∀ first second : α, first = second → rowKey second = rowKey first := by
    rintro _ _ rfl
    rfl
  obtain ⟨_, only, rfl⟩ := lockstep_unique paired agree table.unique member
  exact only

theorem insertUnique_eq_some {table next : Table α} {row : α} :
    table.insertUnique row = some next ↔
      table.find? (rowKey row) = none ∧ next.rows = table.rows ++ [row] := by
  obtain ⟨rows, unique⟩ := next
  simp only [insertUnique]
  split
  next taken =>
    obtain ⟨other, otherIn, same⟩ := List.mem_map.mp taken
    simp only [reduceCtorEq, false_iff, not_and]
    intro absent
    exact absurd same (find?_eq_none.mp absent other otherIn)
  next fresh =>
    have absent : table.find? (rowKey row) = none := by
      rw [find?_eq_none]
      intro other otherIn same
      exact fresh (List.mem_map.mpr ⟨other, otherIn, same⟩)
    simp [absent, eq_comm]

/-- A key that is not taken is not refused. -/
theorem insertUnique_total {table : Table α} {row : α} (fresh : table.find? (rowKey row) = none) :
    ∃ next, table.insertUnique row = some next := by
  have absent : rowKey row ∉ table.rows.map rowKey := by
    intro taken
    obtain ⟨other, otherIn, same⟩ := List.mem_map.mp taken
    exact find?_eq_none.mp fresh other otherIn same
  exact ⟨_, dif_neg absent⟩

theorem find?_insert {table next : Table α} {row : α} (inserted : table.insertUnique row = some next)
    (key : κ) : next.find? key = if rowKey row = key then some row else table.find? key := by
  obtain ⟨absent, rows⟩ := insertUnique_eq_some.mp inserted
  simp only [find?] at absent ⊢
  rw [rows, List.find?_append]
  split
  next same =>
    subst same
    rw [absent]
    simp
  next other => simp [other]

theorem find?_delete (table : Table α) (deleted key : κ) :
    (table.delete deleted).find? key = if deleted = key then none else table.find? key := by
  simp only [find?, delete, without, List.find?_filter]
  by_cases same : deleted = key
  · subst same
    simp
  · rw [if_neg same]
    congr 1
    funext row
    by_cases own : rowKey row = key
    · subst own
      simp [Ne.symm same]
    · simp [own]

theorem find?_insertOrReplace (table : Table α) (row : α) (key : κ) :
    (table.insertOrReplace row).find? key = if rowKey row = key then some row else table.find? key := by
  have others := find?_delete table (rowKey row) key
  simp only [find?, delete] at others
  simp only [find?, insertOrReplace, List.find?_append, others]
  by_cases same : rowKey row = key
  · simp [same]
  · simp [same]

theorem find?_update (table : Table α) (hit : α → Bool) (change : α → α)
    (keeps : ∀ row, rowKey (change row) = rowKey row) (key : κ) :
    (table.update hit change keeps).find? key = (table.find? key).map (patchRow hit change) := by
  cases found : table.find? key with
  | none =>
    rw [Option.map_none, find?_eq_none]
    intro row member
    obtain ⟨before, beforeIn, rfl⟩ := List.mem_map.mp member
    rw [patchRow_key keeps]
    exact find?_eq_none.mp found before beforeIn
  | some row =>
    obtain ⟨member, same⟩ := find?_eq_some.mp found
    rw [Option.map_some, find?_eq_some]
    exact ⟨List.mem_map_of_mem member, by rw [patchRow_key keeps]; exact same⟩

end Table

/-- Rows whose keys the table hands out in ascending order, never twice. -/
structure SerialTable (α : Type) [Keyed α Nat] extends Table α where
  lastId : Nat
  ascending : rows.Pairwise fun earlier later => rowKey earlier < rowKey later
  bounded : ∀ row ∈ rows, rowKey row ≤ lastId

namespace SerialTable

variable {α : Type} [Keyed α Nat]

def empty : SerialTable α := ⟨Table.empty, 0, .nil, by simp [Table.empty]⟩

/-- INSERT of the row that `make` builds for the next id. -/
def append (table : SerialTable α) (make : Nat → α) (assigned : ∀ id, rowKey (make id) = id) :
    SerialTable α where
  rows := table.rows ++ [make (table.lastId + 1)]
  unique := by
    rw [List.map_append]
    apply table.unique.append (List.nodup_singleton _)
    simp only [List.disjoint_singleton, List.mem_map, assigned]
    rintro ⟨row, member, same⟩
    -- no key that was ever handed out is above `lastId`
    have bound := table.bounded row member
    omega
  lastId := table.lastId + 1
  ascending := by
    rw [List.pairwise_append]
    refine ⟨table.ascending, List.pairwise_singleton _ _, ?_⟩
    intro row member new isNew
    rw [List.mem_singleton.mp isNew, assigned]
    exact Nat.lt_succ_of_le (table.bounded row member)
  bounded := by
    intro row member
    cases List.mem_append.mp member with
    | inl old => exact Nat.le_succ_of_le (table.bounded row old)
    | inr new =>
      rw [List.mem_singleton.mp new]
      exact Nat.le_of_eq (assigned _)

/-- UPDATE ... WHERE, on columns other than the id. -/
def update (table : SerialTable α) (hit : α → Bool) (change : α → α)
    (keeps : ∀ row, rowKey (change row) = rowKey row) : SerialTable α where
  toTable := table.toTable.update hit change keeps
  lastId := table.lastId
  ascending := by
    refine List.pairwise_map.mpr (table.ascending.imp ?_)
    intro earlier later before
    rwa [patchRow_key keeps, patchRow_key keeps]
  bounded := by
    intro row member
    obtain ⟨before, beforeIn, rfl⟩ := List.mem_map.mp member
    rw [patchRow_key keeps]
    exact table.bounded before beforeIn

variable {table : SerialTable α} {hit : α → Bool} {change : α → α}
  {keeps : ∀ row, rowKey (change row) = rowKey row}

@[simp] theorem rows_empty : (empty : SerialTable α).rows = [] := rfl

@[simp] theorem rows_append (make : Nat → α) (assigned : ∀ id, rowKey (make id) = id) :
    (table.append make assigned).rows = table.rows ++ [make (table.lastId + 1)] := rfl

@[simp] theorem rows_update :
    (table.update hit change keeps).rows = table.rows.map (patchRow hit change) := rfl

/-- A row after an update is a changed one, or an old one that the update missed. -/
theorem exists_of_mem_update {row : α} (member : row ∈ (table.update hit change keeps).rows) :
    ∃ before ∈ table.rows, hit before = true ∧ row = change before ∨ hit before = false ∧ row = before := by
  obtain ⟨before, beforeIn, rfl⟩ := List.mem_map.mp member
  refine ⟨before, beforeIn, ?_⟩
  cases selected : hit before with
  | true => exact .inl ⟨rfl, patchRow_of_hit selected⟩
  | false => exact .inr ⟨rfl, patchRow_of_miss selected⟩

/-- A row that an update misses is still there. -/
theorem mem_update_of_miss {row : α} (member : row ∈ table.rows) (missed : hit row = false) :
    row ∈ (table.update hit change keeps).rows :=
  List.mem_map.mpr ⟨row, member, patchRow_of_miss missed⟩

theorem mem_update_of_hit {row : α} (member : row ∈ table.rows) (selected : hit row = true) :
    change row ∈ (table.update hit change keeps).rows :=
  List.mem_map.mpr ⟨row, member, patchRow_of_hit selected⟩

end SerialTable

end TimeOff.Lib
