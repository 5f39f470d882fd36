import Mathlib.Data.List.Induction
import Mathlib.Logic.Function.Basic
import Mathlib.Order.WithBot
import Mathlib.Tactic.Common

/-! # Last-writer-wins registers

A register holds the entry of the highest rank that was written to it, of equal
ranks the one written last.  A store is one register for each key.  Writing a
list of entries again, in the same order, changes nothing: each rank written is
at most the one that is held, and what is written again ends at the same entry.
-/

set_option autoImplicit false

namespace TimeOff.Lib

namespace Register

variable {ε ρ : Type} [LinearOrder ρ] (rank : ε → ρ)

/-- Does the register hold something of a higher rank? -/
def outranks (held : Option ε) (entry : ε) : Bool := held.any fun kept => rank entry < rank kept

def write (held : Option ε) (entry : ε) : Option ε :=
  if outranks rank held entry then held else some entry

def writeAll (held : Option ε) (entries : List ε) : Option ε := entries.foldl (write rank) held

/-- An empty register ranks below every entry. -/
def rankOf : Option ε → WithBot ρ
  | none => ⊥
  | some kept => rank kept

variable {rank} {held : Option ε} {entry : ε} {entries : List ε}

theorem outranks_iff : outranks rank held entry = true ↔ (rank entry : WithBot ρ) < rankOf rank held := by
  cases held with
  | none => simp [outranks, rankOf]
  | some kept =>
    simp [outranks, rankOf]

theorem write_of_outranks (outranked : outranks rank held entry = true) :
    write rank held entry = held := if_pos outranked

theorem write_of_not_outranks (current : outranks rank held entry = false) :
    write rank held entry = some entry := by simp [write, current]

theorem rankOf_write : rankOf rank (write rank held entry) = max (rankOf rank held) (rank entry) := by
  cases outranked : outranks rank held entry with
  | true =>
    rw [write_of_outranks outranked]
    exact (max_eq_left (outranks_iff.mp outranked).le).symm
  | false =>
    rw [write_of_not_outranks outranked]
    apply Eq.symm
    apply max_eq_right
    rw [← not_lt, ← outranks_iff, outranked]
    simp

theorem writeAll_append (first second : List ε) :
    writeAll rank held (first ++ second) = writeAll rank (writeAll rank held first) second :=
  List.foldl_append

theorem rankOf_le_writeAll (held : Option ε) (entries : List ε) :
    rankOf rank held ≤ rankOf rank (writeAll rank held entries) := by
  induction entries generalizing held with
  | nil => exact le_rfl
  | cons entry rest inductionHypothesis =>
    apply le_trans _ (inductionHypothesis (write rank held entry))
    rw [rankOf_write]
    exact le_max_left _ _

theorem le_rankOf_writeAll (held : Option ε) (member : entry ∈ entries) :
    rank entry ≤ rankOf rank (writeAll rank held entries) := by
  obtain ⟨before, after, rfl⟩ := List.append_of_mem member
  rw [writeAll_append]
  apply le_trans _ (rankOf_le_writeAll (write rank (writeAll rank held before) entry) after)
  rw [rankOf_write]
  exact le_max_right _ _

/-- Entries that rank no higher leave the rank of the register. -/
theorem rankOf_writeAll_of_le (low : ∀ entry ∈ entries, rank entry ≤ rankOf rank held) :
    rankOf rank (writeAll rank held entries) = rankOf rank held := by
  induction entries generalizing held with
  | nil => rfl
  | cons entry rest inductionHypothesis =>
    have same : rankOf rank (write rank held entry) = rankOf rank held := by
      rw [rankOf_write]
      exact max_eq_left (low entry List.mem_cons_self)
    have lowRest : ∀ other ∈ rest, rank other ≤ rankOf rank (write rank held entry) := by
      intro other member
      rw [same]
      exact low other (List.mem_cons_of_mem _ member)
    exact (inductionHypothesis lowRest).trans same

/-- A second round of the same entries ends where the first one ended. -/
theorem writeAll_replay (held : Option ε) (entries : List ε) :
    writeAll rank (writeAll rank held entries) entries = writeAll rank held entries := by
  induction entries using List.reverseRecOn with
  | nil => rfl
  | append_singleton earlier last inductionHypothesis =>
    have unfolded : ∀ start, writeAll rank start (earlier ++ [last]) =
        write rank (writeAll rank start earlier) last := fun start => writeAll_append earlier [last]
    rw [unfolded, unfolded]
    cases outranked : outranks rank (writeAll rank held earlier) last with
    | true => rw [write_of_outranks outranked, inductionHypothesis, write_of_outranks outranked]
    | false =>
      rw [write_of_not_outranks outranked]
      -- what the earlier entries put in its place ranks no higher than the last one
      have highest : ∀ entry ∈ earlier, rank entry ≤ rankOf rank (some last) := by
        intro entry member
        apply (le_rankOf_writeAll held member).trans
        apply not_lt.mp
        exact fun below => by simp [outranks_iff.mpr below] at outranked
      apply write_of_not_outranks
      rw [← Bool.not_eq_true, outranks_iff, rankOf_writeAll_of_le highest]
      exact lt_irrefl _

/-- What was outranked in the first round is outranked in the second. -/
theorem outranks_replay {before after : List ε} (held : Option ε)
    (outranked : outranks rank (writeAll rank held before) entry = true) :
    outranks rank (writeAll rank (writeAll rank held (before ++ entry :: after)) before) entry = true := by
  rw [outranks_iff] at outranked ⊢
  apply lt_of_lt_of_le outranked
  apply le_trans _ (rankOf_le_writeAll _ before)
  rw [writeAll_append]
  exact rankOf_le_writeAll _ _

end Register

/-! ## A register for each key -/

namespace Registers

variable {κ ε ρ : Type} [DecidableEq κ] [LinearOrder ρ] (keyOf : ε → κ) (rank : ε → ρ)

def put (store : κ → Option ε) (entry : ε) : κ → Option ε :=
  Function.update store (keyOf entry) (Register.write rank (store (keyOf entry)) entry)

def putAll (store : κ → Option ε) (entries : List ε) : κ → Option ε := entries.foldl (put keyOf rank) store

variable {keyOf rank} {store : κ → Option ε} {entry : ε} {entries : List ε} {key : κ}

/-- Each key sees the entries of its own. -/
theorem putAll_apply (store : κ → Option ε) (entries : List ε) (key : κ) :
    putAll keyOf rank store entries key =
      Register.writeAll rank (store key) (entries.filter fun entry => keyOf entry = key) := by
  induction entries generalizing store with
  | nil => rfl
  | cons entry rest inductionHypothesis =>
    rw [putAll, List.foldl_cons]
    apply (inductionHypothesis _).trans
    by_cases own : keyOf entry = key
    · subst own
      simp [put, Register.writeAll]
    · simp [put, Ne.symm own, own]

theorem putAll_replay (store : κ → Option ε) (entries : List ε) :
    putAll keyOf rank (putAll keyOf rank store entries) entries = putAll keyOf rank store entries := by
  funext key
  rw [putAll_apply, putAll_apply]
  exact Register.writeAll_replay _ _

theorem outranks_replay {before after : List ε} (store : κ → Option ε)
    (outranked : Register.outranks rank (putAll keyOf rank store before (keyOf entry)) entry = true) :
    Register.outranks rank
      (putAll keyOf rank (putAll keyOf rank store (before ++ entry :: after)) before (keyOf entry)) entry =
        true := by
  rw [putAll_apply] at outranked ⊢
  rw [putAll_apply, List.filter_append, List.filter_cons_of_pos (by simp)]
  exact Register.outranks_replay _ outranked

end Registers

end TimeOff.Lib
