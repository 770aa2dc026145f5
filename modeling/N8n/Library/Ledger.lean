import Mathlib.Algebra.BigOperators.Group.List.Basic
import Mathlib.Data.List.Nodup

/-!
# Ledgers

A ledger says for each of a list of values at which place it is counted.  When
all that is counted at some places is moved on, the other places gain what is
moved to them.
-/

universe u v w

/-- Values with the places at which they are counted. -/
abbrev Ledger (α : Type u) (π : Type v) := List (α × π)

namespace Ledger

open List

variable {α : Type u} {π : Type v} {M : Type w} [DecidableEq π]
  [AddCommMonoid M] {amount : α → M} {ledger : Ledger α π} {place : π}
  {sources : List π} {destination : π → π}

/-- The sum of what is counted at a place. -/
def countedAt (amount : α → M) (ledger : Ledger α π) (place : π) : M :=
  (ledger.map fun entry => if entry.2 = place then amount entry.1 else 0).sum

/-- What is counted at the sources is moved to their destinations. -/
def move (ledger : Ledger α π) (sources : List π) (destination : π → π) : Ledger α π :=
  ledger.map fun entry =>
    (entry.1, if entry.2 ∈ sources then destination entry.2 else entry.2)

theorem values_move (ledger : Ledger α π) (sources : List π) (destination : π → π) :
    (ledger.move sources destination).map Prod.fst = ledger.map Prod.fst := by
  rw [move, map_map]
  rfl

theorem countedAt_cons (entry : α × π) (ledger : Ledger α π) :
    countedAt amount (entry :: ledger) place =
      (if entry.2 = place then amount entry.1 else 0) + countedAt amount ledger place := rfl

theorem countedAt_append (ledger later : Ledger α π) : countedAt amount (ledger ++ later) place =
      countedAt amount ledger place + countedAt amount later place := by
  rw [countedAt, map_append, sum_append]
  rfl

theorem countedAt_eq_zero (unused : ∀ entry ∈ ledger, entry.2 ≠ place) :
    countedAt amount ledger place = 0 := by
  induction ledger with
  | nil => rfl
  | cons entry ledger ih =>
    rw [countedAt_cons, if_neg (unused entry mem_cons_self), zero_add]
    exact ih fun later mem => unused later (mem_cons_of_mem _ mem)

theorem sum_countedAt (nodup : sources.Nodup) :
    (sources.map (countedAt amount ledger)).sum = (ledger.map fun entry =>
        if entry.2 ∈ sources then amount entry.1 else 0).sum := by
  induction ledger with
  | nil =>
    change (sources.map fun _ => (0 : M)).sum = 0
    exact sum_map_zero
  | cons entry ledger ih =>
    rw [map_cons, sum_cons, ← ih]
    have split : sources.map (countedAt amount (entry :: ledger)) = sources.map fun place =>
          (if entry.2 = place then amount entry.1 else 0) + countedAt amount ledger place := rfl
    rw [split, sum_map_add]
    congr 1
    by_cases mem : entry.2 ∈ sources
    · rw [if_pos mem, sum_map_eq_nsmul_single entry.2]
      · rw [count_eq_one_of_mem nodup mem, if_pos rfl, one_nsmul]
      · intro place ne _
        exact if_neg (Ne.symm ne)
    · rw [if_neg mem]
      apply sum_eq_zero
      intro summand isSummand
      obtain ⟨place, listed, rfl⟩ := mem_map.mp isSummand
      apply if_neg
      rintro rfl
      exact mem listed

theorem countedAt_move (nodup : sources.Nodup) (notSource : place ∉ sources) :
    countedAt amount (ledger.move sources destination) place = countedAt amount ledger place +
        ((sources.filter fun source => destination source = place).map
          (countedAt amount ledger)).sum := by
  rw [sum_countedAt (nodup.filter _), countedAt, move, map_map, countedAt, ← sum_map_add]
  congr 1
  apply map_congr_left
  intro entry _
  by_cases isSource : entry.2 ∈ sources
  · have ne : entry.2 ≠ place := fun same =>
      notSource (same ▸ isSource)
    simp [isSource, ne]
  · simp [isSource]

end Ledger
