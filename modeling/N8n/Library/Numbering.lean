import Mathlib.Algebra.Order.BigOperators.Group.List
import Mathlib.Algebra.Order.Ring.Rat
import Mathlib.Data.List.Nodup
import Mathlib.Data.List.Perm.Subperm
import Mathlib.Tactic.Linarith

/-!
# Numbering from zero

A list of values is numbered when it holds `0` to `n - 1`.  Places are opened
by raising all values from a threshold on and closed by lowering them, and the
list stays numbered exactly when the threshold is the place in question.
-/

universe u

namespace Numbering

open List Nat

section

variable {α : Type u} [AddCommMonoidWithOne α] {values others : List α}

/-- The values are `0` to `n - 1` in some order. -/
def Numbered (values : List α) : Prop :=
  values.Perm ((List.range values.length).map Nat.cast)

theorem Numbered.congr (numbered : Numbered values)
    (perm : others.Perm values) : Numbered others := by
  rw [Numbered, perm.length_eq]
  exact perm.trans numbered

theorem numbered_congr (perm : others.Perm values) : Numbered others ↔ Numbered values :=
  ⟨fun numbered => numbered.congr perm.symm, fun numbered => numbered.congr perm⟩

theorem Numbered.mem (numbered : Numbered values) {number : Nat}
    (less : number < values.length) : (number : α) ∈ values :=
  numbered.mem_iff.mpr (mem_map.mpr ⟨number, mem_range.mpr less, rfl⟩)

theorem Numbered.sum_eq (numbered : Numbered values) (othersNumbered : Numbered others)
    (length : values.length = others.length) : values.sum = others.sum := by
  apply List.Perm.sum_eq
  rw [Numbered, length] at numbered
  exact numbered.trans othersNumbered.symm

theorem Numbered.push (numbered : Numbered values) : Numbered ((values.length : α) :: values) := by
  rw [Numbered, length_cons, range_succ, map_append]
  exact (numbered.cons _).trans (perm_append_singleton _ _).symm

end

variable {α : Type u} [CommRing α] [LinearOrder α] [IsStrictOrderedRing α]
  {values : List α} {gap threshold value other : α} {number : Nat}

theorem numbered_iff : Numbered values ↔ values.Nodup ∧
    ∀ value ∈ values, ∃ number < values.length, (number : α) = value := by
  constructor
  · intro numbered
    constructor
    · rw [numbered.nodup_iff]
      exact List.Nodup.map cast_injective nodup_range
    · intro value mem
      obtain ⟨number, listed, same⟩ := mem_map.mp (numbered.mem_iff.mp mem)
      exact ⟨number, mem_range.mp listed, same⟩
  · rintro ⟨nodup, bounded⟩
    apply (subperm_of_subset nodup ?_).perm_of_length_le
    · simp
    · intro value mem
      obtain ⟨number, less, same⟩ := bounded value mem
      exact mem_map.mpr ⟨number, mem_range.mpr less, same⟩

/-- The values from the threshold on make room for another one. -/
def raise (threshold value : α) : α :=
  if threshold ≤ value then value + 1 else value

/-- The values from the threshold on close up. -/
def lower (threshold value : α) : α :=
  if threshold ≤ value then value - 1 else value

@[simp] theorem raise_lt_raise_iff :
    raise threshold value < raise threshold other ↔ value < other := by
  unfold raise
  split
  · split
    · exact add_lt_add_iff_right 1
    next above below =>
      constructor
      · intro less
        linarith
      · intro less
        linarith
  · split
    next below above =>
      constructor
      · intro _
        linarith
      · intro less
        linarith
    · rfl

theorem raise_injective (threshold : α) : Function.Injective (raise threshold) := by
  intro first second same
  rcases lt_trichotomy first second with less | equal | greater
  · exact absurd same (raise_lt_raise_iff.mpr less).ne
  · exact equal
  · exact absurd same (raise_lt_raise_iff.mpr greater).ne'

theorem raise_ne (threshold value : α) : raise threshold value ≠ threshold := by
  unfold raise
  split
  next above =>
    intro same
    linarith
  next below =>
    rintro rfl
    exact below le_rfl

theorem Numbered.insert (numbered : Numbered values) (le : number ≤ values.length) :
    Numbered ((number : α) :: values.map (raise number)) := by
  obtain ⟨nodup, bounded⟩ := numbered_iff.mp numbered
  apply numbered_iff.mpr
  constructor
  · refine nodup_cons.mpr ⟨?_, List.Nodup.map (raise_injective _) nodup⟩
    intro mem
    obtain ⟨value, _, same⟩ := mem_map.mp mem
    exact raise_ne _ value same
  · intro value mem
    rw [length_cons, length_map]
    rcases mem_cons.mp mem with rfl | raised
    · exact ⟨number, lt_succ_of_le le, rfl⟩
    · obtain ⟨before, listed, rfl⟩ := mem_map.mp raised
      obtain ⟨place, less, rfl⟩ := bounded before listed
      unfold raise
      split
      · exact ⟨place + 1, succ_lt_succ less, cast_succ place⟩
      · exact ⟨place, lt_succ_of_lt less, rfl⟩

/-- The threshold parts the values as the gap does. -/
def Parts (gap threshold : α) (values : List α) : Prop :=
  ∀ value ∈ values, threshold ≤ value ↔ gap < value

instance (gap threshold : α) (values : List α) : Decidable (Parts gap threshold values) :=
  inferInstanceAs (Decidable (∀ value ∈ values, _))

omit [CommRing α] [IsStrictOrderedRing α] in
theorem parts_self (notMem : gap ∉ values) : Parts gap gap values := by
  intro value mem
  constructor
  · intro le
    apply lt_of_le_of_ne le
    rintro rfl
    exact notMem mem
  · exact le_of_lt

theorem lower_lt_lower_iff {first second : Nat}
    (firstParted : threshold ≤ first ↔ (number : α) < first)
    (secondParted : threshold ≤ second ↔ (number : α) < second)
    (firstNe : first ≠ number) (secondNe : second ≠ number) :
    lower threshold (first : α) < lower threshold (second : α) ↔ (first : α) < second := by
  unfold lower
  simp only [firstParted, secondParted, cast_lt]
  split
  · split
    · rw [sub_lt_sub_iff_right, cast_lt]
    next above below =>
      constructor
      · intro less
        have later : (first : α) < (second + 1 : Nat) := by
          rw [cast_succ]
          linarith
        have := cast_lt.mp later
        omega
      · intro less
        omega
  · split
    next below above =>
      constructor
      · intro _
        apply cast_lt.mpr
        omega
      · intro less
        have : first + 1 < second := by omega
        have later : ((first + 1 : Nat) : α) < second := cast_lt.mpr this
        rw [cast_succ] at later
        linarith
    · exact cast_lt

theorem Numbered.remove (numbered : Numbered (gap :: values)) (parts : Parts gap threshold values) :
    Numbered (values.map (lower threshold)) := by
  obtain ⟨nodup, bounded⟩ := numbered_iff.mp numbered
  obtain ⟨notMem, restNodup⟩ := nodup_cons.mp nodup
  obtain ⟨number, _, rfl⟩ := bounded gap (.head _)
  have place (value : α) (mem : value ∈ values) :
      ∃ place < values.length + 1, (place : α) = value ∧ place ≠ number ∧
        (threshold ≤ (place : α) ↔ (number : α) < place) := by
    obtain ⟨place, less, rfl⟩ := bounded value (.tail _ mem)
    refine ⟨place, less, rfl, ?_, parts _ mem⟩
    rintro rfl
    exact notMem mem
  apply numbered_iff.mpr
  constructor
  · apply List.Nodup.map_on _ restNodup
    intro first firstMem second secondMem same
    obtain ⟨firstPlace, _, rfl, firstNe, firstParted⟩ := place first firstMem
    obtain ⟨secondPlace, _, rfl, secondNe, secondParted⟩ := place second secondMem
    have forth := lower_lt_lower_iff firstParted secondParted firstNe secondNe
    have back := lower_lt_lower_iff secondParted firstParted secondNe firstNe
    rw [same] at forth back
    exact eq_of_le_of_not_lt (not_lt.mp fun less => lt_irrefl _ (back.mpr less))
      fun less => lt_irrefl _ (forth.mpr less)
  · intro value mem
    obtain ⟨before, listed, rfl⟩ := mem_map.mp mem
    obtain ⟨place, less, rfl, notGap, parted⟩ := place before listed
    rw [length_map]
    unfold lower
    split
    next above =>
      have later := cast_lt.mp (parted.mp above)
      refine ⟨place - 1, by omega, ?_⟩
      rw [cast_sub (by omega), cast_one]
    next below =>
      have earlier : ¬ number < place := fun less =>
        below (parted.mpr (cast_lt.mpr less))
      have bound : number < values.length + 1 := by
        obtain ⟨other, otherLess, same⟩ := bounded number (.head _)
        rw [← cast_injective same]
        exact otherLess
      exact ⟨place, by omega, rfl⟩

/-- Lowering from a threshold on closes the gap only if the threshold parts
the other values as the gap does. -/
theorem Numbered.parts_of_lower (numbered : Numbered (gap :: values))
    (lowered : Numbered (values.map (lower threshold))) :
    Parts gap threshold values := by
  have notMem : gap ∉ values := (nodup_cons.mp (numbered_iff.mp numbered).1).1
  have sums : (values.map (lower threshold)).sum = (values.map (lower gap)).sum := by
    apply lowered.sum_eq (numbered.remove (parts_self notMem))
    rw [length_map, length_map]
  have self := parts_self notMem
  -- one of the two ways to lower is below the other one throughout
  rcases le_or_gt threshold gap with le | less
  · intro value mem
    refine ⟨fun above => ?_, fun greater => le_trans le (le_of_lt greater)⟩
    by_contra notGreater
    have isLess := sum_lt_sum (lower threshold) (lower gap) (fun other listed => by
        unfold lower
        split
        · split
          · exact le_rfl
          · linarith
        next below =>
          rw [if_neg fun above => below (le_trans le above)])
      ⟨value, mem, by
        rw [lower, lower, if_pos above,
          if_neg fun isAbove => notGreater ((self value mem).mp isAbove)]
        linarith⟩
    exact isLess.ne sums
  · intro value mem
    refine ⟨fun above => lt_of_lt_of_le less above, fun greater => ?_⟩
    by_contra notAbove
    have isLess := sum_lt_sum (lower gap) (lower threshold) (fun other listed => by
        unfold lower
        split
        · split
          · exact le_rfl
          · linarith
        next below =>
          rw [if_neg fun above => below (le_trans less.le above)])
      ⟨value, mem, by
        rw [lower, lower, if_pos greater.le, if_neg notAbove]
        linarith⟩
    exact isLess.ne sums.symm

theorem lower_raise (threshold value : α) : lower threshold (raise threshold value) = value := by
  unfold raise
  split
  next above =>
    rw [lower, if_pos (le_trans above (by linarith)), add_sub_cancel_right]
  next below =>
    rw [lower, if_neg below]

theorem Numbered.of_insert (inserted : Numbered (value :: values.map (raise value))) :
    Numbered values ∧ ∃ number ≤ values.length, (number : α) = value := by
  obtain ⟨nodup, bounded⟩ := numbered_iff.mp inserted
  have notMem := (nodup_cons.mp nodup).1
  have removed := inserted.remove (parts_self notMem)
  have undone : lower value ∘ raise value = id := funext (lower_raise value)
  rw [map_map, undone, map_id] at removed
  refine ⟨removed, ?_⟩
  obtain ⟨number, less, same⟩ := bounded value (.head _)
  rw [length_cons, length_map] at less
  exact ⟨number, le_of_lt_succ less, same⟩

theorem Numbered.lower_all (numbered : Numbered values)
    (lowered : Numbered (values.map (lower threshold))) :
    ∀ value ∈ values, ¬ threshold ≤ value := by
  intro value mem above
  have sums : (values.map (lower threshold)).sum = (values.map id).sum := by
    rw [map_id]
    exact lowered.sum_eq numbered (length_map _)
  have isLess := sum_lt_sum (lower threshold) id (fun other _ => by
      unfold lower
      split
      · exact (sub_lt_self other one_pos).le
      · exact le_rfl)
    ⟨value, mem, by
      rw [lower, if_pos above]
      exact sub_lt_self value one_pos⟩
  exact isLess.ne sums

theorem not_numbered_raise (less : number < values.length) :
    ¬ Numbered (values.map (raise (number : α))) := by
  intro numbered
  have inRange : number < (values.map (raise (number : α))).length := by
    rwa [length_map]
  have mem := numbered.mem inRange
  obtain ⟨value, _, same⟩ := mem_map.mp mem
  exact raise_ne _ value same

end Numbering
