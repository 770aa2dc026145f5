import Mathlib.Data.List.Sort

/-!
# Texts that can be told apart

Codes of which none begins with another, and items between separators.  What is
written can be told apart from what follows it.
-/

namespace List

section Code

variable {α β : Type*} {code : α → List β} {stop : β}

/-- Codes that no other one begins with are read one by one up to the end. -/
theorem flatMap_append_inj (free : ∀ first second, code first <+: code second → first = second)
    (starts : ∀ value, ∃ char rest, code value = char :: rest ∧ char ≠ stop)
    {left right : List α} {rest other : List β}
    (same : left.flatMap code ++ stop :: rest = right.flatMap code ++ stop :: other) :
    left = right ∧ rest = other := by
  induction left generalizing right with
  | nil =>
    cases right with
    | nil => exact ⟨rfl, (cons.inj same).2⟩
    | cons value right =>
      obtain ⟨char, _, isCode, ne⟩ := starts value
      rw [flatMap_cons, isCode] at same
      exact absurd (cons.inj same).1.symm ne
  | cons value left ih =>
    cases right with
    | nil =>
      obtain ⟨char, _, isCode, ne⟩ := starts value
      rw [flatMap_cons, isCode] at same
      exact absurd (cons.inj same).1 ne
    | cons second right =>
      rw [flatMap_cons, flatMap_cons, append_assoc, append_assoc] at same
      obtain rfl : value = second := by
        rcases prefix_or_prefix_of_prefix (prefix_append _ _)
          (same ▸ prefix_append (code value) _) with before | after
        · exact (free _ _ before).symm
        · exact free _ _ after
      obtain ⟨rfl, rest⟩ := ih (append_cancel_left same)
      exact ⟨rfl, rest⟩

end Code

section Separated

variable {α β : Type*} {separator close : β}

/-- The texts with a separator between them. -/
def separated (separator : β) : List (List β) → List β
  | [] => []
  | first :: later => first ++ later.flatMap (separator :: ·)

variable {write : α → List β} {same : α → α → Prop} {ends : List β → Prop}
  {left right : List α} {rest other : List β}

/-- Items are read one by one, if each can be told apart from a separator and
from the end. -/
theorem separated_append_inj (different : separator ≠ close)
    (ended : ∀ rest, ends (separator :: rest) ∧ ends (close :: rest))
    (starts : ∀ value, ∃ char rest, write value = char :: rest ∧ char ≠ close)
    (cancels : ∀ value ∈ left, ∀ second rest other, ends rest → ends other →
      write value ++ rest = write second ++ other → same value second ∧ rest = other)
    (equal : separated separator (left.map write) ++ close :: rest =
      separated separator (right.map write) ++ close :: other) :
    Forall₂ same left right ∧ rest = other := by
  have endsLater (later : List α) (rest : List β) :
      ends ((later.map write).flatMap (separator :: ·) ++ close :: rest) := by
    cases later with
    | nil => exact (ended _).2
    | cons => exact (ended _).1
  have readLater {left right : List α}
      (cancels : ∀ value ∈ left, ∀ second rest other, ends rest → ends other →
        write value ++ rest = write second ++ other → same value second ∧ rest = other)
      (equal : (left.map write).flatMap (separator :: ·) ++ close :: rest =
        (right.map write).flatMap (separator :: ·) ++ close :: other) :
      Forall₂ same left right ∧ rest = other := by
    induction left generalizing right with
    | nil =>
      cases right with
      | nil => exact ⟨.nil, (cons.inj equal).2⟩
      | cons => exact absurd (cons.inj equal).1.symm different
    | cons value left ih =>
      rw [forall_mem_cons] at cancels
      cases right with
      | nil => exact absurd (cons.inj equal).1 different
      | cons second right =>
        simp only [map_cons, flatMap_cons, append_assoc, cons_append, cons.injEq, true_and] at equal
        obtain ⟨first, equal⟩ := cancels.1 second _ _ (endsLater _ _) (endsLater _ _) equal
        exact (ih cancels.2 equal).imp_left (.cons first)
  cases left with
  | nil =>
    cases right with
    | nil => exact ⟨.nil, (cons.inj equal).2⟩
    | cons second right =>
      obtain ⟨char, tail, isWritten, ne⟩ := starts second
      rw [map_cons, separated, isWritten] at equal
      exact absurd (cons.inj equal).1.symm ne
  | cons value left =>
    rw [forall_mem_cons] at cancels
    cases right with
    | nil =>
      obtain ⟨char, tail, isWritten, ne⟩ := starts value
      rw [map_cons, separated, isWritten] at equal
      exact absurd (cons.inj equal).1 ne
    | cons second right =>
      simp only [map_cons, separated, append_assoc] at equal
      obtain ⟨first, equal⟩ := cancels.1 second _ _ (endsLater _ _) (endsLater _ _) equal
      exact (readLater cancels.2 equal).imp_left (.cons first)

end Separated

section Sorting

variable {α ι : Type*} [LinearOrder ι] {rank : α → ι}

theorem filter_orderedInsert (keep : α → Bool) (value : α) {sorted : List α}
    (pairwise : sorted.Pairwise (rank · ≤ rank ·)) :
    (sorted.orderedInsert (rank · ≤ rank ·) value).filter keep =
      if keep value then (sorted.filter keep).orderedInsert (rank · ≤ rank ·) value
      else sorted.filter keep := by
  induction sorted with
  | nil => simp [filter_cons]
  | cons first sorted ih =>
    rw [pairwise_cons] at pairwise
    rw [orderedInsert]
    split
    next le =>
      rw [filter_cons]
      split
      · cases kept : (first :: sorted).filter keep with
        | nil => rfl
        | cons other rest =>
          have mem : other ∈ (first :: sorted).filter keep := kept ▸ mem_cons_self
          rw [orderedInsert_cons_of_le]
          rcases mem_cons.mp (mem_filter.mp mem).1 with rfl | later
          · exact le
          · exact le.trans (pairwise.1 other later)
      · rfl
    next notLe =>
      rw [filter_cons, ih pairwise.2, filter_cons]
      split <;> split <;> simp [*]

theorem filter_insertionSort (keep : α → Bool) (values : List α) :
    (values.insertionSort (rank · ≤ rank ·)).filter keep =
      (values.filter keep).insertionSort (rank · ≤ rank ·) := by
  have total : Std.Total (rank · ≤ rank ·) := ⟨fun _ _ => le_total _ _⟩
  have trans : IsTrans α (rank · ≤ rank ·) := ⟨fun _ _ _ => le_trans⟩
  induction values with
  | nil => rfl
  | cons value values ih =>
    rw [insertionSort_cons, filter_orderedInsert keep value
      (pairwise_insertionSort _ values), ih, filter_cons]
    split <;> rfl

end Sorting

end List
