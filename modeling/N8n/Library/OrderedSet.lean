import Mathlib.Data.List.Nodup

/-!
# Insertion-ordered sets

A set which enumerates its members in insertion order is a list without
duplicates; adding a member that is present changes nothing.
-/

namespace OrderedSet

variable {α : Type*} [DecidableEq α]

def add (members : List α) (item : α) : List α :=
  if item ∈ members then members else members ++ [item]

@[simp] theorem mem_add {members : List α} {item other : α} :
    other ∈ add members item ↔ other ∈ members ∨ other = item := by
  unfold add
  split
  next present =>
    constructor
    · exact .inl
    · rintro (mem | rfl)
      · exact mem
      · exact present
  · simp

variable {items members : List α}

@[simp] theorem mem_foldl_add {other : α} :
    other ∈ items.foldl add members ↔ other ∈ members ∨ other ∈ items := by
  induction items generalizing members with
  | nil => simp
  | cons item items ih => simp [ih, or_assoc]

theorem foldl_add_of_nodup (nodup : (members ++ items).Nodup) :
    items.foldl add members = members ++ items := by
  induction items generalizing members with
  | nil => simp
  | cons item items ih =>
    have absent : item ∉ members := by
      intro mem
      exact (List.nodup_append.mp nodup).2.2 item mem item (by simp) rfl
    have added : add members item = members ++ [item] := if_neg absent
    rw [List.foldl_cons, added, ih (by simpa using nodup), List.append_assoc, List.singleton_append]

end OrderedSet
