import Mathlib.Data.List.Find
import Mathlib.Data.List.Nodup
import Mathlib.Data.List.Pairwise

/-!
# Comparing two sides

Two lists of items, each without repeated keys, are compared by their keys:
some items are missing on one side, and of the others some have changed.  No
key is in two of the resulting lists.
-/

universe u v

namespace TwoSides

open List

variable {α : Type u} {κ : Type v}

section Lists

def missingIn [DecidableEq κ] (key : α → κ) (side items : List α) : List α :=
  items.filter fun item => !side.any fun other => key other = key item

/-- What is listed for the items of the left side for which an item is found
on the right one. -/
def changed (sought : α → α → Bool) (listed : α → α → Option α) (left right : List α) : List α :=
  left.filterMap fun item => (right.find? (sought item)).bind (listed item)

end Lists

section Spec

variable (key : α → κ)

def MissingExactly (side items missing : List α) : Prop :=
  ∀ item, item ∈ missing ↔ item ∈ items ∧ ∀ other ∈ side, key other ≠ key item

/-- The keys of exactly the items that are on both sides and differ. -/
def ChangedExactly (Differs : α → α → Prop) (left right changes : List α) : Prop :=
  ∀ value, value ∈ changes.map key ↔ ∃ item ∈ left, ∃ other ∈ right,
    key item = value ∧ key other = value ∧ Differs item other

end Spec

section Facts

variable {key : α → κ} {left right : List α} {sought : α → α → Bool} {listed : α → α → Option α}

theorem missingIn_exactly [DecidableEq κ] (side items : List α) :
    MissingExactly key side items (missingIn key side items) := by
  intro item
  simp [missingIn]

@[simp] theorem missingIn_nil [DecidableEq κ] (items : List α) : missingIn key [] items = items :=
  filter_eq_self.mpr fun _ _ => rfl

theorem find?_eq_some_iff (nodup : (right.map key).Nodup) {item other : α}
    (keyed : ∀ other, sought item other = true → key other = key item) :
    right.find? (sought item) = some other ↔ other ∈ right ∧ sought item other = true := by
  constructor
  · intro found
    exact ⟨mem_of_find?_eq_some found, find?_some found⟩
  · rintro ⟨mem, isSought⟩
    obtain ⟨first, found⟩ := Option.isSome_iff_exists.mp (find?_isSome.mpr ⟨other, mem, isSought⟩)
    have sameKey : key first = key other :=
      (keyed first (find?_some found)).trans (keyed other isSought).symm
    have same : first = other := inj_on_of_nodup_map nodup (mem_of_find?_eq_some found) mem sameKey
    rw [found, same]

/-- What is listed for an item has its key. -/
def KeepsKey (key : α → κ) (sought : α → α → Bool) (listed : α → α → Option α) : Prop :=
  ∀ item other, sought item other = true →
    key other = key item ∧ ∀ result ∈ listed item other, key result = key item

theorem changed_exactly (nodup : (right.map key).Nodup)
    (keeps : KeepsKey key sought listed) {Differs : α → α → Prop}
    (differs : ∀ item other, key other = key item →
      ((sought item other = true ∧ (listed item other).isSome = true) ↔ Differs item other)) :
    ChangedExactly key Differs left right (changed sought listed left right) := by
  intro value
  simp only [changed, mem_map, mem_filterMap, Option.bind_eq_some_iff]
  constructor
  · rintro ⟨result, ⟨item, mem, other, found, isListed⟩, rfl⟩
    have isSought := find?_some found
    obtain ⟨sameKey, resultKey⟩ := keeps item other isSought
    refine ⟨item, mem, other, mem_of_find?_eq_some found, (resultKey result isListed).symm,
      sameKey.trans (resultKey result isListed).symm, ?_⟩
    exact (differs item other sameKey).mp ⟨isSought, by rw [isListed]; rfl⟩
  · rintro ⟨item, mem, other, otherMem, rfl, sameKey, isDifferent⟩
    obtain ⟨isSought, some⟩ := (differs item other sameKey).mpr isDifferent
    obtain ⟨result, isListed⟩ := Option.isSome_iff_exists.mp some
    have found := (find?_eq_some_iff nodup
      fun other isSought => (keeps item other isSought).1).mpr ⟨otherMem, isSought⟩
    exact ⟨result, ⟨item, mem, other, found, isListed⟩,
      (keeps item other isSought).2 result isListed⟩

theorem changed_congr {sought' : α → α → Bool} (same : ∀ item ∈ left, ∀ other ∈ right,
      sought item other = sought' item other) :
    changed sought listed left right = changed sought' listed left right := by
  apply filterMap_congr
  intro item mem
  rw [find?_congr (same item mem)]

theorem map_changed_sublist (keeps : KeepsKey key sought listed) :
    ((changed sought listed left right).map key).Sublist (left.map key) := by
  induction left with
  | nil => exact .slnil
  | cons item left ih =>
    rw [changed, filterMap_cons]
    cases found : right.find? (sought item) with
    | none => exact ih.cons _
    | some other =>
      cases isListed : listed item other with
      | none =>
        rw [Option.bind_some, isListed]
        exact ih.cons _
      | some result =>
        have same := (keeps item other (find?_some found)).2 result isListed
        rw [Option.bind_some, isListed, map_cons, same]
        exact ih.cons_cons _

theorem exists_right_of_mem_changed (keeps : KeepsKey key sought listed)
    {value : κ} (mem : value ∈ (changed sought listed left right).map key) :
    ∃ other ∈ right, key other = value := by
  simp only [changed, mem_map, mem_filterMap, Option.bind_eq_some_iff] at mem
  obtain ⟨result, ⟨item, _, other, found, isListed⟩, rfl⟩ := mem
  obtain ⟨sameKey, resultKey⟩ := keeps item other (find?_some found)
  exact ⟨other, mem_of_find?_eq_some found, sameKey.trans (resultKey result isListed).symm⟩

theorem map_missingIn_sublist [DecidableEq κ] (side items : List α) :
    ((missingIn key side items).map key).Sublist (items.map key) :=
  filter_sublist.map key

theorem not_mem_side_of_mem_missingIn [DecidableEq κ] {side items : List α}
    {value : κ} (mem : value ∈ (missingIn key side items).map key) :
    value ∉ side.map key := by
  obtain ⟨item, missing, rfl⟩ := mem_map.mp mem
  intro present
  obtain ⟨other, isOther, same⟩ := mem_map.mp present
  exact ((missingIn_exactly side items item).mp missing).2 other isOther same

theorem nodup_listed [DecidableEq κ] (leftNodup : (left.map key).Nodup)
    (rightNodup : (right.map key).Nodup) (keeps : KeepsKey key sought listed) :
    ((missingIn key left right ++ (missingIn key right left ++
      changed sought listed left right)).map key).Nodup := by
  have changes : ((changed sought listed left right).map key).Sublist
      (left.map key) := map_changed_sublist keeps
  simp only [map_append]
  refine nodup_append.mpr ⟨rightNodup.sublist (map_missingIn_sublist left right),
      nodup_append.mpr ⟨leftNodup.sublist (map_missingIn_sublist right left),
          leftNodup.sublist changes, ?_⟩, ?_⟩
  · rintro value missing _ isChanged rfl
    obtain ⟨other, mem, rfl⟩ := exists_right_of_mem_changed keeps isChanged
    exact not_mem_side_of_mem_missingIn missing (mem_map_of_mem mem)
  · rintro value missing _ listed rfl
    apply not_mem_side_of_mem_missingIn missing
    rcases mem_append.mp listed with isMissing | isChanged
    · exact (map_missingIn_sublist right left).subset isMissing
    · exact changes.subset isChanged

end Facts

end TwoSides
