import Mathlib.Order.Basic
import N8n.Library.OrderedMap

/-!
# Finite maps enumerated in key order

A `SortedMap` is an association list with strictly ascending keys.  It is the
enumeration order of an object whose keys are all array indices.
-/

universe u v

/-- A finite map which enumerates its entries in ascending key order. -/
structure SortedMap (κ : Type u) [LinearOrder κ] (α : Type v) where
  entries : List (κ × α)
  sorted : entries.Pairwise fun left right => left.1 < right.1

namespace SortedMap

open List

variable {κ : Type u} {α : Type v} [LinearOrder κ]

def empty : SortedMap κ α :=
  { entries := []
    sorted := List.Pairwise.nil }

instance : Inhabited (SortedMap κ α) := ⟨empty⟩

section

variable (map : SortedMap κ α)

def keys : List κ := map.entries.map Prod.fst

def values : List α := map.entries.map Prod.snd

def size : Nat := map.entries.length

end

def isEmpty (map : SortedMap κ α) : Bool := map.entries.isEmpty

variable {left right : SortedMap κ α}

theorem ext_entries (equal : left.entries = right.entries) : left = right := by
  cases left
  cases right
  subst equal
  rfl

instance [DecidableEq α] : DecidableEq (SortedMap κ α) := fun left right =>
  decidable_of_iff (left.entries = right.entries) ⟨ext_entries, fun equal => equal ▸ rfl⟩

/-- Set a key in an ascending association list. -/
def setIn (key : κ) (value : α) : List (κ × α) → List (κ × α)
  | [] => [(key, value)]
  | (other, old) :: rest =>
    if other = key then (key, value) :: rest
    else if key < other then (key, value) :: (other, old) :: rest
    else (other, old) :: setIn key value rest

variable {key : κ} {value : α} {entries : List (κ × α)} {entry : κ × α}

theorem mem_setIn (sorted : entries.Pairwise fun left right => left.1 < right.1) :
    entry ∈ setIn key value entries ↔ entry = (key, value) ∨ (entry ∈ entries ∧ entry.1 ≠ key) := by
  induction entries with
  | nil => simp [setIn]
  | cons first rest ih =>
    obtain ⟨other, old⟩ := first
    obtain ⟨before, restSorted⟩ := pairwise_cons.mp sorted
    have restNe : ∀ item ∈ rest, key ≤ other → item.1 ≠ key := by
      intro item mem below
      exact ne_of_gt (below.trans_lt (before item mem))
    by_cases same : other = key
    · subst other
      simp only [setIn, if_true, mem_cons]
      constructor
      · rintro (rfl | mem)
        · exact .inl rfl
        · exact .inr ⟨.inr mem, restNe entry mem le_rfl⟩
      · rintro (rfl | ⟨rfl | mem, ne⟩)
        · exact .inl rfl
        · exact absurd rfl ne
        · exact .inr mem
    · by_cases below : key < other
      · simp only [setIn, if_neg same, if_pos below, mem_cons]
        constructor
        · rintro (rfl | rfl | mem)
          · exact .inl rfl
          · exact .inr ⟨.inl rfl, same⟩
          · exact .inr ⟨.inr mem, restNe entry mem below.le⟩
        · rintro (rfl | ⟨mem, _⟩)
          · exact .inl rfl
          · exact .inr mem
      · simp only [setIn, if_neg same, if_neg below, mem_cons, ih restSorted]
        constructor
        · rintro (rfl | rfl | ⟨mem, ne⟩)
          · exact .inr ⟨.inl rfl, same⟩
          · exact .inl rfl
          · exact .inr ⟨.inr mem, ne⟩
        · rintro (rfl | ⟨rfl | mem, ne⟩)
          · exact .inr (.inl rfl)
          · exact .inl rfl
          · exact .inr (.inr ⟨mem, ne⟩)

theorem setIn_sorted (sorted : entries.Pairwise fun left right => left.1 < right.1) :
    (setIn key value entries).Pairwise fun left right => left.1 < right.1 := by
  induction entries with
  | nil => simp [setIn]
  | cons first rest ih =>
    obtain ⟨other, old⟩ := first
    obtain ⟨before, restSorted⟩ := pairwise_cons.mp sorted
    by_cases same : other = key
    · subst other
      simpa [setIn] using And.intro (fun left right => before (left, right)) restSorted
    · by_cases below : key < other
      · simp only [setIn, if_neg same, if_pos below]
        refine pairwise_cons.mpr ⟨?_, sorted⟩
        intro item mem
        rcases mem_cons.mp mem with rfl | mem
        · exact below
        · exact below.trans (before item mem)
      · simp only [setIn, if_neg same, if_neg below]
        refine pairwise_cons.mpr ⟨?_, ih restSorted⟩
        intro item mem
        rcases (mem_setIn restSorted).mp mem with rfl | ⟨mem, _⟩
        · exact lt_of_le_of_ne (not_lt.mp below) same
        · exact before item mem

section

variable (map : SortedMap κ α)

def set (key : κ) (value : α) : SortedMap κ α :=
  { entries := setIn key value map.entries
    sorted := setIn_sorted map.sorted }

def delete (key : κ) : SortedMap κ α :=
  { entries := map.entries.filter fun entry => entry.1 ≠ key
    sorted := map.sorted.sublist filter_sublist }

theorem keys_nodup : map.keys.Nodup :=
  List.Pairwise.map Prod.fst (fun _ _ before => ne_of_lt before) map.sorted

/-- The same entries, forgetting that they are sorted. -/
def toOrderedMap : OrderedMap κ α :=
  { entries := map.entries
    nodup := map.keys_nodup }

end

def get? (map : SortedMap κ α) (key : κ) : Option α := map.toOrderedMap.get? key

variable {map : SortedMap κ α}

theorem get?_eq_none_iff : map.get? key = none ↔ key ∉ map.keys := OrderedMap.get?_eq_none_iff

theorem get?_eq_some_iff : map.get? key = some value ↔ (key, value) ∈ map.entries :=
  OrderedMap.get?_eq_some_iff

@[simp] theorem get?_empty (key : κ) : (empty : SortedMap κ α).get? key = none := rfl

@[simp] theorem entries_empty : (empty : SortedMap κ α).entries = [] := rfl

theorem mem_entries_set : entry ∈ (map.set key value).entries ↔
      entry = (key, value) ∨ (entry ∈ map.entries ∧ entry.1 ≠ key) :=
  mem_setIn map.sorted

theorem mem_entries_delete :
    entry ∈ (map.delete key).entries ↔ entry ∈ map.entries ∧ entry.1 ≠ key := by
  simp [delete]

theorem get?_set (map : SortedMap κ α) (key other : κ) (value : α) :
    (map.set key value).get? other =
      if key = other then some value else map.get? other := by
  apply Option.ext
  intro found
  rw [get?_eq_some_iff, mem_entries_set]
  by_cases same : key = other
  · subst other
    simp [eq_comm]
  · simp [same, Ne.symm same, get?_eq_some_iff]

@[simp] theorem get?_set_self (map : SortedMap κ α) (key : κ) (value : α) :
    (map.set key value).get? key = some value := by
  simp [get?_set]

theorem get?_delete (map : SortedMap κ α) (key other : κ) : (map.delete key).get? other =
      if key = other then none else map.get? other := by
  apply Option.ext
  intro found
  rw [get?_eq_some_iff, mem_entries_delete]
  by_cases same : key = other
  · subst other
    simp
  · simp [same, Ne.symm same, get?_eq_some_iff]

theorem isEmpty_iff : map.isEmpty = true ↔ map.entries = [] := List.isEmpty_iff

theorem get?_isSome_iff : (map.get? key).isSome ↔ key ∈ map.keys := by
  rw [Option.isSome_iff_ne_none, ne_eq, get?_eq_none_iff, not_not]

theorem entries_set_perm (map : SortedMap κ α) (key : κ) (value : α) :
    (map.set key value).entries.Perm ((key, value) :: (map.delete key).entries) := by
  have nodup : ∀ other : SortedMap κ α, other.entries.Nodup := fun other =>
    List.Nodup.of_map Prod.fst other.keys_nodup
  refine (perm_ext_iff_of_nodup (nodup _) ?_).mpr ?_
  · refine nodup_cons.mpr ⟨?_, nodup _⟩
    intro mem
    exact (mem_entries_delete.mp mem).2 rfl
  · intro entry
    rw [mem_entries_set, mem_cons, mem_entries_delete]

theorem delete_of_not_mem (absent : key ∉ map.keys) : map.delete key = map := by
  apply ext_entries
  refine filter_eq_self.mpr fun entry mem => decide_eq_true ?_
  rintro rfl
  exact absent (mem_map.mpr ⟨entry, mem, rfl⟩)

theorem ext_get? (same : ∀ key, left.get? key = right.get? key) : left = right := by
  apply ext_entries
  have perm : left.entries.Perm right.entries := by
    refine (perm_ext_iff_of_nodup (List.Nodup.of_map Prod.fst left.keys_nodup)
      (List.Nodup.of_map Prod.fst right.keys_nodup)).mpr ?_
    rintro ⟨key, value⟩
    rw [← get?_eq_some_iff, ← get?_eq_some_iff, same]
  exact perm.eq_of_pairwise (fun _ _ _ _ before after => absurd before (lt_asymm after)) left.sorted
    right.sorted

theorem set_of_get? (found : map.get? key = some value) : map.set key value = map := by
  apply ext_get?
  intro other
  rw [get?_set]
  split
  next equal =>
    rw [← equal, found]
  · rfl

theorem entries_perm_of_get? (found : map.get? key = some value) :
    map.entries.Perm ((key, value) :: (map.delete key).entries) := by
  have perm := map.entries_set_perm key value
  rwa [set_of_get? found] at perm

@[simp] theorem set_set (map : SortedMap κ α) (key : κ) (first second : α) :
    (map.set key first).set key second = map.set key second := by
  apply ext_get?
  intro other
  simp only [get?_set]
  split <;> rfl

@[simp] theorem delete_set (map : SortedMap κ α) (key : κ) (value : α) :
    (map.set key value).delete key = map.delete key := by
  apply ext_get?
  intro other
  simp only [get?_set, get?_delete]
  split <;> rfl

section MapValues

variable {β : Type v}

def mapValues (change : α → β) (map : SortedMap κ α) : SortedMap κ β :=
  { entries := map.entries.map fun entry => (entry.1, change entry.2)
    sorted := pairwise_map.mpr map.sorted }

variable {change : α → β} {map : SortedMap κ α}

theorem entries_mapValues : (map.mapValues change).entries =
    map.entries.map fun entry => (entry.1, change entry.2) := rfl

@[simp] theorem keys_mapValues : (map.mapValues change).keys = map.keys := by
  simp [keys, mapValues, Function.comp_def]

@[simp] theorem size_mapValues : (map.mapValues change).size = map.size := by
  simp [size, mapValues]

@[simp] theorem isEmpty_mapValues : (map.mapValues change).isEmpty = map.isEmpty := by
  simp [isEmpty, mapValues]

@[simp] theorem get?_mapValues (key : κ) :
    (map.mapValues change).get? key = (map.get? key).map change := by
  apply Option.ext
  intro found
  rw [get?_eq_some_iff, Option.map_eq_some_iff, mapValues, mem_map]
  constructor
  · rintro ⟨entry, mem, equal⟩
    obtain ⟨rfl, rfl⟩ := Prod.mk.inj equal
    exact ⟨entry.2, get?_eq_some_iff.mpr mem, rfl⟩
  · rintro ⟨value, valueFound, rfl⟩
    exact ⟨(key, value), get?_eq_some_iff.mp valueFound, rfl⟩

theorem mapValues_set (key : κ) (value : α) : (map.set key value).mapValues change =
      (map.mapValues change).set key (change value) := by
  apply ext_entries
  change (setIn key value map.entries).map _ = setIn key (change value) (map.entries.map _)
  induction map.entries with
  | nil => rfl
  | cons entry rest ih =>
    simp only [setIn, map_cons]
    split
    · rfl
    · split
      · rfl
      · rw [map_cons, ih]

theorem mapValues_delete (key : κ) :
    (map.delete key).mapValues change = (map.mapValues change).delete key := by
  apply ext_entries
  change (map.entries.filter _).map _ = (map.entries.map _).filter _
  rw [filter_map]
  rfl

end MapValues

end SortedMap
