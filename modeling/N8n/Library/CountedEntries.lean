import Mathlib.Data.List.Basic
import N8n.Library.OrderedMap

/-!
# Counting over the entries of a map

Nested loops over a map and over lists meet each value under one key and one
position.  How often they meet it can then be read off there.
-/

universe u v w

namespace OrderedMap

open List

variable {κ : Type u} {α : Type v} {β : Type w} [DecidableEq κ] [DecidableEq β]

theorem set_set (map : OrderedMap κ α) (key : κ) (first second : α) :
    (map.set key first).set key second = map.set key second := by
  have general : ∀ entries : List (κ × α), setIn key second (setIn key first entries) =
        setIn key second entries := by
    intro entries
    induction entries with
    | nil => simp [setIn]
    | cons entry entries ih =>
      obtain ⟨other, old⟩ := entry
      by_cases same : other = key
      · simp [setIn, same]
      · simp [setIn, same, ih]
  exact ext_entries (general map.entries)

variable {item : β}

theorem count_flatMap_eq_zero {items : List α} {each : α → List β}
    (absent : ∀ other ∈ items, item ∉ each other) :
    (items.flatMap each).count item = 0 := by
  rw [count_eq_zero, mem_flatMap]
  rintro ⟨other, listed, found⟩
  exact absent other listed found

theorem count_flatMap_entries (map : OrderedMap κ α) {each : κ × α → List β} {key : κ}
    (only : ∀ entry, item ∈ each entry → entry.1 = key) :
    (map.entries.flatMap each).count item =
      match map.get? key with
      | none => 0
      | some value => (each (key, value)).count item := by
  have general : ∀ entries : List (κ × α), (entries.map Prod.fst).Nodup →
      (entries.flatMap each).count item =
        match lookupIn key entries with
        | none => 0
        | some value => (each (key, value)).count item := by
    intro entries
    induction entries with
    | nil => simp [lookupIn]
    | cons entry entries ih =>
      intro nodup
      obtain ⟨other, value⟩ := entry
      rw [map_cons, nodup_cons] at nodup
      rw [flatMap_cons, count_append]
      by_cases same : other = key
      · subst other
        have rest : (entries.flatMap each).count item = 0 := by
          apply count_flatMap_eq_zero
          intro later listed found
          apply nodup.1
          exact mem_map.mpr ⟨later, listed, only later found⟩
        simp [lookupIn, rest]
      · have first : (each (other, value)).count item = 0 := by
          rw [count_eq_zero]
          exact fun found => same (only _ found)
        rw [first, ih nodup.2, Nat.zero_add]
        simp [lookupIn, same]
  exact general map.entries map.nodup

theorem count_flatMap_ownEntries (map : OrderedMap String α)
    {each : String × α → List β} {key : String}
    (only : ∀ entry, item ∈ each entry → entry.1 = key) :
    (map.ownEntries.flatMap each).count item =
      match map.get? key with
      | none => 0
      | some value => (each (key, value)).count item := by
  rw [← count_flatMap_entries map only]
  exact (map.ownEntries_perm.flatMap_right each).count_eq item

theorem count_flatMap_zipIdx (items : List α) {each : α × Nat → List β} {index : Nat} (only : ∀ entry, item ∈ each entry → entry.2 = index) :
    (items.zipIdx.flatMap each).count item =
      match items[index]? with
      | none => 0
      | some value => (each (value, index)).count item := by
  have general : ∀ (items : List α) (start : Nat), ((items.zipIdx start).flatMap each).count item =
        match if start ≤ index then items[index - start]? else none with
        | none => 0
        | some value => (each (value, index)).count item := by
    intro items
    induction items with
    | nil => simp
    | cons value items ih =>
      intro start
      rw [zipIdx_cons, flatMap_cons, count_append, ih]
      by_cases same : start = index
      · subst start
        rw [if_neg (by omega), if_pos (Nat.le_refl _), Nat.sub_self]
        simp
      · have first : (each (value, start)).count item = 0 := by
          rw [count_eq_zero]
          exact fun found => same (only _ found)
        rw [first, Nat.zero_add]
        by_cases before : start + 1 ≤ index
        · have later : index - start = index - (start + 1) + 1 := by omega
          rw [if_pos before, if_pos (by omega), later, getElem?_cons_succ]
        · rw [if_neg before, if_neg (by omega)]
  have whole := general items 0
  rwa [if_pos (Nat.zero_le _), Nat.sub_zero] at whole

end OrderedMap
