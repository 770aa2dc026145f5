import Mathlib.Data.List.Nodup
import Mathlib.Data.List.Sort

/-!
# Insertion-ordered finite maps

An `OrderedMap` is an association list whose keys are pairwise different.
Setting a key that is present keeps its position, setting a new key appends
it, and deleting a key closes the gap.  This is the order in which the
hash maps of scripting languages enumerate their entries.

`ownEntries` is the second enumeration order such languages use: for plain
objects, the keys which are canonical array indices come first, in ascending
order, and the other keys follow in insertion order.
-/

universe u v

/-- A finite map which remembers the order in which its keys were added. -/
structure OrderedMap (κ : Type u) (α : Type v) where
  entries : List (κ × α)
  nodup : (entries.map Prod.fst).Nodup
deriving DecidableEq, Repr

namespace OrderedMap

open List

variable {κ : Type u} {α : Type v}

def empty : OrderedMap κ α :=
  { entries := []
    nodup := nodup_nil }

instance : Inhabited (OrderedMap κ α) := ⟨empty⟩

section

variable (map : OrderedMap κ α)

def keys : List κ := map.entries.map Prod.fst

def values : List α := map.entries.map Prod.snd

def size : Nat := map.entries.length

@[simp] theorem entries_empty : (empty : OrderedMap κ α).entries = [] := rfl

@[simp] theorem keys_empty : (empty : OrderedMap κ α).keys = [] := rfl

@[simp] theorem values_empty : (empty : OrderedMap κ α).values = [] := rfl

theorem keys_nodup : map.keys.Nodup := map.nodup

end

theorem ext_entries {left right : OrderedMap κ α}
    (equal : left.entries = right.entries) : left = right := by
  cases left
  cases right
  subst equal
  rfl

variable {map : OrderedMap κ α} {entry : κ × α}

theorem mem_keys_of_mem_entries (mem : entry ∈ map.entries) : entry.1 ∈ map.keys :=
  mem_map.mpr ⟨entry, mem, rfl⟩

theorem mem_values_of_mem_entries (mem : entry ∈ map.entries) : entry.2 ∈ map.values :=
  mem_map.mpr ⟨entry, mem, rfl⟩

/-- Keep the entries which satisfy a condition. -/
def filter (map : OrderedMap κ α) (keep : κ × α → Bool) : OrderedMap κ α :=
  { entries := map.entries.filter keep
    nodup := map.nodup.sublist (filter_sublist.map Prod.fst) }

theorem size_filter_le (map : OrderedMap κ α) (keep : κ × α → Bool) :
    (map.filter keep).size ≤ map.size :=
  length_filter_le keep map.entries

theorem mem_entries_filter {keep : κ × α → Bool} :
    entry ∈ (map.filter keep).entries ↔ entry ∈ map.entries ∧ keep entry = true :=
  mem_filter

theorem keys_filter_keys (map : OrderedMap κ α) (keep : κ → Bool) :
    (map.filter fun entry => keep entry.1).keys = map.keys.filter keep :=
  filter_map.symm

/-- Change the values and keep the keys. -/
def mapValues {β : Type*} (map : OrderedMap κ α) (change : α → β) : OrderedMap κ β :=
  { entries := map.entries.map fun entry => (entry.1, change entry.2)
    nodup := by
      rw [map_map]
      exact map.nodup }

@[simp] theorem keys_mapValues {β : Type*} (map : OrderedMap κ α)
    (change : α → β) : (map.mapValues change).keys = map.keys := by
  simp [keys, mapValues]

theorem values_mapValues {β : Type*} (map : OrderedMap κ α) (change : α → β) :
    (map.mapValues change).values = map.values.map change := by
  simp [values, mapValues]

section Lookup

variable [DecidableEq κ]

/-- The value of the first entry with the given key. -/
def lookupIn (key : κ) : List (κ × α) → Option α
  | [] => none
  | (other, value) :: rest =>
    if other = key then some value else lookupIn key rest

/-- Replace the value of the first entry with the given key, or append a new
entry when there is none. -/
def setIn (key : κ) (value : α) : List (κ × α) → List (κ × α)
  | [] => [(key, value)]
  | (other, old) :: rest =>
    if other = key then (key, value) :: rest
    else (other, old) :: setIn key value rest

def get? (map : OrderedMap κ α) (key : κ) : Option α := lookupIn key map.entries

def has (map : OrderedMap κ α) (key : κ) : Bool := (map.get? key).isSome

variable {key : κ} {entries : List (κ × α)}

theorem lookupIn_eq_none_iff : lookupIn key entries = none ↔ key ∉ entries.map Prod.fst := by
  induction entries with
  | nil => simp [lookupIn]
  | cons entry rest ih =>
    obtain ⟨other, value⟩ := entry
    by_cases same : other = key
    · simp [lookupIn, same]
    · simp [lookupIn, same, ih, Ne.symm same]

variable {value : α}

theorem lookupIn_eq_some_iff (nodup : (entries.map Prod.fst).Nodup) :
    lookupIn key entries = some value ↔ (key, value) ∈ entries := by
  induction entries with
  | nil => simp [lookupIn]
  | cons entry rest ih =>
    obtain ⟨other, old⟩ := entry
    simp only [map_cons, nodup_cons] at nodup
    by_cases same : other = key
    · subst other
      have absent : (key, value) ∉ rest := by
        intro mem
        exact nodup.1 (mem_map.mpr ⟨_, mem, rfl⟩)
      simp [lookupIn, absent, eq_comm]
    · simp [lookupIn, same, ih nodup.2, Ne.symm same]

theorem setIn_keys (key : κ) (value : α) (entries : List (κ × α)) :
    (setIn key value entries).map Prod.fst =
      if key ∈ entries.map Prod.fst then entries.map Prod.fst
      else entries.map Prod.fst ++ [key] := by
  induction entries with
  | nil => simp [setIn]
  | cons entry rest ih =>
    obtain ⟨other, old⟩ := entry
    by_cases same : other = key
    · subst other
      simp [setIn]
    · simp only [setIn, if_neg same, map_cons, ih, mem_cons, Ne.symm same, false_or]
      split <;> simp

theorem setIn_nodup (nodup : (entries.map Prod.fst).Nodup) :
    ((setIn key value entries).map Prod.fst).Nodup := by
  rw [setIn_keys]
  split
  · exact nodup
  next absent =>
    exact nodup_append.mpr ⟨nodup, nodup_singleton key, by
      intro left leftMem right rightMem equality
      have rightKey : right = key := by simpa using rightMem
      exact absent (rightKey ▸ equality ▸ leftMem)⟩

theorem lookupIn_setIn (key other : κ) (value : α) (entries : List (κ × α)) :
    lookupIn other (setIn key value entries) =
      if key = other then some value else lookupIn other entries := by
  induction entries with
  | nil => simp [setIn, lookupIn]
  | cons entry rest ih =>
    obtain ⟨first, old⟩ := entry
    by_cases same : first = key
    · subst first
      by_cases found : key = other <;> simp [setIn, lookupIn, found]
    · by_cases found : first = other
      · subst first
        simp [setIn, lookupIn, same, Ne.symm same]
      · simp [setIn, lookupIn, same, found, ih]

section

variable (map : OrderedMap κ α)

/-- Set a key, keeping its position when it is present. -/
def set (key : κ) (value : α) : OrderedMap κ α :=
  { entries := setIn key value map.entries
    nodup := setIn_nodup map.nodup }

def delete (key : κ) : OrderedMap κ α :=
  map.filter fun entry => entry.1 ≠ key

theorem keys_set (key : κ) (value : α) : (map.set key value).keys =
      if key ∈ map.keys then map.keys else map.keys ++ [key] :=
  setIn_keys key value map.entries

theorem keys_delete (key : κ) : (map.delete key).keys = map.keys.filter (· ≠ key) :=
  map.keys_filter_keys (· ≠ key)

end

variable {map : OrderedMap κ α}

theorem get?_eq_some_iff : map.get? key = some value ↔ (key, value) ∈ map.entries :=
  lookupIn_eq_some_iff map.nodup

theorem get?_eq_none_iff : map.get? key = none ↔ key ∉ map.keys := lookupIn_eq_none_iff

theorem has_iff : map.has key = true ↔ key ∈ map.keys := by
  rw [has, Option.isSome_iff_ne_none, ne_eq, get?_eq_none_iff, not_not]

@[simp] theorem get?_empty (key : κ) : (empty : OrderedMap κ α).get? key = none := rfl

section

variable (map : OrderedMap κ α)

theorem get?_set (key other : κ) (value : α) : (map.set key value).get? other =
      if key = other then some value else map.get? other :=
  lookupIn_setIn key other value map.entries

@[simp] theorem get?_set_self (key : κ) (value : α) :
    (map.set key value).get? key = some value := by
  simp [get?_set]

theorem get?_set_ne {key other : κ} (value : α) (ne : key ≠ other) :
    (map.set key value).get? other = map.get? other := by
  simp [get?_set, ne]

end

theorem setIn_of_lookupIn (found : lookupIn key entries = some value) :
    setIn key value entries = entries := by
  induction entries with
  | nil => cases found
  | cons entry rest ih =>
    obtain ⟨first, old⟩ := entry
    by_cases same : first = key
    · subst first
      simp only [lookupIn, if_true, Option.some.injEq] at found
      simp [setIn, found]
    · simp only [lookupIn, same, if_false] at found
      simp [setIn, same, ih found]

theorem set_eq_self (found : map.get? key = some value) : map.set key value = map :=
  ext_entries (setIn_of_lookupIn found)

variable {β : Type*}

theorem lookupIn_map (change : α → β) (key : κ) (entries : List (κ × α)) :
    lookupIn key (entries.map fun entry => (entry.1, change entry.2)) =
      (lookupIn key entries).map change := by
  induction entries with
  | nil => rfl
  | cons entry rest ih =>
    rw [map_cons, lookupIn, lookupIn, ih]
    split <;> rfl

@[simp] theorem get?_mapValues (map : OrderedMap κ α) (change : α → β) (key : κ) :
    (map.mapValues change).get? key = (map.get? key).map change :=
  lookupIn_map change key map.entries

theorem delete_mapValues (map : OrderedMap κ α) (change : α → β) (key : κ) :
    (map.mapValues change).delete key = (map.delete key).mapValues change := by
  apply ext_entries
  simp only [delete, filter, mapValues, filter_map]
  rfl

theorem get?_delete (map : OrderedMap κ α) (key other : κ) : (map.delete key).get? other =
      if key = other then none else map.get? other := by
  by_cases same : key = other
  · subst other
    simp [get?_eq_none_iff, keys, delete, filter]
  · rw [if_neg same]
    cases found : map.get? other with
    | none =>
      rw [get?_eq_none_iff] at found ⊢
      intro mem
      obtain ⟨entry, entryMem, rfl⟩ := mem_map.mp mem
      exact found (mem_map.mpr ⟨entry, (mem_filter.mp entryMem).1, rfl⟩)
    | some value =>
      rw [get?_eq_some_iff] at found ⊢
      exact mem_filter.mpr ⟨found, by simpa using Ne.symm same⟩

theorem delete_eq_self (missing : map.get? key = none) : map.delete key = map := by
  apply ext_entries
  apply filter_eq_self.mpr
  intro entry mem
  rw [decide_eq_true_eq]
  rintro rfl
  exact get?_eq_none_iff.mp missing (mem_keys_of_mem_entries mem)

theorem get?_foldl_delete (map : OrderedMap κ α) (removed : List κ)
    (key : κ) : (removed.foldl delete map).get? key =
      if key ∈ removed then none else map.get? key := by
  induction removed generalizing map with
  | nil => simp
  | cons first removed ih =>
    rw [foldl_cons, ih, get?_delete]
    by_cases later : key ∈ removed
    · simp [later]
    · simp [later, eq_comm]

/-- All entries have the property. -/
def All (holds : κ → α → Prop) (map : OrderedMap κ α) : Prop :=
  ∀ key value, map.get? key = some value → holds key value

theorem all_empty {holds : κ → α → Prop} : (empty : OrderedMap κ α).All holds := by
  intro _ _ found
  cases found

theorem All.set {holds : κ → α → Prop} (all : map.All holds) (fits : holds key value) : (map.set key value).All holds := by
  intro other current found
  rw [get?_set] at found
  split at found
  next same => exact same ▸ Option.some.inj found ▸ fits
  · exact all other current found

theorem All.delete {holds : κ → α → Prop} (all : map.All holds) : (map.delete key).All holds := by
  intro other current found
  rw [get?_delete] at found
  split at found
  · cases found
  · exact all other current found

theorem All.foldl_delete {holds : κ → α → Prop} (all : map.All holds) (keys : List κ) :
    (keys.foldl OrderedMap.delete map).All holds := by
  intro other current found
  rw [get?_foldl_delete] at found
  split at found
  · cases found
  · exact all other current found

theorem get?_filter_keys (map : OrderedMap κ α) (keep : κ → Bool)
    (key : κ) : (map.filter fun entry => keep entry.1).get? key =
      if keep key then map.get? key else none := by
  apply Option.ext
  intro value
  rw [get?_eq_some_iff, mem_entries_filter]
  by_cases kept : keep key = true
  · simp [kept, get?_eq_some_iff]
  · simp [kept]

theorem filter_entries_set (value : α)
    {keep : κ × α → Bool} (hidden : ∀ value, keep (key, value) = false) :
    (map.set key value).entries.filter keep = map.entries.filter keep := by
  change (setIn key value map.entries).filter keep = _
  induction map.entries with
  | nil => simp [setIn, hidden]
  | cons entry rest ih =>
    rw [setIn]
    split
    next same =>
      subst same
      simp [hidden]
    · rw [filter_cons, filter_cons, ih]

theorem mem_keys_set {key other : κ} :
    other ∈ (map.set key value).keys ↔ other = key ∨ other ∈ map.keys := by
  change other ∈ (setIn key value map.entries).map Prod.fst ↔ _
  rw [setIn_keys]
  split
  next present =>
    constructor
    · exact .inr
    · rintro (rfl | mem)
      · exact present
      · exact mem
  · simp [keys, or_comm]

theorem keys_set_of_mem (value : α)
    (mem : key ∈ map.keys) : (map.set key value).keys = map.keys := by
  rw [keys_set, if_pos mem]

theorem mem_entries_set {entry : κ × α} : entry ∈ (map.set key value).entries ↔
      entry = (key, value) ∨ (entry ∈ map.entries ∧ entry.1 ≠ key) := by
  obtain ⟨other, old⟩ := entry
  rw [← get?_eq_some_iff, get?_set, ← get?_eq_some_iff]
  by_cases same : key = other
  · subst other
    simp [eq_comm]
  · simp [same, Ne.symm same]

theorem mem_entries_delete {entry : κ × α} :
    entry ∈ (map.delete key).entries ↔ entry ∈ map.entries ∧ entry.1 ≠ key := by
  simp [delete, mem_entries_filter]

theorem entries_set_perm (map : OrderedMap κ α) (key : κ) (value : α) :
    (map.set key value).entries.Perm ((key, value) :: (map.delete key).entries) := by
  have nodup : ∀ other : OrderedMap κ α, other.entries.Nodup := fun other =>
    List.Nodup.of_map Prod.fst other.keys_nodup
  refine (perm_ext_iff_of_nodup (nodup _) ?_).mpr ?_
  · refine nodup_cons.mpr ⟨?_, nodup _⟩
    intro mem
    exact (mem_entries_delete.mp mem).2 rfl
  · intro entry
    rw [mem_entries_set, mem_cons, mem_entries_delete]

theorem entries_perm_of_get? (found : map.get? key = some value) :
    map.entries.Perm ((key, value) :: (map.delete key).entries) := by
  have perm := entries_set_perm map key value
  rwa [set_eq_self found] at perm

theorem size_set_le (map : OrderedMap κ α) (key : κ) (value : α) :
    (map.set key value).size ≤ map.size + 1 := by
  have length := congrArg List.length (setIn_keys key value map.entries)
  simp only [length_map] at length
  simp only [size, set, length]
  split <;> simp

theorem size_set_of_get? {old : α} (found : map.get? key = some old) (value : α) :
    (map.set key value).size = map.size := by
  have mem : key ∈ map.keys := by
    rw [← has_iff, has, found]
    rfl
  have length := congrArg List.length (keys_set_of_mem value mem)
  simpa [keys, size] using length

theorem size_delete_le (map : OrderedMap κ α) (key : κ) : (map.delete key).size ≤ map.size :=
  map.size_filter_le _

theorem size_delete_of_get? (found : map.get? key = some value) :
    (map.delete key).size < map.size := by
  apply length_filter_lt_length_iff_exists.mpr
  exact ⟨(key, value), get?_eq_some_iff.mp found, by simp⟩

theorem setIn_of_not_mem (absent : key ∉ entries.map Prod.fst) :
    setIn key value entries = entries ++ [(key, value)] := by
  induction entries with
  | nil => rfl
  | cons entry rest ih =>
    simp only [map_cons, mem_cons, not_or] at absent
    simp [setIn, Ne.symm absent.1, ih absent.2]

/-- The entries after one key was replaced. -/
def renameIn (key newKey : κ) (change : α → α) (entries : List (κ × α)) : List (κ × α) :=
  entries.map fun entry =>
    if entry.1 = key then (newKey, change entry.2) else entry

theorem renameIn_of_not_mem (newKey : κ) (change : α → α) (absent : key ∉ entries.map Prod.fst) :
    renameIn key newKey change entries = entries := by
  have kept : ∀ entry ∈ entries,
      (if entry.1 = key then (newKey, change entry.2) else entry) = entry := by
    intro entry mem
    apply if_neg
    intro same
    exact absent (same ▸ mem_map_of_mem mem)
  rw [renameIn, map_congr_left kept, map_id']

theorem map_renameIn {key newKey : κ} {change : α → α} {changed : β → β} {image : α → β}
    (commutes : ∀ value, image (change value) = changed (image value))
    (entries : List (κ × α)) :
    ((renameIn key newKey change entries).map fun entry =>
        (entry.1, image entry.2)) =
      renameIn key newKey changed (entries.map fun entry => (entry.1, image entry.2)) := by
  rw [renameIn, renameIn, map_map, map_map]
  apply map_congr_left
  intro entry _
  by_cases same : entry.1 = key
  · simp [same, commutes]
  · simp [same]

theorem filter_of_not_mem (absent : key ∉ entries.map Prod.fst) :
    (entries.filter fun entry => entry.1 ≠ key) = entries := by
  apply filter_eq_self.mpr
  intro entry mem
  have ne : entry.1 ≠ key := by
    intro same
    exact absent (same ▸ mem_map_of_mem mem)
  simpa using ne

theorem renameIn_perm (newKey : κ) (change : α → α) (nodup : (entries.map Prod.fst).Nodup)
    (mem : (key, value) ∈ entries) :
    ((entries.filter fun entry => entry.1 ≠ key) ++
      [(newKey, change value)]).Perm (renameIn key newKey change entries) := by
  obtain ⟨before, behind, rfl⟩ := append_of_mem mem
  rw [map_append, map_cons, nodup_middle, nodup_cons, mem_append, not_or] at nodup
  have renamed : renameIn key newKey change (before ++ (key, value) :: behind) =
        before ++ (newKey, change value) :: behind := by
    have first := renameIn_of_not_mem newKey change nodup.1.1
    have last := renameIn_of_not_mem newKey change nodup.1.2
    rw [renameIn] at first last ⊢
    rw [map_append, map_cons, first, last, if_pos rfl]
  have removed : ((before ++ (key, value) :: behind).filter
      fun entry => entry.1 ≠ key) = before ++ behind := by
    rw [filter_append, filter_cons_of_neg (by simp),
      filter_of_not_mem nodup.1.1, filter_of_not_mem nodup.1.2]
  rw [renamed, removed]
  exact (perm_append_singleton _ _).trans perm_middle.symm

theorem rename_entries_perm {key newKey : κ} (change : α → α) (found : map.get? key = some value)
    (free : newKey ∉ map.keys) :
    ((map.set newKey (change value)).delete key).entries.Perm
      (renameIn key newKey change map.entries) := by
  have mem := get?_eq_some_iff.mp found
  have ne : newKey ≠ key := by
    intro same
    exact free (same ▸ mem_map_of_mem mem)
  have entries : ((map.set newKey (change value)).delete key).entries =
      (map.entries.filter fun entry => entry.1 ≠ key) ++ [(newKey, change value)] := by
    change ((setIn newKey (change value) map.entries).filter fun entry => entry.1 ≠ key) = _
    rw [setIn_of_not_mem free, filter_append]
    simp [ne]
  rw [entries]
  exact renameIn_perm newKey change map.nodup mem

theorem foldl_set_entries (map : OrderedMap κ α) :
    map.entries.foldl (fun built entry => built.set entry.1 entry.2) empty =
      map := by
  have general : ∀ (later : List (κ × α)) (built : OrderedMap κ α),
      ((built.entries ++ later).map Prod.fst).Nodup →
      (later.foldl (fun built entry => built.set entry.1 entry.2)
        built).entries = built.entries ++ later := by
    intro later
    induction later with
    | nil => simp
    | cons entry later ih =>
      intro built nodup
      have absent : entry.1 ∉ built.entries.map Prod.fst := by
        rw [map_append, nodup_append] at nodup
        intro mem
        exact nodup.2.2 _ mem _ (by simp) rfl
      have entries : (built.set entry.1 entry.2).entries =
          built.entries ++ [entry] := setIn_of_not_mem absent
      rw [foldl_cons, ih _ (by rw [entries]; simpa using nodup), entries]
      simp
  exact ext_entries (general map.entries empty map.nodup)

/-- The map of a list of entries, the last one of a key. -/
def ofList (entries : List (κ × α)) : OrderedMap κ α :=
  entries.foldl (fun built entry => built.set entry.1 entry.2) empty

variable {start : OrderedMap κ α}

theorem keys_foldl_set_congr {others : List (κ × β)} {other : OrderedMap κ β}
    (same : entries.map Prod.fst = others.map Prod.fst)
    (sameStart : start.keys = other.keys) :
    (entries.foldl (fun built entry => built.set entry.1 entry.2) start).keys =
      (others.foldl (fun built entry => built.set entry.1 entry.2) other).keys := by
  induction entries generalizing others start other with
  | nil =>
    obtain rfl := map_eq_nil_iff.mp same.symm
    exact sameStart
  | cons entry entries ih =>
    cases others with
    | nil => cases same
    | cons first others =>
      obtain ⟨sameKey, rest⟩ := List.cons.inj same
      apply ih rest
      rw [keys_set, keys_set, sameStart, sameKey]

theorem get?_foldl_set (found : (entries.foldl (fun built entry => built.set entry.1 entry.2)
      start).get? key = some value) :
    start.get? key = some value ∨ (key, value) ∈ entries := by
  induction entries generalizing start with
  | nil => exact .inl found
  | cons entry entries ih =>
    rcases ih found with earlier | later
    · rw [get?_set] at earlier
      split at earlier
      next same =>
        cases earlier
        exact .inr (by simp [← same])
      · exact .inl earlier
    · exact .inr (mem_cons_of_mem entry later)

theorem get?_foldl_set_keys {keys : List κ} {value : κ → α} (key : κ) :
    (keys.foldl (fun built key => built.set key (value key)) start).get? key =
      if key ∈ keys then some (value key) else start.get? key := by
  induction keys generalizing start with
  | nil => simp
  | cons first keys ih =>
    rw [foldl_cons, ih, get?_set]
    grind

theorem mem_of_get?_ofList (found : (ofList entries).get? key = some value) :
    (key, value) ∈ entries := by
  rcases get?_foldl_set found with absent | mem
  · simp at absent
  · exact mem

theorem mem_keys_foldl_set : key ∈ (entries.foldl (fun built entry => built.set entry.1 entry.2)
      start).keys ↔ key ∈ start.keys ∨ key ∈ entries.map Prod.fst := by
  induction entries generalizing start with
  | nil => simp
  | cons entry entries ih =>
    rw [foldl_cons, ih, mem_keys_set, map_cons, mem_cons]
    constructor
    · rintro ((same | mem) | mem) <;> simp [*]
    · rintro (mem | same | mem) <;> simp [*]

theorem mem_keys_ofList : key ∈ (ofList entries).keys ↔ key ∈ entries.map Prod.fst := by
  rw [ofList, mem_keys_foldl_set]
  simp

end Lookup

section Object

/-- A key which is the decimal form of a number below `2 ^ 32 - 1`, the
largest length of an array. -/
def isArrayIndex (key : String) : Bool :=
  match key.toList with
  | [] => false
  | first :: rest =>
    (first :: rest).all Char.isDigit && (rest.isEmpty || first != '0') &&
      arrayIndexValue (first :: rest) < 4294967295
where
  arrayIndexValue (digits : List Char) : Nat :=
    digits.foldl (fun total digit => 10 * total + (digit.toNat - 48)) 0

section

variable (map : OrderedMap String α)

/-- The entries of a plain object in the order of its own keys: array indices
ascending, then the other keys in insertion order. -/
def ownEntries : List (String × α) :=
  (map.entries.filter fun entry => isArrayIndex entry.1).insertionSort (fun left right =>
        isArrayIndex.arrayIndexValue left.1.toList ≤ isArrayIndex.arrayIndexValue right.1.toList) ++
    map.entries.filter fun entry => !isArrayIndex entry.1

def ownKeys : List String := map.ownEntries.map Prod.fst

def ownValues : List α := map.ownEntries.map Prod.snd

theorem ownEntries_perm : map.ownEntries.Perm map.entries := by
  refine (List.Perm.append_right _ (perm_insertionSort _ _)).trans ?_
  exact filter_append_perm (fun entry : String × α => isArrayIndex entry.1) map.entries

end

variable {map : OrderedMap String α}

@[simp] theorem mem_ownEntries
    {entry : String × α} : entry ∈ map.ownEntries ↔ entry ∈ map.entries :=
  map.ownEntries_perm.mem_iff

theorem ownKeys_eq (map : OrderedMap String α) : map.ownKeys =
    (map.keys.filter isArrayIndex).insertionSort (fun left right =>
      isArrayIndex.arrayIndexValue left.toList ≤ isArrayIndex.arrayIndexValue right.toList) ++
      map.keys.filter fun key => !isArrayIndex key := by
  have sorted := map_insertionSort (r := fun left right : String × α =>
      isArrayIndex.arrayIndexValue left.1.toList ≤ isArrayIndex.arrayIndexValue right.1.toList)
    (s := fun left right : String =>
      isArrayIndex.arrayIndexValue left.toList ≤ isArrayIndex.arrayIndexValue right.toList)
    Prod.fst (map.entries.filter fun entry => isArrayIndex entry.1)
    (fun _ _ _ _ => Iff.rfl)
  rw [ownKeys, ownEntries, map_append, sorted, keys, filter_map, filter_map]
  rfl

theorem ownKeys_congr {left right : OrderedMap String α}
    (same : left.keys = right.keys) : left.ownKeys = right.ownKeys := by
  rw [ownKeys_eq, ownKeys_eq, same]

theorem ownKeys_nodup (map : OrderedMap String α) : map.ownKeys.Nodup :=
  (map.ownEntries_perm.map Prod.fst).nodup_iff.mpr map.keys_nodup

@[simp] theorem mem_ownKeys {key : String} : key ∈ map.ownKeys ↔ key ∈ map.keys :=
  (map.ownEntries_perm.map Prod.fst).mem_iff

@[simp] theorem mem_ownValues {value : α} : value ∈ map.ownValues ↔ value ∈ map.values :=
  (map.ownEntries_perm.map Prod.snd).mem_iff

example : (((empty.set "b" 1).set "10" 2).set "9" 3).ownKeys = ["9", "10", "b"] := by decide

end Object

end OrderedMap
