import N8n.Library.OrderedSet

/-!
# Sets in insertion order

A set carries the proof that it has no member twice, so that its size is the
length of its list.
-/

universe u

structure InsertionSet (α : Type u) where
  members : List α
  nodup : members.Nodup

namespace InsertionSet

open List OrderedSet

variable {α : Type u} [DecidableEq α]

instance : Membership α (InsertionSet α) := ⟨fun set item => item ∈ set.members⟩

instance (item : α) (set : InsertionSet α) : Decidable (item ∈ set) :=
  inferInstanceAs (Decidable (item ∈ set.members))

section

variable (set : InsertionSet α)

def size : Nat := set.members.length

def first? : Option α := set.members.head?

theorem nodup_add {members : List α} (nodup : members.Nodup) (item : α) :
    (add members item).Nodup := by
  rw [add]
  split
  · exact nodup
  next absent =>
    exact nodup_append.mpr ⟨nodup, nodup_singleton item, by
      intro mem isMem other isItem same
      rw [mem_singleton.mp isItem] at same
      exact absent (same ▸ isMem)⟩

theorem nodup_foldl_add (items : List α) {members : List α}
    (nodup : members.Nodup) : (items.foldl add members).Nodup := by
  induction items generalizing members with
  | nil => exact nodup
  | cons item items ih => exact ih (nodup_add nodup item)

def ofList (items : List α) : InsertionSet α :=
  { members := items.foldl add []
    nodup := nodup_foldl_add items nodup_nil }

def union (other : InsertionSet α) : InsertionSet α :=
  { members := other.members.foldl add set.members
    nodup := nodup_foldl_add other.members set.nodup }

def intersection (other : InsertionSet α) : InsertionSet α :=
  { members := set.members.filter fun item => item ∈ other
    nodup := set.nodup.filter _ }

end

def difference (minuend : InsertionSet α) (subtrahend : InsertionSet α) : InsertionSet α :=
  { members := minuend.members.filter fun item => item ∉ subtrahend
    nodup := minuend.nodup.filter _ }

variable {set other : InsertionSet α} {item : α}

omit [DecidableEq α] in
theorem mem_iff : item ∈ set ↔ item ∈ set.members := Iff.rfl

@[simp] theorem mem_ofList {items : List α} : item ∈ ofList items ↔ item ∈ items := by
  rw [mem_iff, ofList, mem_foldl_add]
  simp

@[simp] theorem mem_union : item ∈ set.union other ↔ item ∈ set ∨ item ∈ other := mem_foldl_add

@[simp] theorem mem_intersection : item ∈ set.intersection other ↔ item ∈ set ∧ item ∈ other := by
  rw [mem_iff, intersection, mem_filter, decide_eq_true_iff]
  rfl

@[simp] theorem mem_difference : item ∈ set.difference other ↔ item ∈ set ∧ item ∉ other := by
  rw [mem_iff, difference, mem_filter, decide_eq_true_iff]
  rfl

omit [DecidableEq α] in
theorem size_eq_zero_iff : set.size = 0 ↔ ∀ item, item ∉ set := by
  rw [size, length_eq_zero_iff, eq_nil_iff_forall_not_mem]
  rfl

omit [DecidableEq α] in
theorem mem_iff_first? (small : set.size ≤ 1) : item ∈ set ↔ set.first? = some item := by
  obtain ⟨members, nodup⟩ := set
  rw [mem_iff, first?]
  cases members with
  | nil => simp
  | cons head rest =>
    cases rest with
    | nil => simp [eq_comm]
    | cons second rest => exact absurd small (by simp [size])

omit [DecidableEq α] in
theorem first?_of_mem_iff {found : Option α} (only : ∀ item, item ∈ set ↔ found = some item) :
    set.size ≤ 1 ∧ set.first? = found := by
  obtain ⟨members, nodup⟩ := set
  cases members with
  | nil =>
    refine ⟨Nat.zero_le 1, ?_⟩
    cases found with
    | none => rfl
    | some item => exact absurd ((only item).mpr rfl) not_mem_nil
  | cons head rest =>
    have isHead := (only head).mp mem_cons_self
    cases rest with
    | nil => exact ⟨Nat.le_refl 1, isHead.symm⟩
    | cons second rest =>
      have isSecond := (only second).mp (mem_cons_of_mem head mem_cons_self)
      rw [isHead] at isSecond
      have same := Option.some.inj isSecond
      subst same
      exact absurd mem_cons_self (nodup_cons.mp nodup).1

end InsertionSet
