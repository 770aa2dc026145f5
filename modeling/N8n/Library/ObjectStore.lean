import Mathlib.Data.List.Basic

/-!
# Stores of objects

Objects of one kind live in a store and are reached by references.  A new
object gets a new reference, so whatever existed before is told apart by the
size which the store had then.  `KeepsBelow` says that the objects of that
time are as they were; `GrowsBelow` says that they have at most grown.  An object
that has grown, in an order where nothing shrinks, does not come back.
-/

universe u

structure ObjectStore (α : Type u) where
  objects : List α
deriving DecidableEq, Repr

namespace ObjectStore

open List

variable {α : Type u}

section

variable (store : ObjectStore α)

def size : Nat := store.objects.length

variable (object : α)

/-- The new object and the reference to it. -/
def allocate : ObjectStore α × Nat :=
  (⟨store.objects ++ [object]⟩, store.size)

def write (ref : Nat) (object : α) : ObjectStore α :=
  ⟨store.objects.set ref object⟩

@[simp] theorem size_allocate : (store.allocate object).1.size = store.size + 1 := by
  simp [allocate, size]

@[simp] theorem ref_allocate : (store.allocate object).2 = store.size := rfl

@[simp] theorem size_write (ref : Nat) (object : α) :
    (store.write ref object).size = store.size := by
  simp [write, size]

end

variable [Inhabited α]

/-- Only references that the store has given out lead to an object. -/
def read (store : ObjectStore α) (ref : Nat) : α := store.objects.getD ref default

@[simp] theorem read_allocate_self (store : ObjectStore α) (object : α) :
    (store.allocate object).1.read store.size = object := by
  simp [allocate, read, size]

variable {store : ObjectStore α}

theorem read_allocate_of_lt {ref : Nat} (inside : ref < store.size) (object : α) :
    (store.allocate object).1.read ref = store.read ref := by
  simp [allocate, read, getElem?_append_left inside]

theorem read_write_self {ref : Nat} (inside : ref < store.size) (object : α) :
    (store.write ref object).read ref = object := by
  simp only [size] at inside
  simp [write, read, inside]

theorem read_write_ne {ref other : Nat} (ne : other ≠ ref) (object : α) :
    (store.write ref object).read other = store.read other := by
  simp [write, read, List.getElem?_set_ne (Ne.symm ne)]

theorem write_read_self (store : ObjectStore α) (ref : Nat) :
    store.write ref (store.read ref) = store := by
  cases store with
  | mk objects =>
    simp only [write, read, mk.injEq]
    apply ext_getElem?
    intro index
    by_cases same : ref = index
    · by_cases inside : ref < objects.length
      · simp [inside]
      · simp [List.set_eq_of_length_le (Nat.le_of_not_lt inside)]
    · rw [List.getElem?_set_ne same]

theorem read_of_size_le {ref : Nat} (outside : store.size ≤ ref) : store.read ref = default := by
  simp only [size] at outside
  simp [read, outside]

theorem read_allocate_default (store : ObjectStore α) (ref : Nat) :
    (store.allocate default).1.read ref = store.read ref := by
  rcases Nat.lt_trichotomy ref store.size with inside | same | outside
  · exact read_allocate_of_lt inside _
  · subst same
    rw [read_allocate_self, read_of_size_le (Nat.le_refl _)]
  · rw [read_of_size_le (by rw [size_allocate]; exact outside),
      read_of_size_le (Nat.le_of_lt outside)]

/-! ## Objects that stay as they are -/

/-- The objects with references below the limit are as they were. -/
def KeepsBelow (limit : Nat) (before after : ObjectStore α) : Prop :=
  ∀ ref < limit, after.read ref = before.read ref

namespace KeepsBelow

variable {limit : Nat} {first second third : ObjectStore α}

protected theorem refl (limit : Nat) (store : ObjectStore α) : KeepsBelow limit store store :=
  fun _ _ => rfl

theorem trans (left : KeepsBelow limit first second)
    (right : KeepsBelow limit second third) : KeepsBelow limit first third :=
  fun ref below => (right ref below).trans (left ref below)

theorem mono {smaller : Nat} (kept : KeepsBelow limit first second)
    (less : smaller ≤ limit) : KeepsBelow smaller first second :=
  fun ref below => kept ref (Nat.lt_of_lt_of_le below less)

theorem allocate (kept : KeepsBelow limit first second)
    (inside : limit ≤ second.size) (object : α) :
    KeepsBelow limit first (second.allocate object).1 := by
  intro ref below
  rw [read_allocate_of_lt (Nat.lt_of_lt_of_le below inside)]
  exact kept ref below

theorem write (kept : KeepsBelow limit first second) {ref : Nat}
    (outside : limit ≤ ref) (object : α) :
    KeepsBelow limit first (second.write ref object) := by
  intro other below
  rw [read_write_ne (by omega)]
  exact kept other below

theorem object_eq_of_write (kept : KeepsBelow limit first second) {ref : Nat}
    (below : ref < limit) (inside : limit ≤ second.size) {object : α}
    (written : KeepsBelow limit first (second.write ref object)) :
    object = second.read ref := by
  rw [kept ref below, ← written ref below, read_write_self (Nat.lt_of_lt_of_le below inside)]

end KeepsBelow

/-! ## Objects that grow -/

section Growth

variable {order : α → α → Prop} {limit : Nat} {first second third : ObjectStore α}

/-- The objects with references below the limit have at most grown. -/
def GrowsBelow (order : α → α → Prop) (limit : Nat) (before after : ObjectStore α) : Prop :=
  ∀ ref < limit, order (before.read ref) (after.read ref)

theorem GrowsBelow.refl (reflexive : ∀ object, order object object)
    (store : ObjectStore α) : GrowsBelow order limit store store :=
  fun _ _ => reflexive _

theorem GrowsBelow.trans (transitive : ∀ {x y z}, order x y → order y z → order x z)
    (left : GrowsBelow order limit first second)
    (right : GrowsBelow order limit second third) :
    GrowsBelow order limit first third :=
  fun ref below => transitive (left ref below) (right ref below)

theorem GrowsBelow.write (reflexive : ∀ object, order object object)
    {store : ObjectStore α} {ref : Nat} {object : α}
    (grown : order (store.read ref) object) :
    GrowsBelow order limit store (store.write ref object) := by
  intro other _
  by_cases same : other = ref
  · subst other
    by_cases inside : ref < store.size
    · rw [read_write_self inside]
      exact grown
    · have outside : store.objects.length ≤ ref := Nat.le_of_not_lt inside
      have nothing : (store.write ref object).read ref = store.read ref := by
        simp [ObjectStore.write, read, List.set_eq_of_length_le outside]
      rw [nothing]
      exact reflexive _
  · rw [read_write_ne same]
    exact reflexive _

theorem KeepsBelow.of_growsBelow (antisymmetric : ∀ {x y}, order x y → order y x → x = y)
    (left : GrowsBelow order limit first second)
    (right : GrowsBelow order limit second third)
    (back : KeepsBelow limit first third) : KeepsBelow limit first second := by
  intro ref below
  apply antisymmetric
  · rw [← back ref below]
    exact right ref below
  · exact left ref below

end Growth

end ObjectStore
