import N8n.Library.SortedMap

/-!
# Join buffers

A join buffer collects the inputs of an operation that needs a value at each
of several inputs.  A row has one slot for each input.  A value goes to the
first row whose slot for the input is free, and a complete row is released.

If every row already has the input, a new row is opened.  Its key is the
number of rows in the buffer, which need not be a free key once rows in the
middle have been released.  `Roomy` is the condition under which a delivery
loses nothing.
-/

universe u

/-- Rows by key. -/
abbrev JoinBuffer (α : Type u) := SortedMap Nat (List (Option α))

namespace JoinBuffer

open SortedMap List

variable {α : Type u}

section

variable (buffer : JoinBuffer α)

/-- The first row in which the slot of the input is free. -/
def openRow (input : Nat) : Option (Nat × List (Option α)) :=
  buffer.entries.find? fun entry => (entry.2[input]?.join).isNone

/-- The row that receives a value at the input, before it receives it. -/
def receivingRow (width : Nat) (buffer : JoinBuffer α) (input : Nat) : Nat × List (Option α) :=
  (buffer.openRow input).getD (buffer.size, List.replicate width none)

def filledRow (width : Nat) (buffer : JoinBuffer α) (input : Nat) (item : α) : List (Option α) :=
  (buffer.receivingRow width input).2.set input (some item)

/-- Put a value into its row and release the row if it is complete. -/
def deliver (width : Nat) (buffer : JoinBuffer α) (input : Nat) (item : α) :
    JoinBuffer α × Option (List (Option α)) :=
  let key := (buffer.receivingRow width input).1
  let row := buffer.filledRow width input item
  if row.all Option.isSome then (buffer.delete key, some row)
  else (buffer.set key row, none)

/-- The values of the slots of a row, counting the inputs from `start`. -/
def heldFrom : Nat → List (Option α) → List (Nat × α)
  | _, [] => []
  | start, none :: slots => heldFrom (start + 1) slots
  | start, some item :: slots => (start, item) :: heldFrom (start + 1) slots

/-- The values of a row with their inputs. -/
def heldInRow (row : List (Option α)) : List (Nat × α) := heldFrom 0 row

def held : List (Nat × α) :=
  buffer.entries.flatMap fun entry => heldInRow entry.2

/-- A free slot is left in some row, or the key of a new row is free. -/
def Roomy (input : Nat) : Prop :=
  (buffer.openRow input).isSome ∨ buffer.size ∉ buffer.keys

end

instance (buffer : JoinBuffer α) (input : Nat) : Decidable (buffer.Roomy input) :=
  inferInstanceAs (Decidable (_ ∨ _))

/-- Rows have one slot for each input, and none is complete. -/
structure Waiting (width : Nat) (buffer : JoinBuffer α) : Prop where
  length : ∀ entry ∈ buffer.entries, entry.2.length = width
  incomplete : ∀ entry ∈ buffer.entries, none ∈ entry.2

theorem waiting_empty (width : Nat) : Waiting width (empty : JoinBuffer α) :=
  { length := by simp
    incomplete := by simp }

section Rows

variable {row : List (Option α)} {input : Nat}

theorem heldFrom_replicate (start width : Nat) :
    heldFrom start (List.replicate width (none : Option α)) = [] := by
  induction width generalizing start with
  | zero => rfl
  | succ width ih => exact ih (start + 1)

theorem heldFrom_set_perm (start : Nat) (item : α) (free : row[input]? = some none) :
    (heldFrom start (row.set input (some item))).Perm
      ((start + input, item) :: heldFrom start row) := by
  induction row generalizing start input with
  | nil => cases free
  | cons slot slots ih =>
    cases input with
    | zero =>
      cases free
      exact List.Perm.refl _
    | succ input =>
      have shifted := ih (start + 1) free
      rw [Nat.add_right_comm, Nat.add_assoc] at shifted
      cases slot with
      | none => exact shifted
      | some old => exact (shifted.cons _).trans (List.Perm.swap _ _ _)

theorem heldInRow_set_perm (item : α) (free : row[input]? = some none) :
    (heldInRow (row.set input (some item))).Perm ((input, item) :: heldInRow row) := by
  have filled := heldFrom_set_perm 0 item free
  rwa [Nat.zero_add] at filled

end Rows

section Buffers

variable {width : Nat} {buffer : JoinBuffer α} {input : Nat}

variable {row : List (Option α)}

theorem held_perm_of_get? {key : Nat} (found : buffer.get? key = some row) :
    buffer.held.Perm (heldInRow row ++ held (buffer.delete key)) :=
  (entries_perm_of_get? found).flatMap_right _

theorem held_set_perm (buffer : JoinBuffer α) (key : Nat) (row : List (Option α)) :
    (held (buffer.set key row)).Perm (heldInRow row ++ held (buffer.delete key)) :=
  (buffer.entries_set_perm key row).flatMap_right _

theorem openRow_eq_some {key : Nat} (waiting : buffer.Waiting width)
    (inside : input < width) (found : buffer.openRow input = some (key, row)) :
    buffer.get? key = some row ∧ row[input]? = some none := by
  have mem := mem_of_find?_eq_some found
  have free := find?_some found
  refine ⟨get?_eq_some_iff.mpr mem, ?_⟩
  have length := waiting.length _ mem
  cases slot : row[input]? with
  | none =>
    rw [getElem?_eq_none_iff] at slot
    simp only at length
    omega
  | some value =>
    cases value with
    | none => rfl
    | some held => simp [slot] at free

theorem receivingRow_free (waiting : buffer.Waiting width) (inside : input < width) :
    (buffer.receivingRow width input).2[input]? = some none := by
  rw [receivingRow]
  cases found : buffer.openRow input with
  | none => simp [inside]
  | some entry => exact (openRow_eq_some waiting inside found).2

theorem receivingRow_length (input : Nat) (waiting : buffer.Waiting width) :
    (buffer.receivingRow width input).2.length = width := by
  rw [receivingRow]
  cases found : buffer.openRow input with
  | none => simp
  | some entry =>
    exact waiting.length entry (mem_of_find?_eq_some found)

theorem held_perm_receivingRow (waiting : buffer.Waiting width)
    (inside : input < width) (roomy : buffer.Roomy input) :
    buffer.held.Perm (heldInRow (buffer.receivingRow width input).2 ++
      held (buffer.delete (buffer.receivingRow width input).1)) := by
  rw [receivingRow]
  cases found : buffer.openRow input with
  | none =>
    have absent : buffer.size ∉ buffer.keys := by
      simpa [Roomy, found] using roomy
    simp only [Option.getD_none, heldInRow, heldFrom_replicate,
      nil_append, delete_of_not_mem absent]
    exact List.Perm.refl _
  | some entry =>
    exact held_perm_of_get? (openRow_eq_some waiting inside found).1

variable (item : α)

theorem held_deliver_perm (waiting : buffer.Waiting width)
    (inside : input < width) (roomy : buffer.Roomy input) :
    ((((buffer.deliver width input item).2.map heldInRow).getD []) ++
      held (buffer.deliver width input item).1).Perm ((input, item) :: buffer.held) := by
  have filled := heldInRow_set_perm item (receivingRow_free waiting inside)
  have before := held_perm_receivingRow waiting inside roomy
  have together : (heldInRow (buffer.filledRow width input item) ++
      held (buffer.delete (buffer.receivingRow width input).1)).Perm
        ((input, item) :: buffer.held) :=
    (filled.append_right _).trans (before.symm.cons _)
  rw [deliver]
  split
  · exact together
  · exact (held_set_perm buffer _ _).trans together

theorem waiting_deliver (waiting : buffer.Waiting width) :
    (buffer.deliver width input item).1.Waiting width := by
  rw [deliver]
  split
  · exact
      { length := fun entry mem =>
          waiting.length entry (mem_entries_delete.mp mem).1
        incomplete := fun entry mem =>
          waiting.incomplete entry (mem_entries_delete.mp mem).1 }
  next notFull =>
    constructor
    · intro entry mem
      rcases mem_entries_set.mp mem with rfl | ⟨mem, _⟩
      · rw [filledRow, length_set, receivingRow_length input waiting]
      · exact waiting.length entry mem
    · intro entry mem
      rcases mem_entries_set.mp mem with rfl | ⟨mem, _⟩
      · simpa using notFull
      · exact waiting.incomplete entry mem

/-- A delivery to a roomy buffer changes no slot that has a value: the row is
still there, or it was released with the slot unchanged. -/
theorem slot_deliver (waiting : buffer.Waiting width)
    (inside : input < width) (roomy : buffer.Roomy input) {key other : Nat}
    {value : α} (found : buffer.get? key = some row)
    (slot : row[other]? = some (some value)) :
    ∃ after, after[other]? = some (some value) ∧
      ((buffer.deliver width input item).1.get? key = some after ∨
        ((buffer.deliver width input item).1.get? key = none ∧
          (buffer.deliver width input item).2 = some after)) := by
  have free := receivingRow_free waiting inside
  by_cases receives : (buffer.receivingRow width input).1 = key
  · have sameRow : (buffer.receivingRow width input).2 = row := by
      rw [receivingRow] at receives ⊢
      cases opened : buffer.openRow input with
      | none =>
        have absent : buffer.size ∉ buffer.keys := by
          simpa [Roomy, opened] using roomy
        rw [opened] at receives
        simp only [Option.getD_none] at receives
        rw [receives, ← get?_isSome_iff, found] at absent
        exact absurd rfl absent
      | some entry =>
        rw [opened] at receives
        simp only [Option.getD_some] at receives ⊢
        have stored := (openRow_eq_some waiting inside opened).1
        rw [receives, found] at stored
        exact (Option.some.inj stored).symm
    refine ⟨buffer.filledRow width input item, ?_, ?_⟩
    · have ne : input ≠ other := by
        rintro rfl
        rw [sameRow, slot] at free
        cases free
      rw [filledRow, getElem?_set_ne ne, sameRow, slot]
    · rw [deliver]
      split
      · exact .inr ⟨by rw [receives, get?_delete, if_pos rfl], rfl⟩
      · exact .inl (by rw [receives, get?_set_self])
  · refine ⟨row, slot, .inl ?_⟩
    rw [deliver]
    split
    · rw [get?_delete, if_neg receives, found]
    · rw [get?_set, if_neg receives, found]

end Buffers

end JoinBuffer
