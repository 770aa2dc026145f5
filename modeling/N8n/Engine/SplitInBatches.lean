import Mathlib.Data.List.TakeDrop

/-!
# Loop Over Items

The node keeps the items that are left, and what comes back from the loop, in
its context.  Items keep their data; which items they are paired with is
rewritten from the second batch on.
-/

namespace N8n

open List

namespace SplitInBatches

/-- The source data `Source` of an item is not read. -/
structure PairedItemData (Source : Type) where
  item : Nat
  input : Option Nat := none
  sourceOverwrite : Option Source := none

inductive PairedItem (Source : Type) where
  | number (item : Nat)
  | data (data : PairedItemData Source)
  | list (list : List (Nat ⊕ PairedItemData Source))

structure Item (Source Data : Type) where
  data : Data
  pairedItem : Option (PairedItem Source) := none

structure NodeContext (Source Data : Type) where
  items : Option (List (Item Source Data)) := none
  processedItems : List (Item Source Data) := []
  currentRunIndex : Nat := 0
  maxRunIndex : Nat := 0
  sourceData : Option Source := none
  noItemsLeft : Bool := false
  done : Bool := false

structure Input (Source Data : Type) where
  items : List (Item Source Data)
  sourceData : Source

structure Output (Source Data : Type) where
  done : List (Item Source Data)
  loop : List (Item Source Data)

variable {Source Data : Type} (sourceData : Option Source)

def addSourceOverwrite : Nat ⊕ PairedItemData Source → PairedItemData Source
  | .inl item => { item, sourceOverwrite := sourceData }
  | .inr pairedItem => { pairedItem with sourceOverwrite := sourceData }

def getPairedItemInformation (item : Item Source Data) : PairedItem Source :=
  match item.pairedItem with
  | none => .data { item := 0, sourceOverwrite := sourceData }
  | some (.list list) =>
    .list (list.map fun pairedItem => .inr (addSourceOverwrite sourceData pairedItem))
  | some (.number item) => .data (addSourceOverwrite sourceData (.inl item))
  | some (.data data) => .data (addSourceOverwrite sourceData (.inr data))

def newItems (input : Input Source Data) : List (Item Source Data) :=
  input.items.mapIdx fun index item =>
    { item with
      pairedItem := some (.data { item := index, sourceOverwrite := some input.sourceData }) }

def emit (context : NodeContext Source Data) (returnItems : List (Item Source Data)) :
    NodeContext Source Data × Output Source Data :=
  let context := { context with noItemsLeft := (context.items.getD []).isEmpty }
  match returnItems with
  | [] =>
    ({ context with done := true }, { done := context.processedItems, loop := [] })
  | _ :: _ =>
    ({ context with done := false }, { done := [], loop := returnItems })

/-- One execution.  `(n + b - 1) / b` is the rounded up quotient. -/
def execute (batchSize : Nat) (reset : Bool) (context : NodeContext Source Data)
    (input : Input Source Data) :
    NodeContext Source Data × Output Source Data :=
  let items := input.items
  match context.items, reset with
  | some left, false =>
    emit { context with
        currentRunIndex := context.currentRunIndex + 1
        items := some (left.drop batchSize)
        processedItems := context.processedItems ++ newItems input }
      ((left.take batchSize).map fun item =>
        { item with
          pairedItem := some (getPairedItemInformation context.sourceData item) })
  | _, _ =>
    emit { context with
        currentRunIndex := 0
        maxRunIndex := (items.length + batchSize - 1) / batchSize
        sourceData := some input.sourceData
        items := some (items.drop batchSize)
        processedItems := [] }
      (items.take batchSize)

/-- What the `n`-th execution emits; `input n` is what it gets. -/
def outputOf (batchSize : Nat) (context : NodeContext Source Data)
    (input : Nat → Input Source Data) : Nat → Output Source Data
  | 0 => (execute batchSize false context (input 0)).2
  | n + 1 =>
    outputOf batchSize (execute batchSize false context (input 0)).1
      (fun later => input (later + 1)) n

/-- The items without what they are paired with. -/
def contents (items : List (Item Source Data)) : List Data := items.map Item.data

variable (input : Nat → Input Source Data)

/-- The items of the first `count` lists from the loop. -/
def fedBack (count : Nat) : List Data :=
  (List.range count).flatMap fun index => contents (input index).items

/-- The batches are handed out one after the other, then what was collected. -/
def HandsOut (batchSize : Nat) (items : List Data)
    (output : Nat → Output Source Data) (collected : Nat → List Data) : Prop :=
  ∃ batches : List (List Data), batches.flatten = items ∧
    (∀ batch ∈ batches, batch ≠ [] ∧ batch.length ≤ batchSize) ∧
    (∀ batch ∈ batches.dropLast, batch.length = batchSize) ∧
    (∀ index batch, batches[index]? = some batch →
      (output index).done = [] ∧ contents (output index).loop = batch) ∧
    (output batches.length).loop = [] ∧
    contents (output batches.length).done = collected batches.length

theorem contents_newItems (input : Input Source Data) :
    contents (newItems input) = contents input.items := by
  refine ext_getElem ?_ fun index _ _ => ?_
  · simp [contents, newItems]
  · simp [contents, newItems]

theorem fedBack_succ (count : Nat) : fedBack input (count + 1) =
      contents (input 0).items ++ fedBack (fun later => input (later + 1)) count := by
  simp [fedBack, range_succ_eq_map, flatMap_map]

variable {batchSize : Nat} {output : Nat → Output Source Data} {collected : Nat → List Data}

theorem HandsOut.cons {first items : List Data}
    (nonempty : first ≠ []) (bounded : first.length ≤ batchSize)
    (full : items ≠ [] → first.length = batchSize)
    (done : (output 0).done = []) (loop : contents (output 0).loop = first)
    (rest : HandsOut batchSize items (fun later => output (later + 1))
      (fun later => collected (later + 1))) :
    HandsOut batchSize (first ++ items) output collected := by
  obtain ⟨batches, joined, sizes, fulls, emitted, last, all⟩ := rest
  refine ⟨first :: batches, by simp [joined], ?_, ?_, ?_, last, all⟩
  · simpa [nonempty, bounded] using sizes
  · intro batch mem
    by_cases empty : batches = []
    · simp [empty] at mem
    · rw [dropLast_cons_of_ne_nil empty] at mem
      rcases mem_cons.mp mem with rfl | mem
      · refine full fun none => ?_
        obtain ⟨other, mem⟩ := exists_mem_of_ne_nil _ empty
        exact (sizes other mem).1 (flatten_eq_nil_iff.mp (joined.trans none) other mem)
      · exact fulls batch mem
  · rintro (_ | index) batch isAt
    · cases isAt
      exact ⟨done, loop⟩
    · exact emitted index batch isAt

/-- A batch and the batches after it, where more items are left only after a
full one. -/
theorem HandsOut.of_take (positive : 0 < batchSize)
    {items : List (Item Source Data)} (nonempty : items ≠ [])
    (done : (output 0).done = [])
    (loop : contents (output 0).loop = contents (items.take batchSize))
    (rest : HandsOut batchSize (contents (items.drop batchSize))
      (fun later => output (later + 1)) (fun later => collected (later + 1))) :
    HandsOut batchSize (contents items) output collected := by
  have split : contents items =
      contents (items.take batchSize) ++ contents (items.drop batchSize) := by
    rw [contents, contents, contents, ← map_append, take_append_drop]
  rw [split]
  refine HandsOut.cons ?_ ?_ (fun more => ?_) done loop rest
  · simp [contents, nonempty, Nat.ne_of_gt positive]
  · rw [contents, length_map, length_take]
    exact Nat.min_le_left _ _
  · have longer : batchSize < items.length := by simpa [contents] using more
    simp [contents, Nat.min_eq_left (Nat.le_of_lt longer)]

theorem execute_of_left {left : List (Item Source Data)}
    {context : NodeContext Source Data} (isLeft : context.items = some left)
    (input : Input Source Data) :
    ∃ context' output, execute batchSize false context input = (context', output) ∧
      context'.items = some (left.drop batchSize) ∧
      context'.processedItems = context.processedItems ++ newItems input ∧
      (output.done = if (left.take batchSize).isEmpty then context'.processedItems
        else []) ∧
      contents output.loop = contents (left.take batchSize) := by
  simp only [execute, isLeft, emit]
  cases left.take batchSize with
  | nil => exact ⟨_, _, rfl, rfl, rfl, rfl, rfl⟩
  | cons item items =>
    exact ⟨_, _, rfl, rfl, rfl, rfl, by simp [contents]⟩

theorem outputOf_handsOut (positive : 0 < batchSize)
    (left : List (Item Source Data)) (context : NodeContext Source Data)
    (input : Nat → Input Source Data) (isLeft : context.items = some left) :
    HandsOut batchSize (contents left) (outputOf batchSize context input) (fun count =>
        contents context.processedItems ++ fedBack input (count + 1)) := by
  induction length : left.length using Nat.strongRecOn generalizing left context input with
  | _ size ih =>
    obtain ⟨context', output, executed, isLeft', collected, done, loop⟩ :=
      execute_of_left isLeft (input 0)
    have first : outputOf batchSize context input 0 = output := by
      rw [outputOf, executed]
    by_cases empty : left = []
    · subst empty
      refine ⟨[], rfl, by simp, by simp, by simp, ?_, ?_⟩
      · simpa [first, contents] using loop
      · have came := contents_newItems (input 0)
        simp only [contents] at came
        simp [first, done, collected, fedBack, contents, came]
    · refine HandsOut.of_take positive empty ?_ (first ▸ loop) ?_
      · rw [first, done]
        simp [empty, Nat.ne_of_gt positive]
      · have shorter : (left.drop batchSize).length < size := by
          have := length_pos_iff.mpr empty
          simp only [length_drop]
          omega
        have later := ih _ shorter (left.drop batchSize) context'
          (fun later => input (later + 1)) isLeft' rfl
        simp only [outputOf, executed]
        convert later using 2 with count
        rw [collected, fedBack_succ, ← contents_newItems]
        simp [contents]

/-- Every item is handed out once, and what comes back is emitted at the end. -/
theorem execute_handsOutOnce {batchSize : Nat} (positive : 0 < batchSize)
    (input : Nat → Input Source Data) :
    HandsOut batchSize (contents (input 0).items) (outputOf batchSize {} input)
      (fun count => fedBack (fun later => input (later + 1)) count) := by
  have run : ∀ index, outputOf batchSize {} input (index + 1) =
      outputOf batchSize (execute batchSize false {} (input 0)).1
        (fun later => input (later + 1)) index := fun _ => rfl
  have rest := outputOf_handsOut positive ((input 0).items.drop batchSize)
    (execute batchSize false {} (input 0)).1 (fun later => input (later + 1))
  cases taken : (input 0).items.take batchSize with
  | nil =>
    have empty : (input 0).items = [] := by
      simpa [Nat.ne_of_gt positive] using taken
    refine ⟨[], ?_⟩
    simp [outputOf, execute, emit, empty, contents, fedBack]
  | cons item items =>
    have nonempty : (input 0).items ≠ [] := fun empty => by simp [empty] at taken
    simp only [execute, emit, taken, contents, map_nil, nil_append] at rest
    refine HandsOut.of_take positive nonempty ?_ ?_ ?_
    · simp [outputOf, execute, emit, taken]
    · simp [outputOf, execute, emit, taken]
    · simp only [run, execute, emit, taken]
      exact rest trivial

theorem execute_handsOutOnce_three : let input : Input Unit Nat :=
      { items := [{ data := 4 }, { data := 5 }, { data := 6 }], sourceData := () }
    HandsOut 2 [4, 5, 6] (outputOf 2 {} fun _ => input) (fedBack fun _ => input) :=
  execute_handsOutOnce (by decide) fun _ =>
    { items := [{ data := 4 }, { data := 5 }, { data := 6 }], sourceData := () }

end SplitInBatches

end N8n
