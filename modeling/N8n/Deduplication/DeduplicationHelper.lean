import Mathlib.Data.List.Count
import Mathlib.Logic.Equiv.Basic
import N8n.Library.Machine

/-!
# Deduplication in mode `entries`

The history of a context is a list of hashes, or no row at all before the first
call.  A batch is compared with the history as it was before the batch, so a
value that is repeated in a batch is recorded as often, while `removeProcessed`
takes out one entry per item.  The list stands for the set of remembered values
as long as no removal leaves an entry of a removed value behind.
-/

universe u

namespace N8n

open List

/-- How items become hashes: the string form of an item and the digest of a
string. -/
structure ItemHashing (Item : Type u) where
  toString : Item → String
  digest : String → String

structure DeduplicationOutput (Item : Type u) where
  new : List Item := []
  processed : List Item := []
deriving DecidableEq

namespace DeduplicationHelper

variable {Item : Type u} (hashing : ItemHashing Item)

def createValueHash (value : Item) : String :=
  hashing.digest (hashing.toString value)

/-- `splice(0, length - maxEntries)`, which is left out when `maxEntries` is
zero or missing and removes nothing from a short list. -/
def spliceEntries (maxEntries : Option Nat) (data : List String) : List String :=
  match maxEntries with
  | none => data
  | some 0 => data
  | some (count + 1) => data.drop (data.length - (count + 1))

/-- The body of `hashedItems.forEach`. -/
def recordItem (processedItemsSet : List String)
    (state : DeduplicationOutput Item × List String) (item : Item) :
    DeduplicationOutput Item × List String :=
  let hash := createValueHash hashing item
  if hash ∈ processedItemsSet then
    ({ state.1 with processed := state.1.processed ++ [item] }, state.2)
  else
    ({ state.1 with new := state.1.new ++ [item] }, state.2 ++ [hash])

section

variable (items : List Item) (maxEntries : Option Nat)

variable (processedData : Option (List String))

/-- The output and the stored data; `processedData` is `none` when there is no
row yet. -/
def handleHashedItems : DeduplicationOutput Item × List String :=
  match processedData with
  | none =>
    ({ new := items }, spliceEntries maxEntries (items.map (createValueHash hashing)))
  | some data =>
    let (returnData, recorded) := items.foldl (recordItem hashing data) ({}, data)
    (returnData, spliceEntries maxEntries recorded)

/-- `checkProcessedAndRecord` in mode `entries`: the output and the row behind
the call. -/
def checkProcessedAndRecord : DeduplicationOutput Item × Option (List String) :=
  let (returnData, data) := handleHashedItems hashing items maxEntries processedData
  (returnData, some data)

/-- `findIndex` and `splice` remove the first entry of the hash. -/
def removeProcessed : Option (List String) :=
  processedData.map fun data =>
    (items.map (createValueHash hashing)).foldl List.erase data

end

def clearAllProcessedItems (_processedData : Option (List String)) : Option (List String) :=
  none

end DeduplicationHelper

inductive DeduplicationCall (Item : Type u) where
  | checkProcessedAndRecord (items : List Item)
  | removeProcessed (items : List Item)
  | clearAllProcessedItems

/-- The row of a context and the calls made for it, the latest one first. -/
structure DeduplicationRun (Item : Type u) where
  processedData : Option (List String) := none
  calls : List (DeduplicationCall Item) := []

namespace DeduplicationRun

open DeduplicationHelper

variable {Item : Type u} (hashing : ItemHashing Item)

def perform (processedData : Option (List String)) : DeduplicationCall Item → Option (List String)
  | .checkProcessedAndRecord items =>
    (checkProcessedAndRecord hashing items none processedData).2
  | .removeProcessed items =>
    removeProcessed hashing items processedData
  | .clearAllProcessedItems =>
    clearAllProcessedItems processedData

def step : Machine (DeduplicationRun Item) (DeduplicationCall Item) :=
  fun run call => some
    { processedData := perform hashing run.processedData call
      calls := call :: run.calls }

/-- An item with this string form was passed to a call of
`checkProcessedAndRecord` and was neither passed to `removeProcessed` nor
cleared since. -/
def remembers (form : String) : List (DeduplicationCall Item) → Bool
  | [] => false
  | .checkProcessedAndRecord items :: earlier =>
    form ∈ items.map hashing.toString || remembers form earlier
  | .removeProcessed items :: earlier =>
    form ∉ items.map hashing.toString && remembers form earlier
  | .clearAllProcessedItems :: _ => false

section

variable (run : DeduplicationRun Item)

def remembersItem (item : Item) : Bool :=
  remembers hashing (hashing.toString item) run.calls

/-- The next call reports the remembered items as processed and all others as
new. -/
def Reports : Prop :=
  ∀ items, (checkProcessedAndRecord hashing items none run.processedData).1 =
    { new := items.filter fun item => !run.remembersItem hashing item
      processed := items.filter (run.remembersItem hashing) }

/-- The number of entries that the history has for a hash. -/
def entryCount (hash : String) : Nat :=
  (run.processedData.getD []).count hash

/-- A removal names each of its values at least as often as the history has an
entry for it. -/
def removesAll : DeduplicationCall Item → Bool
  | .removeProcessed items =>
    let removed := items.map (createValueHash hashing)
    removed.all fun hash => run.entryCount hash ≤ removed.count hash
  | _ => true

def RemovesAll (call : DeduplicationCall Item) : Prop :=
  removesAll hashing run call = true

end

instance (run : DeduplicationRun Item) (call : DeduplicationCall Item) :
    Decidable (RemovesAll hashing run call) :=
  inferInstanceAs (Decidable (_ = _))

variable {hashing} {run next : DeduplicationRun Item} {items : List Item} {data known : List String}

theorem foldl_recordItem (output : DeduplicationOutput Item) :
    items.foldl (recordItem hashing known) (output, data) =
      ({ new := output.new ++
          items.filter fun item => createValueHash hashing item ∉ known
         processed := output.processed ++
          items.filter fun item => createValueHash hashing item ∈ known },
        data ++ (items.filter fun item =>
          createValueHash hashing item ∉ known).map (createValueHash hashing)) := by
  induction items generalizing output data with
  | nil => simp
  | cons item items ih =>
    by_cases seen : createValueHash hashing item ∈ known
    · simp [recordItem, seen, ih]
    · simp [recordItem, seen, ih]

theorem output_checkProcessedAndRecord (processedData : Option (List String)) :
    (checkProcessedAndRecord hashing items none processedData).1 =
      { new := items.filter fun item =>
          createValueHash hashing item ∉ processedData.getD []
        processed := items.filter fun item =>
          createValueHash hashing item ∈ processedData.getD [] } := by
  cases processedData with
  | none =>
    simp [checkProcessedAndRecord, handleHashedItems]
  | some data =>
    simp [checkProcessedAndRecord, handleHashedItems, foldl_recordItem]

theorem mem_checkProcessedAndRecord {processedData : Option (List String)} {hash : String} :
    hash ∈ ((checkProcessedAndRecord hashing items none processedData).2).getD [] ↔
      hash ∈ items.map (createValueHash hashing) ∨ hash ∈ processedData.getD [] := by
  cases processedData with
  | none =>
    simp [checkProcessedAndRecord, handleHashedItems, spliceEntries]
  | some data =>
    simp only [checkProcessedAndRecord,
      handleHashedItems, foldl_recordItem, spliceEntries, Option.getD_some,
      mem_append, mem_map, mem_filter, decide_eq_true_eq]
    constructor
    · rintro (stored | ⟨item, ⟨mem, _⟩, same⟩)
      · exact .inr stored
      · exact .inl ⟨item, mem, same⟩
    · rintro (⟨item, mem, same⟩ | stored)
      · by_cases seen : hash ∈ data
        · exact .inl seen
        · exact .inr ⟨item, ⟨mem, same ▸ seen⟩, same⟩
      · exact .inl stored

section

variable (hashing : ItemHashing Item)

theorem count_removeProcessed
    (items : List Item) (processedData : Option (List String)) (hash : String) :
    ((removeProcessed hashing items processedData).getD []).count hash =
      (processedData.getD []).count hash - (items.map (createValueHash hashing)).count hash := by
  cases processedData with
  | none => simp [removeProcessed]
  | some data =>
    rw [removeProcessed, Option.map_some, ← diff_eq_foldl, Option.getD_some, Option.getD_some,
      count_diff]

/-- The history has an entry for exactly the remembered string forms. -/
def Exact (run : DeduplicationRun Item) : Prop :=
  ∀ form, hashing.digest form ∈ run.processedData.getD [] ↔ remembers hashing form run.calls = true

theorem start_exact : Exact hashing {} := by
  intro form
  simp [remembers]

end

theorem Exact.reports (exact : Exact hashing run) : Reports hashing run := by
  intro items
  rw [output_checkProcessedAndRecord]
  have same (item : Item) : decide (createValueHash hashing item ∈ run.processedData.getD []) =
        run.remembersItem hashing item := by
    rw [Bool.eq_iff_iff, decide_eq_true_iff]
    exact exact (hashing.toString item)
  simp only [decide_not, same]

theorem mem_map_createValueHash (injective : Function.Injective hashing.digest) {form : String} :
    hashing.digest form ∈ items.map (createValueHash hashing) ↔
      form ∈ items.map hashing.toString := by
  constructor
  · intro mem
    obtain ⟨item, itemMem, same⟩ := mem_map.mp mem
    rw [← injective same]
    exact mem_map_of_mem itemMem
  · intro mem
    obtain ⟨item, itemMem, rfl⟩ := mem_map.mp mem
    exact mem_map_of_mem itemMem

theorem mem_removeProcessed
    (all : RemovesAll hashing run (.removeProcessed items)) {hash : String} :
    hash ∈ (removeProcessed hashing items run.processedData).getD [] ↔
      hash ∉ items.map (createValueHash hashing) ∧ hash ∈ run.processedData.getD [] := by
  rw [RemovesAll, removesAll, all_eq_true] at all
  have counted := count_removeProcessed hashing items run.processedData hash
  rw [← count_pos_iff, ← count_pos_iff (l := Option.getD _ _), counted]
  by_cases named : hash ∈ items.map (createValueHash hashing)
  · have enough := decide_eq_true_iff.mp (all hash named)
    rw [entryCount] at enough
    simp only [named, not_true_eq_false, false_and, iff_false]
    omega
  · have none := count_eq_zero.mpr named
    simp [named, none]

variable {call : DeduplicationCall Item}

theorem Exact.step (injective : Function.Injective hashing.digest) (exact : Exact hashing run)
    (all : RemovesAll hashing run call)
    (moved : step hashing run call = some next) : Exact hashing next := by
  cases moved
  intro form
  cases call with
  | checkProcessedAndRecord items =>
    simp only [perform, remembers, Bool.or_eq_true, decide_eq_true_eq]
    rw [mem_checkProcessedAndRecord, exact form, mem_map_createValueHash injective]
  | removeProcessed items =>
    simp only [perform, remembers, Bool.and_eq_true, decide_eq_true_eq]
    rw [mem_removeProcessed all, exact form, mem_map_createValueHash injective]
  | clearAllProcessedItems =>
    simp [perform, remembers, clearAllProcessedItems]

theorem removesAll_of_reports (moved : step hashing run call = some next)
    (reports : Reports hashing next) : RemovesAll hashing run call := by
  cases moved
  cases call with
  | checkProcessedAndRecord items => rfl
  | clearAllProcessedItems => rfl
  | removeProcessed items =>
    rw [RemovesAll, removesAll, all_eq_true]
    intro hash named
    obtain ⟨item, mem, rfl⟩ := mem_map.mp named
    rw [decide_eq_true_iff]
    by_contra left
    have stays : createValueHash hashing item ∈ (removeProcessed hashing items
          run.processedData).getD [] := by
      rw [← count_pos_iff, count_removeProcessed]
      rw [entryCount] at left
      omega
    have forgotten : remembers hashing (hashing.toString item)
        (.removeProcessed items :: run.calls) = false := by
      have removed := mem_map_of_mem (f := hashing.toString) mem
      simp [remembers, removed]
    have reported := reports [item]
    rw [output_checkProcessedAndRecord] at reported
    simp [perform, remembersItem, stays, forgotten] at reported

/-- What is reported is right throughout a sequence of calls exactly when no
removal leaves an entry of a removed value behind. -/
theorem reports_iff_removesAll (hashing : ItemHashing Item)
    (injective : Function.Injective hashing.digest)
    (calls : List (DeduplicationCall Item)) :
    (step hashing).Always (Reports hashing) {} calls ↔
      (step hashing).Meets (RemovesAll hashing) {} calls := by
  have total (run : DeduplicationRun Item) (call : DeduplicationCall Item) :
      ∃ next, step hashing run call = some next := ⟨_, rfl⟩
  obtain ⟨last, reached⟩ := Machine.run_total total {} calls
  refine Machine.always_iff_meets ?_ ?_ ?_ (start_exact hashing) reached
  · intro run call next exact all stepped
    exact exact.step injective all stepped
  · intro run exact
    exact exact.reports
  · intro run call next _ stepped reports
    exact removesAll_of_reports stepped reports

/-- Strings as items.  The digest of `"a"` is the one of the hash function. -/
private def stringHashing : ItemHashing String :=
  { toString := id
    digest := Equiv.swap "a" "DMF1ucDxtqgxw5niaXcmYQ==" }

theorem reports_removedTwice : (step stringHashing).Always (Reports stringHashing) {}
      [.checkProcessedAndRecord ["a", "a"], .removeProcessed ["a", "a"],
        .checkProcessedAndRecord ["a"]] :=
  (reports_iff_removesAll stringHashing (Equiv.injective _) _).mpr (by decide +kernel)

/-- A value that is recorded twice and removed once is reported as
processed. -/
theorem not_reports_removedOnce : ¬ (step stringHashing).Always (Reports stringHashing) {}
      [.checkProcessedAndRecord ["a", "a"], .removeProcessed ["a"]] := by
  intro always
  have reported := always _ (prefix_refl _) _ rfl ["a"]
  revert reported
  decide +kernel

end DeduplicationRun

end N8n
