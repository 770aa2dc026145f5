import Mathlib.Data.Char
import Mathlib.Data.List.Lex
import Mathlib.Data.Nat.Find
import N8n.Engine.WaitingCheck

/-!
# The order in which waiting entries are released

The run indices of the waiting entries of a node are sorted as texts, so the
first of them need not be the smallest number.  The entry that the end of an
iteration releases is the oldest one exactly if no entry comes before the
oldest one in the order of the texts.
-/

namespace N8n

open List

section FirstRunIndex

variable {α : Type} {entries : SortedMap Nat α} {index : Nat}

theorem toDigits_injective : Function.Injective (Nat.toDigits 10) := by
  intro left right same
  rw [← Nat.ofDigitChars_ten_toDigits (n := left), same, Nat.ofDigitChars_ten_toDigits]

/-- The step of the search for the first text. -/
def firstText (first : Option Nat) (index : Nat) : Option Nat :=
  match first with
  | none => some index
  | some other =>
    if Nat.toDigits 10 index < Nat.toDigits 10 other then some index
    else some other

theorem foldl_firstText {indices : List Nat} {start first : Nat}
    (found : indices.foldl firstText (some start) = some first) :
    (first = start ∨ first ∈ indices) ∧ Nat.toDigits 10 first ≤ Nat.toDigits 10 start ∧
      ∀ index ∈ indices, Nat.toDigits 10 first ≤ Nat.toDigits 10 index := by
  induction indices generalizing start with
  | nil =>
    cases found
    exact ⟨.inl rfl, le_rfl, by simp⟩
  | cons head tail ih =>
    rw [foldl_cons, firstText] at found
    split at found
    next before =>
      obtain ⟨mem, least, rest⟩ := ih found
      refine ⟨.inr (mem_cons.mpr mem), least.trans before.le, ?_⟩
      intro index listed
      rcases mem_cons.mp listed with rfl | later
      · exact least
      · exact rest index later
    next notBefore =>
      obtain ⟨mem, least, rest⟩ := ih found
      refine ⟨mem.imp_right (mem_cons_of_mem _), least, ?_⟩
      intro index listed
      rcases mem_cons.mp listed with rfl | later
      · exact least.trans (not_lt.mp notBefore)
      · exact rest index later

theorem firstRunIndex_spec (found : firstRunIndex entries = some index) :
    index ∈ entries.keys ∧ ∀ other ∈ entries.keys,
      Nat.toDigits 10 index ≤ Nat.toDigits 10 other := by
  change entries.keys.foldl firstText none = some index at found
  cases listed : entries.keys with
  | nil =>
    rw [listed] at found
    cases found
  | cons head tail =>
    rw [listed, foldl_cons, firstText] at found
    obtain ⟨mem, least, rest⟩ := foldl_firstText found
    refine ⟨mem_cons.mpr mem, ?_⟩
    intro other otherListed
    rcases mem_cons.mp otherListed with rfl | later
    · exact least
    · exact rest other later

/-- The entry is the oldest one of its node. -/
def IsOldest (entries : SortedMap Nat α) (index : Nat) : Prop :=
  index ∈ entries.keys ∧ ∀ other ∈ entries.keys, index ≤ other

/-- The text of the smallest run index comes before all others. -/
def OldestComesFirst (entries : SortedMap Nat α) : Prop :=
  ∀ oldest, IsOldest entries oldest → ∀ other ∈ entries.keys,
    ¬ Nat.toDigits 10 other < Nat.toDigits 10 oldest

theorem exists_isOldest (mem : index ∈ entries.keys) : ∃ oldest, IsOldest entries oldest := by
  have inhabited : ∃ key, key ∈ entries.keys := ⟨index, mem⟩
  exact ⟨Nat.find inhabited, Nat.find_spec inhabited,
    fun _ listed => Nat.find_min' inhabited listed⟩

theorem isOldest_firstRunIndex_iff (found : firstRunIndex entries = some index) :
    IsOldest entries index ↔ OldestComesFirst entries := by
  obtain ⟨mem, first⟩ := firstRunIndex_spec found
  constructor
  · intro isOldest oldest oldestIs other listed before
    have same : oldest = index := le_antisymm (oldestIs.2 index mem) (isOldest.2 oldest oldestIs.1)
    rw [same] at before
    exact absurd before (not_lt.mpr (first other listed))
  · intro comesFirst
    obtain ⟨oldest, isOldest⟩ := exists_isOldest mem
    have texts : Nat.toDigits 10 index = Nat.toDigits 10 oldest :=
      le_antisymm (first oldest isOldest.1) (not_lt.mp (comesFirst oldest isOldest index mem))
    rw [toDigits_injective texts]
    exact isOldest

end FirstRunIndex

/-! ## The releases at the end of an iteration -/

structure Release where
  before : ExecutionData
  released : Releasable
  hasItems : Bool

namespace Release

def entries (release : Release) : SortedMap Nat (OrderedMap NodeConnectionType
      (SlotArray (List INodeExecutionData))) :=
  release.before.waitingExecution.entriesOf release.released.checkNode.name

end Release

def releases (workflow : Workflow) : Nat → ExecutionData → List Release
  | 0, _ => []
  | rounds + 1, data =>
    match findReleasable workflow data data.waitingExecution.ownKeys
        data.waitingExecution.ownKeys with
    | .ok (some releasable) =>
      match hasItems releasable.taskDataMain with
      | .ok found =>
        { before := data, released := releasable, hasItems := found } ::
          if found then []
          else releases workflow rounds (release workflow releasable found data)
      | .error _ => []
    | _ => []

/-- The releases of `checkWaitingNodes`. -/
def releasesAtEnd (workflow : Workflow) (data : ExecutionData) : List Release :=
  if data.nodeExecutionStack.isEmpty then
    releases workflow (data.waitingExecution.count + 1) data
  else []

theorem firstRunIndex_of_releasableEntry {workflow : Workflow}
    {data : ExecutionData} {waitingNodes : List String} {nodeName : String}
    {releasable : Releasable}
    (found : releasableEntry workflow data waitingNodes nodeName = .ok (some releasable)) :
    firstRunIndex (data.waitingExecution.entriesOf
      releasable.checkNode.name) = some releasable.firstRunIndex := by
  rw [releasableEntry] at found
  cases node : workflow.getNode nodeName with
  | none =>
    rw [node] at found
    cases found
  | some checkNode =>
    simp only [node] at found
    split at found
    · cases found
    · split at found
      · cases found
      · cases first : firstRunIndex (data.waitingExecution.entriesOf nodeName) with
        | none =>
          rw [first] at found
          cases found
        | some index =>
          rw [first] at found
          obtain ⟨slots, _, found⟩ := Except.bind_eq_ok_iff.mp found
          split at found
          · cases found
            rw [Workflow.getNode_name node]
            exact first
          · cases found

theorem firstRunIndex_of_mem_releases {workflow : Workflow} {rounds : Nat}
    {data : ExecutionData} {release : Release}
    (mem : release ∈ releases workflow rounds data) :
    firstRunIndex release.entries = some release.released.firstRunIndex := by
  induction rounds generalizing data with
  | zero => cases mem
  | succ rounds ih =>
    rw [releases] at mem
    cases searched : findReleasable workflow data
        data.waitingExecution.ownKeys data.waitingExecution.ownKeys with
    | error error =>
      rw [searched] at mem
      cases mem
    | ok found =>
      rw [searched] at mem
      cases found with
      | none => cases mem
      | some releasable =>
        simp only at mem
        cases checked : hasItems releasable.taskDataMain with
        | error error =>
          rw [checked] at mem
          cases mem
        | ok found =>
          rw [checked] at mem
          rcases mem_cons.mp mem with rfl | later
          · obtain ⟨nodeName, entry⟩ := findReleasable_eq_some searched
            exact firstRunIndex_of_releasableEntry entry
          · cases found with
            | true => cases later
            | false => exact ih later

/-- The releases at the end of an iteration are oldest first exactly if no
text comes before that of the oldest entry. -/
theorem releasesAtEnd_oldest_iff (workflow : Workflow) (data : ExecutionData) :
    (∀ release ∈ releasesAtEnd workflow data,
        IsOldest release.entries release.released.firstRunIndex) ↔
      ∀ release ∈ releasesAtEnd workflow data, OldestComesFirst release.entries := by
  apply forall₂_congr
  intro release mem
  rw [releasesAtEnd] at mem
  split at mem
  · exact isOldest_firstRunIndex_iff (firstRunIndex_of_mem_releases mem)
  · cases mem

namespace ReleaseExample

def merge : INode := { name := "Merge" }

def workflow : Workflow :=
  { nodes := Workflow.setNodes [merge]
    connectionsBySourceNode := .empty
    nodes_named := Workflow.setNodes_named _ }

def oneInput : OrderedMap NodeConnectionType (SlotArray (List INodeExecutionData)) :=
  OrderedMap.empty.set .main [.value [INodeExecutionData.blank], .null]

def twoEntries : ExecutionData :=
  { waitingExecution := OrderedMap.empty.set "Merge"
      ((SortedMap.empty.set 2 oneInput).set 10 oneInput) }

/-- The entry of run 10 is released while that of run 2 goes on waiting. -/
theorem releases_tenBeforeTwo : ∃ release ∈ releasesAtEnd workflow twoEntries,
      release.released.firstRunIndex = 10 ∧
        ¬ IsOldest release.entries release.released.firstRunIndex := by
  have observed : (releasesAtEnd workflow twoEntries).map (fun release =>
      (release.released.firstRunIndex, release.entries.keys)) = [(10, [2, 10])] := by decide +kernel
  obtain ⟨release, mem, same⟩ : ∃ release ∈ releasesAtEnd workflow twoEntries,
        (release.released.firstRunIndex, release.entries.keys) = (10, [2, 10]) := by
    apply mem_map.mp
    exact mem_singleton.mpr rfl
  simp only [Prod.mk.injEq] at same
  refine ⟨release, mem, same.1, ?_⟩
  intro isOldest
  have least := isOldest.2 2 (by rw [same.2]; simp)
  omega

end ReleaseExample

end N8n
