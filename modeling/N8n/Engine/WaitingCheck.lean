import N8n.Engine.WaitingNodes
import N8n.Library.FoldExcept

/-!
# The check for waiting nodes

The check at the end of an iteration puts a waiting node on an empty stack
whenever one may execute.  Each round that finds none removes a waiting entry,
so that the search comes to its end.
-/

namespace N8n

open StateExcept WaitingSlots SortedMap

section Count

variable {α : Type} {waiting : WaitingSlots α} {nodeName : String}
  {entries : SortedMap Nat (OrderedMap NodeConnectionType (SlotArray α))}

theorem foldl_add_start (sizes : List Nat) (start : Nat) :
    sizes.foldl (· + ·) start = start + sizes.foldl (· + ·) 0 := by
  induction sizes generalizing start with
  | nil => rfl
  | cons size sizes ih =>
    rw [List.foldl_cons, List.foldl_cons, ih (start + size), ih (0 + size)]
    omega

theorem WaitingSlots.count_of_perm {other : WaitingSlots α}
    (perm : waiting.entries.Perm ((nodeName, entries) :: other.entries)) :
    waiting.count = entries.size + other.count := by
  have sizes : (waiting.values.map size).Perm (entries.size :: other.values.map size) :=
    (perm.map Prod.snd).map size
  have total := sizes.foldl_eq' (f := fun left right => left + right)
    (fun first _ second _ total => Nat.add_right_comm total first second) 0
  rw [count, total, List.foldl_cons, foldl_add_start, Nat.zero_add]
  rfl

theorem WaitingSlots.count_deleteEntry {index : Nat}
    {connections : OrderedMap NodeConnectionType (SlotArray α)}
    (found : (waiting.entriesOf nodeName).get? index = some connections) :
    (waiting.deleteEntry nodeName index ((waiting.entriesOf nodeName).delete index).isEmpty).count <
        waiting.count := by
  have stored : waiting.get? nodeName = some (waiting.entriesOf nodeName) := by
    rw [entriesOf] at found ⊢
    cases waits : waiting.get? nodeName with
    | none => simp [waits] at found
    | some entries => rfl
  have before := count_of_perm (OrderedMap.entries_perm_of_get? stored)
  have one : (waiting.entriesOf nodeName).size =
      ((waiting.entriesOf nodeName).delete index).size + 1 :=
    (entries_perm_of_get? found).length_eq
  rw [deleteEntry]
  split
  · omega
  · have after := count_of_perm (OrderedMap.entries_set_perm
      waiting nodeName ((waiting.entriesOf nodeName).delete index))
    omega

end Count

/-- `runNodeFilter !== undefined && runNodeFilter.indexOf(nodeName) === -1` -/
def RunExecutionData.isFiltered (state : RunExecutionData) (nodeName : String) : Bool :=
  state.runNodeFilter.any (nodeName ∉ ·)

/-- The entry that was found may execute, and it has items. -/
def Releases (outcome : Except ExecutionError (Option Releasable)) : Prop :=
  ∃ releasable, outcome = .ok (some releasable) ∧ hasItems releasable.taskDataMain = .ok true

instance (outcome : Except ExecutionError (Option Releasable)) : Decidable (Releases outcome) :=
  match outcome with
  | .ok (some releasable) =>
    decidable_of_iff (hasItems releasable.taskDataMain = .ok true)
      ⟨fun found => ⟨releasable, rfl, found⟩, by
        rintro ⟨other, same, found⟩
        cases same
        exact found⟩
  | .ok none => isFalse (by rintro ⟨_, same, _⟩; cases same)
  | .error _ => isFalse (by rintro ⟨_, same, _⟩; cases same)

/-- A waiting node which the rule at the end of an iteration puts on the
stack. -/
structure Schedulable (workflow : Workflow) (state : RunExecutionData)
    (nodeName : String) : Prop where
  waits : nodeName ∈ state.executionData.waitingExecution.ownKeys
  inFilter : state.isFiltered nodeName = false
  released : Releases (releasableEntry workflow state.executionData
    state.executionData.waitingExecution.ownKeys nodeName)

def Stranded (workflow : Workflow) (state : RunExecutionData) : Prop :=
  ∃ nodeName, Schedulable workflow state nodeName

instance (workflow : Workflow) (state : RunExecutionData) : Decidable (Stranded workflow state) :=
  decidable_of_iff (∃ nodeName ∈ state.executionData.waitingExecution.ownKeys,
      state.isFiltered nodeName = false ∧ Releases (releasableEntry workflow state.executionData
          state.executionData.waitingExecution.ownKeys nodeName)) (by
    constructor
    · rintro ⟨nodeName, waits, inFilter, released⟩
      exact ⟨nodeName, waits, inFilter, released⟩
    · rintro ⟨nodeName, waits, inFilter, released⟩
      exact ⟨nodeName, waits, inFilter, released⟩)

/-- The loop may end in the state. -/
def Settled (workflow : Workflow) (state : RunExecutionData) : Prop :=
  state.executionData.nodeExecutionStack = [] → ¬ Stranded workflow state

theorem settled_congr {workflow : Workflow} {state other : RunExecutionData}
    (settled : Settled workflow state)
    (sameData : other.executionData = state.executionData)
    (sameFilter : other.runNodeFilter = state.runNodeFilter) :
    Settled workflow other := by
  intro emptied
  rintro ⟨nodeName, schedulable⟩
  rw [sameData] at emptied
  apply settled emptied
  refine ⟨nodeName, ?_, ?_, ?_⟩
  · rw [← sameData]
    exact schedulable.waits
  · rw [RunExecutionData.isFiltered, ← sameFilter]
    exact schedulable.inFilter
  · rw [← sameData]
    exact schedulable.released

section Release

variable {workflow : Workflow} {state last : RunExecutionData} {waitingNodes : List String}
  {releasable : Releasable} {data : ExecutionData}

theorem releasableEntry_eq_some {nodeName : String}
    (found : releasableEntry workflow data waitingNodes nodeName = .ok (some releasable)) :
    ∃ connections, (data.waitingExecution.entriesOf
      releasable.checkNode.name).get? releasable.firstRunIndex = some connections := by
  rw [releasableEntry] at found
  split at found
  · cases found
  next checkNode node =>
    split at found
    · cases found
    · split at found
      · cases found
      · split at found
        · cases found
        next index _ =>
          obtain ⟨slots, main, found⟩ := Except.bind_eq_ok_iff.mp found
          split at found
          · cases found
            obtain ⟨connections, stored, _⟩ := main_eq_ok.mp main
            rw [Workflow.getNode_name node]
            exact ⟨connections, stored⟩
          · cases found

theorem findReleasable_eq_some {names : List String}
    (found : findReleasable workflow data waitingNodes names = .ok (some releasable)) :
    ∃ nodeName, releasableEntry workflow data waitingNodes nodeName = .ok (some releasable) := by
  induction names with
  | nil => cases found
  | cons nodeName names ih =>
    obtain ⟨entry, checked, found⟩ := Except.bind_eq_ok_iff.mp found
    cases entry with
    | some releasable =>
      cases found
      exact ⟨nodeName, checked⟩
    | none => exact ih found

theorem findReleasable_eq_none {names : List String}
    (found : findReleasable workflow data waitingNodes names = .ok none) :
    ∀ nodeName ∈ names, releasableEntry workflow data waitingNodes nodeName = .ok none := by
  induction names with
  | nil => simp
  | cons nodeName names ih =>
    obtain ⟨entry, checked, found⟩ := Except.bind_eq_ok_iff.mp found
    cases entry with
    | some releasable => cases found
    | none =>
      intro other mem
      rcases List.mem_cons.mp mem with rfl | mem
      · exact checked
      · exact ih found other mem

/-- The search ends with a node on the stack, or with no node left that could
be put there. -/
theorem releaseWaitingNodes_settled {rounds : Nat}
    (enough : state.executionData.waitingExecution.count < rounds)
    (ok : exec (releaseWaitingNodes workflow rounds) state =
      (.ok ⟨⟩, last)) : Settled workflow last := by
  induction rounds generalizing state with
  | zero => omega
  | succ rounds ih =>
    rw [releaseWaitingNodes, exec_get_bind] at ok
    obtain ⟨found, middle, searched, ok⟩ := exec_bind_eq_ok.mp ok
    rw [exec_ofExcept] at searched
    obtain ⟨searchedOk, rfl⟩ := Prod.mk.inj searched
    cases found with
    | none =>
      cases ok
      rintro - ⟨nodeName, schedulable⟩
      obtain ⟨releasable, released, _⟩ := schedulable.released
      rw [findReleasable_eq_none searchedOk nodeName schedulable.waits] at released
      cases released
    | some releasable =>
      obtain ⟨found, middle, checked, ok⟩ := exec_bind_eq_ok.mp ok
      rw [exec_ofExcept] at checked
      obtain ⟨_, rfl⟩ := Prod.mk.inj checked
      obtain ⟨_, middle, updated, ok⟩ := exec_bind_eq_ok.mp ok
      obtain ⟨data, released, rfl⟩ := Engine.exec_updateExecutionData_eq_ok.mp updated
      cases released
      cases found with
      | true =>
        cases ok
        intro emptied
        simp [release, ExecutionData.deleteWaiting] at emptied
      | false =>
        refine ih ?_ ok
        obtain ⟨nodeName, entry⟩ := findReleasable_eq_some searchedOk
        obtain ⟨connections, stored⟩ := releasableEntry_eq_some entry
        have less := count_deleteEntry stored
        exact Nat.lt_of_lt_of_le less (Nat.lt_succ_iff.mp enough)

theorem checkWaitingNodes_settled (ok : exec (checkWaitingNodes workflow) state =
      (.ok ⟨⟩, last)) : Settled workflow last := by
  rw [checkWaitingNodes, exec_get_bind] at ok
  dsimp only at ok
  split at ok
  · exact releaseWaitingNodes_settled (Nat.lt_succ_self _) ok
  next filled =>
    cases ok
    intro emptied
    simp [emptied] at filled

end Release

end N8n
