import N8n.Engine.Iteration
import N8n.Engine.WaitingBuffer
import N8n.Engine.WaitingCheck

/-!
# What fills the stack

Adding nodes never empties the stack.  An engine request fills it unless it is
ignored or all its nodes have several inputs, and the beginning of an iteration
either leaves it alone or puts its entry back.
-/

namespace N8n

open StateExcept NodeToBeExecuted Except

section Stack

variable {workflow : Workflow} {holds : List IExecuteData → Prop}

/-- What holds of the stack before a computation holds of it afterwards. -/
def KeepsStack (holds : List IExecuteData → Prop) (before after : RunExecutionData) : Prop :=
  holds before.executionData.nodeExecutionStack → holds after.executionData.nodeExecutionStack

instance : Std.Refl (KeepsStack holds) := ⟨fun _ => id⟩

instance : IsTrans RunExecutionData (KeepsStack holds) :=
  ⟨fun _ _ _ first second before => second (first before)⟩

/-- What holds of the stack still holds when entries of a node are added to
it.  The legacy order may force other nodes to execute. -/
def AllowsNode (workflow : Workflow) (holds : List IExecuteData → Prop)
    (nodeName : String) : Prop :=
  ∀ (data : ExecutionData) (item : IExecuteData),
    item.node.name = nodeName ∨ workflow.executionOrder ≠ some .v1 →
    holds data.nodeExecutionStack → holds (data.enqueue workflow item).nodeExecutionStack

theorem keepsStack_updateExecutionData
    {change : ExecutionData → Except ExecutionError ExecutionData}
    (keeps : ∀ data next, change data = .ok next →
      holds data.nodeExecutionStack → holds next.nodeExecutionStack) :
    StateExcept.Always (KeepsStack holds) (Engine.updateExecutionData change) := by
  apply StateExcept.Always.modifyOrThrow
  intro state next changed
  obtain ⟨data, ok, rest⟩ := bind_eq_ok_iff.mp changed
  cases rest
  exact keeps state.executionData data ok

theorem keepsStack_openWaitingEntry (connectionData : IConnection) :
    StateExcept.Always (KeepsStack holds) (openWaitingEntry workflow connectionData) := by
  refine StateExcept.Always.bind ?_ ?_
  · apply keepsStack_updateExecutionData
    intro data next ok before
    cases ok
    rw [startWaiting_nodeExecutionStack]
    exact before
  · intro _
    refine StateExcept.Always.bind StateExcept.Always.get ?_
    intro state
    refine StateExcept.Always.bind (StateExcept.Always.ofExcept _) ?_
    intro found
    cases found with
    | some waitingNodeIndex => exact StateExcept.Always.pure _
    | none =>
      refine StateExcept.Always.bind ?_ ?_
      · apply keepsStack_updateExecutionData
        intro data next ok before
        cases ok
        exact before
      · intro _
        exact StateExcept.Always.pure _

theorem keepsStack_writeWaiting (connectionData : IConnection)
    (output : ParentOutput) (waitingNodeIndex : Nat) :
    StateExcept.Always (KeepsStack holds)
      (writeWaiting connectionData output waitingNodeIndex) := by
  refine StateExcept.Always.bind ?_ ?_
  · apply keepsStack_updateExecutionData
    intro data next ok before
    obtain ⟨_, _, rest⟩ := bind_eq_ok_iff.mp ok
    cases rest
    exact before
  · intro _
    apply keepsStack_updateExecutionData
    intro data next ok before
    obtain ⟨_, _, rest⟩ := bind_eq_ok_iff.mp ok
    cases rest
    exact before

variable {connectionData : IConnection} {output : ParentOutput}

theorem keepsStack_followInputs (allows : AllowsNode workflow holds connectionData.node)
    (nodeWasWaiting : Bool) :
    StateExcept.Always (KeepsStack holds)
      (followInputs workflow output connectionData.node nodeWasWaiting) := by
  refine StateExcept.Always.ite (StateExcept.Always.pure _) ?_
  refine StateExcept.Always.bind (StateExcept.Always.ofExcept _) ?_
  intro checkOutputNodes
  apply StateExcept.Always.forM
  intro inputData _
  apply StateExcept.Always.modifyOrThrow
  intro state next ok before
  obtain ⟨forced, found, ok⟩ := bind_eq_ok_iff.mp ok
  cases forced with
  | some item =>
    cases ok
    obtain ⟨_, legacy⟩ := forcedItem_eq_some found
    exact allows state.executionData item (.inr legacy) before
  | none =>
    cases ok
    exact before

theorem keepsStack_addToWaiting (allows : AllowsNode workflow holds connectionData.node) :
    StateExcept.Always (KeepsStack holds) (addToWaiting workflow connectionData output) := by
  refine StateExcept.Always.bind StateExcept.Always.get ?_
  intro state
  refine StateExcept.Always.bind (keepsStack_openWaitingEntry connectionData) ?_
  intro waitingNodeIndex
  refine StateExcept.Always.bind (keepsStack_writeWaiting connectionData output waitingNodeIndex) ?_
  intro _
  refine StateExcept.Always.bind StateExcept.Always.get ?_
  intro written
  refine StateExcept.Always.bind (StateExcept.Always.ofExcept _) ?_
  intro slots
  refine StateExcept.Always.ite ?_ ?_
  · apply keepsStack_updateExecutionData
    intro data next ok before
    rw [releaseWaiting] at ok
    split at ok
    next node connections found _ =>
      cases ok
      exact allows data _ (.inl (Workflow.getNode_name found)) before
    · cases ok
  · refine StateExcept.Always.bind (keepsStack_followInputs allows _) ?_
    intro _
    apply keepsStack_updateExecutionData
    intro data next ok before
    obtain ⟨_, _, ok⟩ := bind_eq_ok_iff.mp ok
    obtain ⟨_, _, ok⟩ := bind_eq_ok_iff.mp ok
    cases ok
    exact before

theorem addToStack_eq_ok {newRunIndex : Option Nat}
    {metadata : Option ITaskMetadata} {data next : ExecutionData}
    (ok : addToStack workflow connectionData output newRunIndex metadata data = .ok next) :
    ∃ node, workflow.getNode connectionData.node = some node ∧
      next = data.enqueue workflow
        (directItem node connectionData output newRunIndex metadata) := by
  rw [addToStack] at ok
  split at ok
  next node found =>
    cases ok
    exact ⟨node, found, rfl⟩
  · cases ok

theorem keepsStack_addNodeToBeExecuted (allows : AllowsNode workflow holds connectionData.node)
    (outputIndex : Nat) (parentNodeName : String)
    (nodeSuccessData : Option (SlotArray (List INodeExecutionData)))
    (runIndex : Nat) (newRunIndex : Option Nat) (metadata : Option ITaskMetadata) :
    StateExcept.Always (KeepsStack holds)
      (addNodeToBeExecuted workflow connectionData outputIndex parentNodeName
        nodeSuccessData runIndex newRunIndex metadata) := by
  refine StateExcept.Always.ite ?_ ?_
  · exact keepsStack_addToWaiting allows
  · apply keepsStack_updateExecutionData
    intro data next ok before
    obtain ⟨node, found, rfl⟩ := addToStack_eq_ok ok
    exact allows data _ (.inl (Workflow.getNode_name found)) before

end Stack

section Filled

variable {workflow : Workflow}

theorem enqueue_ne_nil (data : ExecutionData) (item : IExecuteData) :
    (data.enqueue workflow item).nodeExecutionStack ≠ [] := by
  rw [ExecutionData.enqueue]
  split <;> simp

/-- The call by `handleEngineRequest`. -/
def NodeToBeExecuted.add (workflow : Workflow) (nodeData : NodeToBeExecuted) : Engine PUnit :=
  addNodeToBeExecuted workflow nodeData.inputConnectionData
    nodeData.parentOutputIndex nodeData.parentNode nodeData.parentOutputData
    nodeData.runIndex (some nodeData.nodeRunIndex) nodeData.metadata

theorem exec_add_ne_nil {nodesToBeExecuted : List NodeToBeExecuted}
    {state last : RunExecutionData} (ok : exec
      (nodesToBeExecuted.forM (add workflow)) state = (.ok ⟨⟩, last))
    (filled : state.executionData.nodeExecutionStack ≠ [] ∨ ∃ nodeData ∈ nodesToBeExecuted,
        workflow.numberOfInputs nodeData.inputConnectionData.node ≤ 1) :
    last.executionData.nodeExecutionStack ≠ [] := by
  induction nodesToBeExecuted generalizing state with
  | nil =>
    cases ok
    rcases filled with filled | ⟨nodeData, mem, _⟩
    · exact filled
    · cases mem
  | cons nodeData rest ih =>
    obtain ⟨_, middle, added, ok⟩ := exec_bind_eq_ok.mp ok
    apply ih ok
    have kept : KeepsStack (· ≠ []) state middle := by
      have always : StateExcept.Always (KeepsStack (· ≠ [])) (add workflow nodeData) :=
        keepsStack_addNodeToBeExecuted (fun data item _ _ => enqueue_ne_nil data item) _ _ _ _ _ _
      have keeps := always state
      rwa [added] at keeps
    rcases filled with filled | ⟨other, mem, single⟩
    · exact .inl (kept filled)
    · rcases List.mem_cons.mp mem with rfl | mem
      · left
        rw [add, addNodeToBeExecuted, if_neg (by omega)] at added
        obtain ⟨data, stacked, rfl⟩ := Engine.exec_updateExecutionData_eq_ok.mp added
        obtain ⟨node, _, rfl⟩ := addToStack_eq_ok stacked
        exact enqueue_ne_nil state.executionData _
      · exact .inr ⟨other, mem, single⟩

end Filled

section Request

variable {workflow : Workflow} {currentNode : INode} {request : EngineRequest}
  {runIndex : Nat} {executionData : IExecuteData} {state last : RunExecutionData}

/-- Preparing a request touches neither the stack nor the waiting nodes. -/
def SameExecution (before after : RunExecutionData) : Prop :=
  after.executionData = before.executionData ∧ after.runNodeFilter = before.runNodeFilter

instance : Std.Refl SameExecution := ⟨fun _ => ⟨rfl, rfl⟩⟩

instance : IsTrans RunExecutionData SameExecution :=
  ⟨fun _ _ _ first second =>
    ⟨second.1.trans first.1, second.2.trans first.2⟩⟩

theorem sameExecution_prepareRequestedNode (action : EngineAction) :
    StateExcept.Always SameExecution
      (prepareRequestedNode workflow currentNode runIndex executionData action) := by
  rw [prepareRequestedNode]
  split
  · refine StateExcept.Always.bind (StateExcept.Always.throw _) ?_
    intro _
    refine StateExcept.Always.bind StateExcept.Always.get ?_
    intro _
    refine StateExcept.Always.bind ?_ ?_
    · exact StateExcept.Always.modify fun _ => ⟨rfl, rfl⟩
    · exact fun _ => StateExcept.Always.pure _
  · refine StateExcept.Always.bind StateExcept.Always.get ?_
    intro _
    refine StateExcept.Always.bind ?_ ?_
    · exact StateExcept.Always.modify fun _ => ⟨rfl, rfl⟩
    · exact fun _ => StateExcept.Always.pure _

theorem prepareRequestedNode_node {action : EngineAction}
    {prepared : NodeToBeExecuted × SubNodeExecutionDataAction}
    (ok : exec (prepareRequestedNode workflow currentNode
      runIndex executionData action) state = (.ok prepared, last)) :
    prepared.1.inputConnectionData.node = action.nodeName := by
  rw [prepareRequestedNode] at ok
  split at ok
  · obtain ⟨_, _, thrown, _⟩ := exec_bind_eq_ok.mp ok
    cases thrown
  · cases ok
    rfl

variable {nodesToBeExecuted : List NodeToBeExecuted}

theorem prepareRequestedNodesForExecution_spec {subNodeExecutionData : SubNodeExecutionData}
    (ok : exec (prepareRequestedNodesForExecution workflow
      currentNode request runIndex executionData) state =
        (.ok (nodesToBeExecuted, subNodeExecutionData), last)) :
    SameExecution state last ∧ nodesToBeExecuted.map (·.inputConnectionData.node) =
        request.actions.map EngineAction.nodeName := by
  obtain ⟨prepared, middle, mapped, ok⟩ := exec_bind_eq_ok.mp ok
  cases ok
  constructor
  · have always : StateExcept.Always SameExecution
        (request.actions.mapM (prepareRequestedNode workflow currentNode runIndex executionData)) :=
      StateExcept.Always.mapM sameExecution_prepareRequestedNode
    have kept := always state
    rwa [mapped] at kept
  · have named : List.Forall₂ (fun action prepared =>
        prepared.1.inputConnectionData.node = action.nodeName) request.actions prepared :=
      forall₂_of_exec_mapM (fun _ _ _ _ => prepareRequestedNode_node) mapped
    generalize request.actions = actions at named
    clear mapped ok
    induction named with
    | nil => rfl
    | cons same _ ih =>
      simp only [List.map_cons, same]
      rw [ih]

theorem sameExecution_handleRequest : StateExcept.Always SameExecution
      (handleRequest workflow currentNode request runIndex executionData) := by
  refine StateExcept.Always.bind ?_ ?_
  · refine StateExcept.Always.bind (StateExcept.Always.mapM sameExecution_prepareRequestedNode) ?_
    intro _
    exact StateExcept.Always.pure _
  · intro prepared
    dsimp only
    split
    · exact StateExcept.Always.pure _
    · exact StateExcept.Always.pure _

/-- The nodes a request schedules: the requesting node and then the tools. -/
theorem handleRequest_spec (ok : exec (handleRequest workflow currentNode request
      runIndex executionData) state = (.ok nodesToBeExecuted, last)) :
    SameExecution state last ∧ nodesToBeExecuted.map (·.inputConnectionData.node) =
        match prepareRequestingNodeForResuming executionData with
        | none => []
        | some _ => executionData.node.name :: request.actions.map EngineAction.nodeName := by
  obtain ⟨⟨prepared, subNodeExecutionData⟩, ready, preparation, ok⟩ := exec_bind_eq_ok.mp ok
  obtain ⟨same, names⟩ := prepareRequestedNodesForExecution_spec preparation
  cases resumed : prepareRequestingNodeForResuming executionData with
  | none =>
    rw [resumed] at ok
    cases ok
    exact ⟨same, rfl⟩
  | some resume =>
    obtain ⟨connectionData, parentNode⟩ := resume
    have edge : connectionData.node = executionData.node.name := by
      rw [prepareRequestingNodeForResuming] at resumed
      split at resumed
      · split at resumed
        · cases resumed
        · cases resumed
          rfl
      · cases resumed
    rw [resumed] at ok
    cases ok
    refine ⟨same, ?_⟩
    rw [List.map_cons, names, edge]

/-- A request that is scheduled fills the stack, unless all its nodes collect
their input in waiting entries. -/
theorem handleEngineRequest_spec (ok : exec (handleEngineRequest workflow currentNode
      request runIndex executionData) state = (.ok ⟨⟩, last)) :
    KeepsStack (· ≠ []) state last ∧
      match prepareRequestingNodeForResuming executionData with
      | none => SameExecution state last
      | some _ => ∀ nodeName ∈ executionData.node.name ::
          request.actions.map EngineAction.nodeName, workflow.numberOfInputs nodeName ≤ 1 →
              last.executionData.nodeExecutionStack ≠ [] := by
  obtain ⟨nodesToBeExecuted, middle, handled, scheduled⟩ := exec_bind_eq_ok.mp ok
  obtain ⟨same, names⟩ := handleRequest_spec handled
  have stack := exec_add_ne_nil scheduled
  constructor
  · intro filled
    apply stack
    left
    rwa [same.1]
  · split
    next ignored =>
      rw [ignored] at names
      cases List.map_eq_nil_iff.mp names
      cases scheduled
      exact same
    next resumed =>
      rw [resumed] at names
      dsimp only at names
      intro nodeName mem single
      apply stack
      right
      rw [← names] at mem
      obtain ⟨nodeData, added, rfl⟩ := List.mem_map.mp mem
      exact ⟨nodeData, added, single⟩

end Request

section Begin

variable {workflow : Workflow} {state next : RunExecutionData}

theorem beginIteration_spec {lastExecutionTry : Option ExecutionTry}
    {taken : IExecuteData} {start : IterationStart}
    (ok : exec (beginIteration workflow lastExecutionTry taken) state = (.ok start, next)) :
    match start with
    | .skipped => state.isFiltered taken.node.name = true ∧
        next.executionData = state.executionData ∧
        next.runNodeFilter = state.runNodeFilter
    | .deferred _ => next.executionData.nodeExecutionStack ≠ []
    | .started iteration => iteration.executionNode = taken.node ∧ iteration.tryIndex = 0 := by
  rw [beginIteration, exec_get_bind] at ok
  rw [exec_modify_bind] at ok
  obtain ⟨data, middle, paired, ok⟩ := exec_bind_eq_ok.mp ok
  rw [exec_ofExcept] at paired
  obtain ⟨_, rfl⟩ := Prod.mk.inj paired
  rw [exec_get_bind] at ok
  dsimp only at ok
  split at ok
  · obtain ⟨_, _, thrown, _⟩ := exec_bind_eq_ok.mp ok
    cases thrown
  · split at ok
    next filtered =>
      cases ok
      exact ⟨filtered, rfl, rfl⟩
    · obtain ⟨hasData, middle, ensured, ok⟩ := exec_bind_eq_ok.mp ok
      cases hasData with
      | true =>
        cases ok
        exact ⟨rfl, rfl⟩
      | false =>
        cases ok
        rw [ensureInputData] at ensured
        split at ensured
        · cases ensured
        · cases ensured
          simp

end Begin

end N8n
