import N8n.Engine.FilledStack
import N8n.Engine.ProcessRunExecutionData

/-!
# Requested tools

An engine request puts the entry that resumes the requesting node on the stack
and then the entries of its tools.  In the order v1 the stack is taken from
the end at which it grows, so that the tools run first, together with what they
put on the stack.  The node is only started again by nodes that lead to it.
-/

namespace N8n

open List NodeToBeExecuted StateExcept

/-- The entry `addToStack` makes of a node to be executed. -/
def NodeToBeExecuted.entryOf (nodeData : NodeToBeExecuted) (node : INode) : IExecuteData :=
  directItem node nodeData.inputConnectionData
    { parentNodeName := nodeData.parentNode
      outputIndex := nodeData.parentOutputIndex
      nodeSuccessData := nodeData.parentOutputData
      runIndex := nodeData.runIndex }
    (some nodeData.nodeRunIndex) nodeData.metadata

def NodeToBeExecuted.toEntry (workflow : Workflow)
    (nodeData : NodeToBeExecuted) : Option IExecuteData :=
  (workflow.getNode nodeData.inputConnectionData.node).map nodeData.entryOf

/-- An engine request was scheduled, with an entry for each of its tools and
one that resumes the node. -/
structure Schedules (workflow : Workflow) (state : RunExecutionData)
    (iteration : Iteration) (request : EngineRequest)
    (tools : List IExecuteData) (resume : IExecuteData)
    (next : RunExecutionData) : Prop where
  handled : ∃ nodesToBeExecuted prepared,
    exec (handleRequest workflow iteration.executionNode request
      iteration.runIndex iteration.executionData) state = (.ok nodesToBeExecuted, prepared) ∧
      nodesToBeExecuted.map (·.toEntry workflow) = (resume :: tools).map some
  scheduled : exec (handleEngineRequest workflow iteration.executionNode request iteration.runIndex
      iteration.executionData) state = (.ok ⟨⟩, next)

namespace WorkflowExecute

/-- The entry a step takes from the stack, with the run index it gets. -/
def takes (additionalData : WorkflowExecuteAdditionalData)
    (run : WorkflowExecute) (event : RunEvent) :
    Option (IExecuteData × Nat) :=
  match event, run.phase with
  | .loops now, .loopHead =>
    if run.status = .canceled ∨ additionalData.executionTimeoutTimestamp.any (· ≤ now) then none
    else
      run.runExecutionData.executionData.nodeExecutionStack.head?.map
        fun taken => (taken, run.runExecutionData.runIndexOf taken)
  | _, _ => none

/-- Among the entries taken behind a request the tools come before the entry
that resumes the node, and until then the node is not started with the run
index of the request. -/
structure ToolsRunFirst (tools : List IExecuteData) (resume : IExecuteData)
    (runIndex : Nat) (taken : List (IExecuteData × Nat)) : Prop where
  toolsFirst : resume ∈ taken.map Prod.fst →
    tools.Subperm ((taken.takeWhile (·.1 ≠ resume)).map Prod.fst)
  notRestarted : ∀ started ∈ taken.takeWhile (·.1 ≠ resume),
    started.1.node.name = resume.node.name → started.2 ≠ runIndex

/-- Until the node resumes, no node with a main connection to it is taken from
the stack, and no other request names it. -/
def keepsAway (workflow : Workflow) (resume : IExecuteData)
    (run : WorkflowExecute) (event : RunEvent) : Bool :=
  let nodeExecutionStack := run.runExecutionData.executionData.nodeExecutionStack
  !nodeExecutionStack.contains resume ||
    match event, run.phase with
    | .loops _, .loopHead => nodeExecutionStack.head?.all fun taken =>
      taken == resume || (workflow.outgoing taken.node.name).all
        fun connection => connection.1.node != resume.node.name
    | .nodeEnds call, .runningNode _ | .nodeEnds call, .runningNodeAgain _ =>
      match call.outcome with
      | .requested request => request.actions.all fun action =>
        action.nodeName != resume.node.name
      | _ => true
    | _, _ => true

/-- `keepsAway` as a condition on the steps of a run. -/
def KeepsAway (workflow : Workflow) (resume : IExecuteData)
    (run : WorkflowExecute) (event : RunEvent) : Prop :=
  run.keepsAway workflow resume event = true

instance (workflow : Workflow) (resume : IExecuteData) (run : WorkflowExecute) (event : RunEvent) :
    Decidable (run.KeepsAway workflow resume event) :=
  inferInstanceAs (Decidable (_ = _))

end WorkflowExecute

section Schedule

variable {workflow : Workflow} {state last : RunExecutionData}

theorem exec_add_entries (order : workflow.executionOrder = some .v1)
    {nodesToBeExecuted : List NodeToBeExecuted}
    (single : ∀ nodeData ∈ nodesToBeExecuted,
      workflow.numberOfInputs nodeData.inputConnectionData.node ≤ 1)
    (ok : exec (nodesToBeExecuted.forM (add workflow)) state = (.ok ⟨⟩, last)) :
    ∃ entries : List IExecuteData, nodesToBeExecuted.map (·.toEntry workflow) = entries.map some ∧
      last.executionData.nodeExecutionStack =
        entries.reverse ++ state.executionData.nodeExecutionStack := by
  induction nodesToBeExecuted generalizing state with
  | nil =>
    cases ok
    exact ⟨[], rfl, rfl⟩
  | cons nodeData rest ih =>
    obtain ⟨_, middle, added, ok⟩ := exec_bind_eq_ok.mp ok
    have one := single nodeData mem_cons_self
    rw [add, addNodeToBeExecuted, if_neg (by omega)] at added
    obtain ⟨data, stacked, rfl⟩ := Engine.exec_updateExecutionData_eq_ok.mp added
    obtain ⟨node, found, rfl⟩ := addToStack_eq_ok stacked
    obtain ⟨entries, made, stack⟩ := ih (fun other mem => single other (mem_cons_of_mem _ mem)) ok
    refine ⟨nodeData.entryOf node :: entries, ?_, ?_⟩
    · rw [map_cons, made, toEntry, found]
      rfl
    · rw [stack, reverse_cons, append_assoc]
      simp [ExecutionData.enqueue, order, NodeToBeExecuted.entryOf]

variable {request : EngineRequest} {tools : List IExecuteData}

theorem Schedules.stack (order : workflow.executionOrder = some .v1)
    {iteration : Iteration} {resume : IExecuteData}
    (schedules : Schedules workflow state iteration request tools resume last)
    (single : ∀ nodeName ∈ iteration.executionNode.name ::
      request.actions.map EngineAction.nodeName, workflow.numberOfInputs nodeName ≤ 1) :
    last.executionData.nodeExecutionStack =
      tools.reverse ++ resume :: state.executionData.nodeExecutionStack := by
  obtain ⟨nodesToBeExecuted, prepared, handled, made⟩ := schedules.handled
  have scheduled := schedules.scheduled
  rw [handleEngineRequest, exec_bind_ok handled] at scheduled
  obtain ⟨same, names⟩ := handleRequest_spec handled
  have named : ∀ nodeData ∈ nodesToBeExecuted,
      workflow.numberOfInputs nodeData.inputConnectionData.node ≤ 1 := by
    intro nodeData mem
    apply single
    have listed : nodeData.inputConnectionData.node ∈
        nodesToBeExecuted.map (·.inputConnectionData.node) :=
      mem_map_of_mem mem
    rw [names] at listed
    split at listed
    · cases listed
    · exact listed
  obtain ⟨entries, entryMade, stack⟩ := exec_add_entries order named scheduled
  have sameEntries : entries = resume :: tools := by
    apply map_injective_iff.mpr (Option.some_injective IExecuteData)
    rw [← entryMade, made]
  rw [stack, sameEntries, reverse_cons, append_assoc, same.1]
  rfl

theorem Schedules.names {iteration : Iteration} {resume : IExecuteData}
    (schedules : Schedules workflow state iteration request tools resume last) :
    resume.node.name = iteration.executionNode.name ∧
      tools.map (·.node.name) = request.actions.map EngineAction.nodeName := by
  obtain ⟨nodesToBeExecuted, prepared, handled, made⟩ := schedules.handled
  obtain ⟨_, names⟩ := handleRequest_spec handled
  have entryNames : nodesToBeExecuted.map (·.inputConnectionData.node) =
      (resume :: tools).map (·.node.name) := by
    generalize resume :: tools = entries at made
    clear handled names
    induction nodesToBeExecuted generalizing entries with
    | nil =>
      cases map_eq_nil_iff.mp made.symm
      rfl
    | cons nodeData rest ih =>
      cases entries with
      | nil => cases made
      | cons entry entries =>
        obtain ⟨first, others⟩ := List.cons.inj made
        rw [map_cons, map_cons, ih entries others]
        obtain ⟨node, found, rfl⟩ := Option.map_eq_some_iff.mp first
        rw [← Workflow.getNode_name found]
        rfl
  rw [entryNames] at names
  split at names
  · cases names
  · exact List.cons.inj names

end Schedule

section Keep

variable {workflow : Workflow} {name : String} {kept : List IExecuteData}

/-- The kept entries are on the stack, and no entry of the node above them. -/
def Keeps (name : String) (kept nodeExecutionStack : List IExecuteData) : Prop :=
  ∃ above below, nodeExecutionStack = above ++ kept ++ below ∧
    ∀ entry ∈ above, entry.node.name ≠ name

variable {nodeExecutionStack : List IExecuteData}

theorem Keeps.cons {entry : IExecuteData} (keeps : Keeps name kept nodeExecutionStack)
    (other : entry.node.name ≠ name) :
    Keeps name kept (entry :: nodeExecutionStack) := by
  obtain ⟨above, below, rfl, others⟩ := keeps
  refine ⟨entry :: above, below, rfl, ?_⟩
  intro found mem
  rcases mem_cons.mp mem with rfl | mem
  · exact other
  · exact others found mem

theorem Keeps.append (keeps : Keeps name kept nodeExecutionStack) (later : List IExecuteData) :
    Keeps name kept (nodeExecutionStack ++ later) := by
  obtain ⟨above, below, rfl, others⟩ := keeps
  exact ⟨above, below ++ later, append_assoc _ _ _, others⟩

theorem allowsNode_keeps (order : workflow.executionOrder = some .v1)
    {nodeName : String} (other : nodeName ≠ name) :
    AllowsNode workflow (Keeps name kept) nodeName := by
  intro data item named keeps
  rw [ExecutionData.enqueue]
  simp only [if_pos order]
  apply keeps.cons
  rcases named with named | legacy
  · rwa [named]
  · exact absurd order legacy

/-- A node that is not the given one and does not lead to it. -/
structure StaysAway (workflow : Workflow) (name : String) (node : INode) :
    Prop where
  other : node.name ≠ name
  unconnected : ∀ connection ∈ workflow.outgoing node.name, connection.1.node ≠ name

theorem findNodesToAdd_connection {nodeSuccessData : NodeSuccessData}
    {connections : List (IConnection × Nat)} {nodesToAdd : List NodeToAdd}
    (found : findNodesToAdd workflow nodeSuccessData connections = .ok nodesToAdd) :
    ∀ nodeData ∈ nodesToAdd, (nodeData.connection, nodeData.outputIndex) ∈ connections := by
  induction connections generalizing nodesToAdd with
  | nil =>
    cases found
    simp
  | cons edge rest ih =>
    obtain ⟨_, _, found⟩ := Except.bind_eq_ok_iff.mp found
    obtain ⟨others, foundOthers, found⟩ := Except.bind_eq_ok_iff.mp found
    have listed := ih foundOthers
    intro nodeData mem
    split at found
    · cases found
      rcases mem_cons.mp mem with rfl | mem
      · exact mem_cons_self
      · exact mem_cons_of_mem _ (listed nodeData mem)
    · cases found
      exact mem_cons_of_mem _ (listed nodeData mem)

theorem keepsStack_addConnectedNodes
    (order : workflow.executionOrder = some .v1) {iteration : Iteration}
    (away : StaysAway workflow name iteration.executionNode)
    (nodeSuccessData : NodeSuccessData) :
    StateExcept.Always (KeepsStack (Keeps name kept))
      (addConnectedNodes workflow iteration nodeSuccessData) := by
  rw [addConnectedNodes]
  simp only [if_pos order]
  apply StateExcept.Always.bind_ofExcept
  intro nodesToAdd found
  apply StateExcept.Always.forM
  intro nodeData mem
  apply keepsStack_addNodeToBeExecuted
  apply allowsNode_keeps order
  have listed : nodeData ∈ nodesToAdd := (perm_insertionSort _ _).mem_iff.mp mem
  exact away.unconnected _ (findNodesToAdd_connection found nodeData listed)

theorem keepsStack_beginIteration (lastExecutionTry : Option ExecutionTry) (taken : IExecuteData) :
    StateExcept.Always (KeepsStack (Keeps name kept))
      (beginIteration workflow lastExecutionTry taken) := by
  refine StateExcept.Always.bind StateExcept.Always.get ?_
  intro state
  refine StateExcept.Always.bind ?_ ?_
  · exact StateExcept.Always.modify fun _ => id
  · intro _
    refine StateExcept.Always.bind (StateExcept.Always.ofExcept _) ?_
    intro data
    refine StateExcept.Always.bind StateExcept.Always.get ?_
    intro current
    have rest : StateExcept.Always (KeepsStack (Keeps name kept))
        (ensureInputData workflow { taken with data := data }) := by
      rw [ensureInputData]
      split
      · exact StateExcept.Always.pure _
      · refine StateExcept.Always.bind ?_ ?_
        · apply StateExcept.Always.modify
          intro state keeps
          exact keeps.append _
        · intro _
          exact StateExcept.Always.pure _
    dsimp only
    split
    · refine StateExcept.Always.bind (StateExcept.Always.throw _) ?_
      intro _
      split
      · exact StateExcept.Always.pure _
      · refine StateExcept.Always.bind rest ?_
        intro hasData
        split <;> exact StateExcept.Always.pure _
    · split
      · exact StateExcept.Always.pure _
      · refine StateExcept.Always.bind rest ?_
        intro hasData
        split <;> exact StateExcept.Always.pure _

theorem keepsStack_handleEngineRequest
    (order : workflow.executionOrder = some .v1) {currentNode : INode}
    {request : EngineRequest} {runIndex : Nat} {executionData : IExecuteData}
    (other : executionData.node.name ≠ name)
    (others : ∀ action ∈ request.actions, action.nodeName ≠ name) :
    StateExcept.Always (KeepsStack (Keeps name kept))
      (handleEngineRequest workflow currentNode request runIndex executionData) := by
  intro state keeps
  rw [handleEngineRequest, exec_bind]
  have prepared : SameExecution state (exec
      (handleRequest workflow currentNode request runIndex executionData)
        state).2 := sameExecution_handleRequest state
  cases handled : exec (handleRequest workflow currentNode request
      runIndex executionData) state with
  | mk outcome middle =>
    rw [handled] at prepared
    have keptThere : Keeps name kept
        middle.executionData.nodeExecutionStack := by
      rw [prepared.1]
      exact keeps
    cases outcome with
    | error error => exact keptThere
    | ok nodesToBeExecuted =>
      obtain ⟨_, names⟩ := handleRequest_spec handled
      have added : StateExcept.Always (KeepsStack (Keeps name kept))
          (nodesToBeExecuted.forM (add workflow)) := by
        apply StateExcept.Always.forM
        intro nodeData mem
        apply keepsStack_addNodeToBeExecuted
        apply allowsNode_keeps order
        have listed : nodeData.inputConnectionData.node ∈
            nodesToBeExecuted.map (·.inputConnectionData.node) :=
          mem_map_of_mem mem
        rw [names] at listed
        split at listed
        · cases listed
        · rcases mem_cons.mp listed with same | listed
          · rwa [same]
          · obtain ⟨action, requested, same⟩ := mem_map.mp listed
            rw [← same]
            exact others action requested
      exact added middle keptThere

end Keep

end N8n
