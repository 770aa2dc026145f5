import N8n.Engine.ToolRequests

/-!
# Tools run first

Behind a request the run goes on above the entry that resumes the requesting
node.  As long as it stays away from that node the entry is only taken when the
tools are.
-/

namespace N8n

open List StateExcept Option

def RunPhase.iteration? : RunPhase → Option Iteration
  | .nodeExecuteBefore iteration | .startingTry iteration
  | .waitingBetweenTries iteration | .runningNode iteration
  | .sleeping iteration | .runningNodeAgain iteration
  | .sendingChunk iteration | .nodeWaits iteration => some iteration
  | _ => none

namespace WorkflowExecute

/-- The kept entries are on the stack, and the iteration stays away from the
node they belong to. -/
structure Guarded (workflow : Workflow) (name : String)
    (kept : List IExecuteData) (run : WorkflowExecute) : Prop where
  keeps : Keeps name kept run.runExecutionData.executionData.nodeExecutionStack
  away : ∀ iteration, run.phase.iteration? = some iteration →
    StaysAway workflow name iteration.executionNode

section LoopStep

variable {workflow : Workflow} {additionalData : WorkflowExecuteAdditionalData}
  {name : String} {kept : List IExecuteData} {run next : WorkflowExecute}
  {iteration : Iteration}

theorem guarded_of (keeps : Keeps name kept run.runExecutionData.executionData.nodeExecutionStack)
    (outside : run.phase.iteration? = none) :
    Guarded workflow name kept run := by
  refine ⟨keeps, ?_⟩
  intro iteration within
  rw [outside] at within
  cases within

theorem guarded_in (keeps : Keeps name kept run.runExecutionData.executionData.nodeExecutionStack)
    (away : StaysAway workflow name iteration.executionNode)
    (within : run.phase.iteration? = some iteration) :
    Guarded workflow name kept run := by
  refine ⟨keeps, ?_⟩
  intro other same
  rw [within] at same
  cases same
  exact away

theorem guarded_attempt {α : Type} {computation : Engine α}
    {goOn : WorkflowExecute → α → WorkflowExecute} (keeps : Keeps name kept
      run.runExecutionData.executionData.nodeExecutionStack)
    (kept' : StateExcept.Always (KeepsStack (Keeps name kept)) computation)
    (goesOn : ∀ data value, exec computation run.runExecutionData = (.ok value, data) →
      Keeps name kept data.executionData.nodeExecutionStack →
      Guarded workflow name kept (goOn { run with runExecutionData := data } value)) :
    Guarded workflow name kept (run.attempt computation goOn) := by
  have after := kept' run.runExecutionData keeps
  rw [attempt]
  cases ran : exec computation run.runExecutionData with
  | mk outcome data =>
    rw [ran] at after
    cases outcome with
    | ok value => exact goesOn data value ran after
    | error error =>
      apply guarded_of
      · exact after
      · rfl

theorem keeps_storeTaskData {state : RunExecutionData}
    (keeps : Keeps name kept state.executionData.nodeExecutionStack)
    (taskData : ITaskData) (nodeSuccessData : NodeSuccessData) :
    Keeps name kept (storeTaskData iteration taskData nodeSuccessData
      state).executionData.nodeExecutionStack := by
  rw [storeTaskData]
  split <;> exact keeps

theorem guarded_continueIteration (order : workflow.executionOrder = some .v1)
    (keeps : Keeps name kept run.runExecutionData.executionData.nodeExecutionStack)
    (away : StaysAway workflow name iteration.executionNode) :
    Guarded workflow name kept (run.continueIteration workflow iteration) := by
  rw [continueIteration]
  split
  · apply guarded_of
    · exact keeps
    · rfl
  next nodeSuccessData _ =>
    have stored : ∀ taskData, Keeps name kept (storeTaskData iteration taskData
        nodeSuccessData run.runExecutionData).executionData.nodeExecutionStack := by
      intro taskData
      exact keeps_storeTaskData keeps taskData nodeSuccessData
    dsimp only
    split
    · apply guarded_in
      · exact (stored _)
      · exact away
      · rfl
    · split
      · apply guarded_of
        · exact stored _
        · rfl
      · apply guarded_attempt
        · exact stored _
        · exact keepsStack_addConnectedNodes order away nodeSuccessData
        · intro data _ _ after
          apply guarded_of
          · exact after
          · rfl

theorem guarded_afterTries (order : workflow.executionOrder = some .v1)
    (keeps : Keeps name kept run.runExecutionData.executionData.nodeExecutionStack)
    (away : StaysAway workflow name iteration.executionNode) :
    Guarded workflow name kept (run.afterTries workflow iteration) := by
  rw [afterTries]
  split
  · apply guarded_in
    · exact keeps
    · exact away
    · rfl
  · exact guarded_continueIteration order keeps away

theorem guarded_failTry (order : workflow.executionOrder = some .v1)
    (keeps : Keeps name kept run.runExecutionData.executionData.nodeExecutionStack)
    (away : StaysAway workflow name iteration.executionNode)
    (error : ExecutionError) :
    Guarded workflow name kept (run.failTry workflow iteration error) := by
  rw [failTry]
  split
  · refine ⟨keeps, ?_⟩
    intro other within
    split at within
    · cases within
      exact away
    · cases within
      exact away
  · exact guarded_afterTries order keeps away

theorem guarded_failIteration (order : workflow.executionOrder = some .v1)
    (keeps : Keeps name kept run.runExecutionData.executionData.nodeExecutionStack)
    (away : StaysAway workflow name iteration.executionNode) :
    Guarded workflow name kept (run.failIteration workflow iteration) := by
  rw [failIteration]
  split
  · have sameNode : iteration.passInput.executionNode =
        iteration.executionNode := by
      rw [Iteration.passInput]
      split <;> rfl
    apply guarded_continueIteration order keeps
    rwa [sameNode]
  · have putBack := keeps.cons away.other
    dsimp only
    split
    · apply guarded_of
      · exact putBack
      · rfl
    · apply guarded_of
      · exact putBack
      · rfl

theorem guarded_endTry (order : workflow.executionOrder = some .v1)
    (keeps : Keeps name kept run.runExecutionData.executionData.nodeExecutionStack)
    (away : StaysAway workflow name iteration.executionNode)
    (nodeSuccessData : Option NodeSuccessData) :
    Guarded workflow name kept (run.endTry workflow iteration nodeSuccessData) := by
  rw [endTry]
  split
  · exact guarded_failTry order keeps away _
  next paired _ =>
    have recorded : Keeps name kept (if paired.isSome then
        run.setLastNodeExecuted iteration
          else run).runExecutionData.executionData.nodeExecutionStack := by
      split <;> exact keeps
    dsimp only
    generalize (if paired.isSome then run.setLastNodeExecuted iteration
      else run) = current at recorded
    split
    · exact guarded_failTry order recorded away _
    · split
      · apply guarded_of
        · exact recorded
        · rfl
      · exact guarded_afterTries order recorded away

theorem guarded_startTry (order : workflow.executionOrder = some .v1)
    (keeps : Keeps name kept run.runExecutionData.executionData.nodeExecutionStack)
    (away : StaysAway workflow name iteration.executionNode) :
    Guarded workflow name kept (run.startTry workflow iteration) := by
  rw [startTry]
  split
  · apply guarded_in
    · exact keeps
    · exact away
    · rfl
  · apply guarded_endTry order
    · exact keeps
    · exact away

theorem guarded_receiveOutcome (order : workflow.executionOrder = some .v1)
    (keeps : Keeps name kept run.runExecutionData.executionData.nodeExecutionStack)
    (away : StaysAway workflow name iteration.executionNode)
    {outcome : RunNodeOutcome} (others : ∀ request, outcome = .requested request →
      ∀ action ∈ request.actions, action.nodeName ≠ name) :
    Guarded workflow name kept (run.receiveOutcome workflow additionalData iteration outcome) := by
  cases outcome with
  | threw error => exact guarded_failTry order keeps away error
  | requested request =>
    have always : StateExcept.Always (KeepsStack (Keeps name kept))
        (handleEngineRequest workflow iteration.executionNode request
          iteration.runIndex iteration.executionData) :=
      keepsStack_handleEngineRequest order away.other (others request rfl)
    have after := always run.runExecutionData keeps
    rw [receiveOutcome]
    dsimp only
    split
    · apply guarded_of
      · exact after
      · rfl
    · exact guarded_failTry order after away _
  | returned data closeFunction =>
    rw [receiveOutcome]
    split
    · apply guarded_in
      · exact keeps
      · exact away
      · rfl
    · dsimp only
      split
      · apply guarded_failTry order
        · exact keeps
        · exact away
      · apply guarded_endTry order
        · exact keeps
        · exact away

variable {taken : IExecuteData}

theorem guarded_startIteration (order : workflow.executionOrder = some .v1)
    (keeps : Keeps name kept run.runExecutionData.executionData.nodeExecutionStack)
    (away : StaysAway workflow name taken.node) :
    Guarded workflow name kept (run.startIteration workflow taken) := by
  apply guarded_attempt keeps (keepsStack_beginIteration _ _)
  intro data start began after
  have spec := beginIteration_spec began
  cases start with
  | skipped | deferred currentExecutionTry =>
    apply guarded_of
    · exact after
    · rfl
  | started iteration =>
    have awayThere : StaysAway workflow name iteration.executionNode := by
      rw [spec.1]
      exact away
    dsimp only
    split
    · exact guarded_startTry order after awayThere
    · apply guarded_in
      · exact after
      · exact awayThere
      · rfl

theorem guarded_finishExecution {executionError : Option ExecutionError}
    (keeps : Keeps name kept run.runExecutionData.executionData.nodeExecutionStack) :
    Guarded workflow name kept (run.finishExecution executionError) := by
  rw [finishExecution]
  split
  · apply guarded_of
    · exact keeps
    · rfl
  · apply guarded_of
    · exact keeps
    · rfl

theorem guarded_resolve (order : workflow.executionOrder = some .v1)
    (filled : kept ≠ []) (guarded : Guarded workflow name kept run)
    (resolved : run.resolve workflow additionalData = some next) :
    Guarded workflow name kept next := by
  have keeps := guarded.keeps
  have away := guarded.away
  have leaves : ∀ {other : WorkflowExecute}, Keeps name kept
        other.runExecutionData.executionData.nodeExecutionStack →
      other.phase.iteration? = none → Guarded workflow name kept other :=
    guarded_of
  rw [resolve] at resolved
  cases phase : run.phase with
  | establishingContext | failureHook fullRunData =>
    simp only [phase] at resolved
    split at resolved
    · cases resolved
      exact leaves keeps rfl
    · cases resolved
      exact leaves keeps rfl
  | nodeExecuteBefore iteration | waitingBetweenTries iteration =>
    simp only [phase] at resolved
    cases resolved
    exact guarded_startTry order keeps (away iteration (by rw [phase]; rfl))
  | sleeping iteration =>
    simp only [phase] at resolved
    cases resolved
    apply guarded_in
    · exact keeps
    · exact away iteration (by rw [phase]; rfl)
    · rfl
  | sendingChunk iteration =>
    simp only [phase] at resolved
    cases resolved
    exact guarded_failIteration order keeps (away iteration (by rw [phase]; rfl))
  | nodeWaits iteration =>
    simp only [phase] at resolved
    cases resolved
    have putBack := keeps.cons (away iteration (by rw [phase]; rfl)).other
    exact leaves putBack rfl
  | nodeExecuteAfter =>
    simp only [phase] at resolved
    cases resolved
    apply guarded_attempt keeps
    · intro state keepsThere
      obtain ⟨above, below, stack, _⟩ := id keepsThere
      have unchecked : exec (checkWaitingNodes workflow) state = (.ok ⟨⟩, state) := by
        rw [checkWaitingNodes, exec_get_bind]
        rw [if_neg]
        · rfl
        · rw [List.isEmpty_iff, stack]
          simp [filled]
      rw [unchecked]
      exact keepsThere
    · intro data _ _ after
      exact leaves after rfl
  | loopEnded =>
    simp only [phase] at resolved
    cases resolved
    rw [processSuccessExecution]
    split
    · exact leaves keeps rfl
    · exact guarded_finishExecution keeps
  | closing executionError =>
    simp only [phase] at resolved
    cases resolved
    exact guarded_finishExecution keeps
  | workflowExecuteBefore | nodeFailed | destinationReached | threw _
  | workflowExecuteAfter _ | failureClosing _ | returning _ =>
    simp only [phase] at resolved
    cases resolved
    exact leaves keeps rfl
  | _ => simp [phase] at resolved

theorem guarded_reject (order : workflow.executionOrder = some .v1)
    (filled : kept ≠ []) {error : ExecutionError}
    (guarded : Guarded workflow name kept run)
    (rejected : run.reject workflow additionalData error = some next) :
    Guarded workflow name kept next := by
  have keeps := guarded.keeps
  have fails : Guarded workflow name kept (run.failBeforeLoop error) := by
    rw [failBeforeLoop]
    split
    · apply guarded_of
      · exact keeps
      · rfl
    · apply guarded_of
      · exact keeps
      · rfl
  have leaves : Guarded workflow name kept (run.leaveLoop error) := by
    apply guarded_of
    · exact keeps
    · rfl
  rw [reject] at rejected
  split at rejected
  all_goals first
    | cases rejected
      exact fails
    | cases rejected
      exact leaves
    | exact guarded_resolve order filled guarded rejected
    | cases rejected

theorem guarded_step (order : workflow.executionOrder = some .v1)
    {resume : IExecuteData} {event : RunEvent} (mem : resume ∈ kept)
    (guarded : Guarded workflow resume.node.name kept run)
    (keepsAway : run.KeepsAway workflow resume event)
    (idle : takes additionalData run event = none)
    (moved : step workflow additionalData run event = some next) :
    Guarded workflow resume.node.name kept next := by
  have filled : kept ≠ [] := ne_nil_of_mem mem
  have keeps := guarded.keeps
  obtain ⟨above, below, stack, _⟩ := id keeps
  have pending : resume ∈
      run.runExecutionData.executionData.nodeExecutionStack := by
    rw [stack]
    simp [mem]
  cases event with
  | cancel =>
    simp only [step] at moved
    split at moved
    · cases moved
    · cases moved
      exact ⟨keeps, guarded.away⟩
  | loops now =>
    simp only [step] at moved
    split at moved
    next phase =>
      simp only [takes, phase] at idle
      cases moved
      rw [loop]
      split
      · apply guarded_of
        · exact keeps
        · rfl
      next taken rest top =>
        dsimp only
        split at idle
        next stops =>
          split
          · apply guarded_of
            · exact keeps
            · rfl
          next inTime =>
            rw [if_pos (stops.resolve_right inTime)]
            apply guarded_of
            · exact keeps
            · rfl
        · rw [top] at idle
          cases idle
    · cases moved
  | tries =>
    simp only [step] at moved
    split at moved
    next iteration phase =>
      cases moved
      exact guarded_startTry order keeps (guarded.away iteration (by rw [phase]; rfl))
    · cases moved
  | resolves => exact guarded_resolve order filled guarded moved
  | rejects error => exact guarded_reject order filled guarded moved
  | nodeEnds call =>
    have keepsThere : Keeps resume.node.name kept (run.applyCall
        call).runExecutionData.executionData.nodeExecutionStack := by
      obtain ⟨sameData, _⟩ := writeSubNodeRun_same run.runExecutionData call.subNodeRuns
      have same : (run.applyCall call).runExecutionData.executionData =
        run.runExecutionData.executionData := sameData
      rw [same]
      exact keeps
    have others : ∀ iteration, run.phase = .runningNode iteration ∨
        run.phase = .runningNodeAgain iteration → ∀ request,
          call.outcome = .requested request → ∀ action ∈ request.actions,
            action.nodeName ≠ resume.node.name := by
      intro iteration phase request outcome action requested
      have named : request.actions.all (fun action =>
          action.nodeName != resume.node.name) = true := by
        rcases phase with phase | phase <;>
          simpa [KeepsAway, WorkflowExecute.keepsAway, pending, phase, outcome] using keepsAway
      exact bne_iff_ne.mp (all_eq_true.mp named action requested)
    simp only [step] at moved
    split at moved
    next iteration phase =>
      cases moved
      exact guarded_receiveOutcome order keepsThere (guarded.away iteration (by rw [phase]; rfl))
        (others iteration (.inl phase))
    next iteration phase =>
      cases moved
      apply guarded_receiveOutcome order keepsThere
      · have away := guarded.away iteration (by rw [phase]; rfl)
        split
        · exact away
        · exact away
      · exact others iteration (.inr phase)
    · cases moved

theorem guarded_take (order : workflow.executionOrder = some .v1)
    {now runIndex : Nat} {rest : List IExecuteData}
    (takesIt : takes additionalData run (.loops now) = some (taken, runIndex))
    (stack : run.runExecutionData.executionData.nodeExecutionStack =
      taken :: rest) (keeps : Keeps name kept rest)
    (away : StaysAway workflow name taken.node)
    (moved : step workflow additionalData run (.loops now) = some next) :
    Guarded workflow name kept next := by
  simp only [step] at moved
  split at moved
  next phase =>
    simp only [takes, phase] at takesIt
    split at takesIt
    · cases takesIt
    next goesOn =>
      rw [not_or] at goesOn
      cases moved
      rw [loop, stack]
      dsimp only
      rw [if_neg goesOn.2, if_neg goesOn.1]
      apply guarded_startIteration order
      · exact keeps
      · exact away
  · cases moved

end LoopStep

section Run

variable {workflow : Workflow} {additionalData : WorkflowExecuteAdditionalData}
  {run : WorkflowExecute} {events : List RunEvent} {tools left : List IExecuteData}
  {resume : IExecuteData} {taken : IExecuteData}

theorem takes_eq_some {event : RunEvent} {runIndex : Nat}
    (takesIt : takes additionalData run event = some (taken, runIndex)) :
    (∃ now, event = .loops now) ∧ run.phase = .loopHead ∧
      run.runExecutionData.executionData.nodeExecutionStack.head? = some taken := by
  unfold takes at takesIt
  split at takesIt
  next now phase =>
    split at takesIt
    · cases takesIt
    · obtain ⟨first, found, same⟩ := map_eq_some_iff.mp takesIt
      cases same
      exact ⟨⟨now, rfl⟩, phase, found⟩
  · cases takesIt

theorem KeepsAway.staysAway {now : Nat} (keepsAway : run.KeepsAway workflow resume (.loops now))
    (phase : run.phase = .loopHead) (pending : resume ∈
      run.runExecutionData.executionData.nodeExecutionStack)
    (top : run.runExecutionData.executionData.nodeExecutionStack.head? =
      some taken) (other : taken.node.name ≠ resume.node.name) :
    StaysAway workflow resume.node.name taken.node := by
  refine ⟨other, ?_⟩
  have ne : taken ≠ resume := by
    rintro rfl
    exact other rfl
  simp only [KeepsAway, WorkflowExecute.keepsAway, phase, top, all_some] at keepsAway
  have unconnected : resume ∉ run.runExecutionData.executionData.nodeExecutionStack ∨
        ∀ edge outputIndex, (edge, outputIndex) ∈ workflow.outgoing taken.node.name →
            edge.node ≠ resume.node.name := by
    simpa [ne] using keepsAway
  intro edge mem
  exact unconnected.resolve_left (not_not.mpr pending) edge.1 edge.2 mem

/-- While tools are left and the entry that resumes the node is below them, the
entries taken are not of the node, and the entry comes behind the tools. -/
theorem taken_of_guarded (order : workflow.executionOrder = some .v1)
    (guarded : Guarded workflow resume.node.name (left ++ [resume]) run)
    (others : ∀ tool ∈ left, tool.node.name ≠ resume.node.name)
    (meets : (step workflow additionalData).Meets (KeepsAway workflow resume) run events) :
    let taken := (step workflow additionalData).observations (takes additionalData) run events
    (∀ started ∈ taken.takeWhile (·.1 ≠ resume), started.1.node.name ≠ resume.node.name) ∧
    (resume ∈ taken.map Prod.fst →
      left.Sublist ((taken.takeWhile (·.1 ≠ resume)).map Prod.fst)) := by
  induction events generalizing run left with
  | nil => simp [Machine.observations]
  | cons event events ih =>
    obtain ⟨met, later⟩ := meets
    rw [Machine.observations]
    cases moved : step workflow additionalData run event with
    | none => simp
    | some next =>
      have mem : resume ∈ left ++ [resume] := by simp
      cases takesIt : takes additionalData run event with
      | none =>
        have guardedNext := guarded_step order mem guarded met takesIt moved
        exact ih guardedNext others (later next moved)
      | some entry =>
        obtain ⟨taken, runIndex⟩ := entry
        obtain ⟨⟨now, rfl⟩, phase, top⟩ := takes_eq_some takesIt
        obtain ⟨above, below, stack, strangers⟩ := id guarded.keeps
        have pending : resume ∈
            run.runExecutionData.executionData.nodeExecutionStack := by
          rw [stack]
          simp
        have goesOn : ∀ {rest kept : List IExecuteData},
            run.runExecutionData.executionData.nodeExecutionStack = taken :: rest →
            taken.node.name ≠ resume.node.name →
            Keeps resume.node.name kept rest →
            Guarded workflow resume.node.name kept next := by
          intro rest kept same other keeps
          exact guarded_take order takesIt same keeps (met.staysAway phase pending top other) moved
        have ne : taken.node.name ≠ resume.node.name → taken ≠ resume := by
          rintro other rfl
          exact other rfl
        cases above with
        | cons first above =>
          -- an entry that a tool put on the stack
          have same : first = taken := by
            rw [stack] at top
            exact some.inj top
          subst same
          have other := strangers first mem_cons_self
          have guardedNext := goesOn stack other ⟨above, below, rfl, fun entry mem =>
              strangers entry (mem_cons_of_mem _ mem)⟩
          obtain ⟨names, order⟩ := ih guardedNext others (later next moved)
          simp only [toList_some, singleton_append, takeWhile_cons, ne other, ne_eq,
            not_false_eq_true, decide_true, if_true, map_cons,
            mem_cons]
          constructor
          · rintro started (rfl | inside)
            · exact other
            · exact names started inside
          · rintro (same | listed)
            · exact absurd same.symm (ne other)
            · exact (order listed).cons first
        | nil =>
          cases left with
          | nil =>
            -- the node resumes
            have same : resume = taken := by
              rw [stack] at top
              exact some.inj top
            subst same
            simp
          | cons tool left =>
            have same : tool = taken := by
              rw [stack] at top
              exact some.inj top
            subst same
            have other := others tool mem_cons_self
            have guardedNext := goesOn stack other ⟨[], below, rfl, by simp⟩
            obtain ⟨names, order⟩ := ih guardedNext (fun entry mem =>
                others entry (mem_cons_of_mem _ mem))
              (later next moved)
            simp only [toList_some, singleton_append, takeWhile_cons, ne other, ne_eq,
              not_false_eq_true, decide_true, if_true,
              map_cons, mem_cons]
            constructor
            · rintro started (rfl | inside)
              · exact other
              · exact names started inside
            · rintro (same | listed)
              · exact absurd same.symm (ne other)
              · exact (order listed).cons_cons tool

/-- In the order v1 the tools of a request run before its node resumes, and
the node is not started again before, if nothing leads to it. -/
theorem toolsRunFirst_of_keepsAway (order : workflow.executionOrder = some .v1)
    {state : RunExecutionData} {iteration : Iteration} {request : EngineRequest}
    (schedules : Schedules workflow state iteration request tools resume run.runExecutionData)
    (atHead : run.phase = .loopHead)
    (single : ∀ nodeName ∈ iteration.executionNode.name ::
      request.actions.map EngineAction.nodeName, workflow.numberOfInputs nodeName ≤ 1)
    (others : ∀ action ∈ request.actions, action.nodeName ≠ iteration.executionNode.name)
    (meets : (step workflow additionalData).Meets (KeepsAway workflow resume) run events) :
    ToolsRunFirst tools resume iteration.runIndex
      ((step workflow additionalData).observations (takes additionalData) run events) := by
  obtain ⟨resumeName, toolNames⟩ := schedules.names
  have otherTools : ∀ tool ∈ tools.reverse, tool.node.name ≠ resume.node.name := by
    intro tool mem
    have listed : tool.node.name ∈ request.actions.map EngineAction.nodeName := by
      rw [← toolNames]
      exact mem_map_of_mem (mem_reverse.mp mem)
    obtain ⟨action, requested, same⟩ := mem_map.mp listed
    rw [← same, resumeName]
    exact others action requested
  have guarded : Guarded workflow resume.node.name (tools.reverse ++ [resume])
      run := by
    apply guarded_of
    · refine ⟨[], state.executionData.nodeExecutionStack, ?_, by simp⟩
      rw [schedules.stack order single]
      simp
    · rw [atHead]
      rfl
  obtain ⟨names, first⟩ := taken_of_guarded order guarded otherTools meets
  constructor
  · intro resumed
    exact (reverse_perm tools).symm.subperm.trans (first resumed).subperm
  · intro started mem same
    exact absurd same (names started mem)

end Run

namespace ToolExample

def connectTo (nodeName : String) : INodeConnections :=
  OrderedMap.empty.set .main [some [
    { node := nodeName
      type := .main
      index := 0 }]]

def workflow (order : ExecutionOrder) (leadsBack : Bool) : Workflow :=
  { nodes := Workflow.setNodes [{ name := "Trigger" }, { name := "Agent" }, { name := "Search" }]
    connectionsBySourceNode :=
      if leadsBack then
        (OrderedMap.empty.set "Trigger" (connectTo "Agent")).set "Search" (connectTo "Agent")
      else OrderedMap.empty.set "Trigger" (connectTo "Agent")
    executionOrder := some order
    nodes_named := Workflow.setNodes_named _ }

def executionData : IExecuteData :=
  { node := { name := "Agent" }
    data := .ofMain [.value [INodeExecutionData.blank]]
    source := some (.ofMain [.value { previousNode := "Trigger" }]) }

def start : WorkflowExecute :=
  { runExecutionData := { executionData := { nodeExecutionStack := [executionData] } } }

def request : EngineRequest :=
  { actions :=
      [{ nodeName := "Search"
         type := .aiTool
         id := "first" }] }

variable (workflow : Workflow)

def running : WorkflowExecute :=
  ((step workflow {}).run start [.resolves, .resolves, .loops 0, .resolves]).getD start

def iteration : Iteration :=
  ((running workflow).phase.iteration?).getD
    { executionData := executionData
      runIndex := 0
      executionIndex := 0 }

def requested : WorkflowExecute :=
  (step workflow {} (running workflow) (.nodeEnds { outcome := .requested request })).getD start

def entries : List IExecuteData :=
  match (exec (handleRequest workflow
      (iteration workflow).executionNode request (iteration workflow).runIndex
      (iteration workflow).executionData)
      (running workflow).runExecutionData).1 with
  | .ok nodesToBeExecuted => nodesToBeExecuted.filterMap (·.toEntry workflow)
  | .error _ => []

def resume : IExecuteData := (entries workflow).headD executionData

def tools : List IExecuteData := (entries workflow).tail

theorem schedules_of (resume : IExecuteData) (tools : List IExecuteData)
    (handled : (match (exec (handleRequest workflow (iteration workflow).executionNode request
        (iteration workflow).runIndex (iteration workflow).executionData)
        (running workflow).runExecutionData).1 with
      | .ok nodesToBeExecuted => decide (nodesToBeExecuted.map
          (·.toEntry workflow) = (resume :: tools).map some)
      | .error _ => false) = true)
    (scheduled : exec (handleEngineRequest workflow
      (iteration workflow).executionNode request (iteration workflow).runIndex
      (iteration workflow).executionData)
      (running workflow).runExecutionData = (.ok ⟨⟩, (requested workflow).runExecutionData)) :
    Schedules workflow (running workflow).runExecutionData (iteration workflow) request tools resume
      (requested workflow).runExecutionData := by
  refine ⟨?_, scheduled⟩
  cases ran : exec (handleRequest workflow
      (iteration workflow).executionNode request (iteration workflow).runIndex
      (iteration workflow).executionData)
      (running workflow).runExecutionData with
  | mk outcome prepared =>
    rw [ran] at handled
    cases outcome with
    | error error => cases handled
    | ok nodesToBeExecuted =>
      exact ⟨nodesToBeExecuted, prepared, rfl, of_decide_eq_true handled⟩

def executesTop : List RunEvent :=
  [.loops 0, .resolves, .nodeEnds
      { outcome := .returned (some [.value [INodeExecutionData.blank]]) false },
    .resolves]

def takenBehind (events : List RunEvent) : List (IExecuteData × Nat) :=
  (step workflow {}).observations (takes {}) (requested workflow) events

def inOrder : Workflow := ToolExample.workflow .v1 false

def legacy : Workflow := ToolExample.workflow .v0 false

def leadingBack : Workflow := ToolExample.workflow .v1 true

/-- The tool runs, and then the agent resumes. -/
theorem toolsRunFirst_inOrder :
    ToolsRunFirst (tools inOrder) (resume inOrder) (iteration inOrder).runIndex
        (takenBehind inOrder (executesTop ++ [.loops 0])) ∧
      (takenBehind inOrder (executesTop ++ [.loops 0])).map Prod.fst =
        tools inOrder ++ [resume inOrder] ∧
      (tools inOrder).length = 1 := by
  refine ⟨?_, by decide +kernel, by decide +kernel⟩
  have schedules : Schedules inOrder (running inOrder).runExecutionData
      (iteration inOrder) request (tools inOrder) (resume inOrder)
      (requested inOrder).runExecutionData := by
    apply schedules_of
    · decide +kernel
    · decide +kernel
  apply toolsRunFirst_of_keepsAway rfl schedules
  · decide +kernel
  · decide +kernel
  · decide +kernel
  · decide +kernel

/-- A request is scheduled, and in the run behind it the agent starts too
early. -/
def StartsTooEarly (events : List RunEvent) : Prop :=
  (running workflow).phase = .runningNode (iteration workflow) ∧ step workflow {} (running workflow)
      (.nodeEnds { outcome := .requested request }) = some (requested workflow) ∧
    Schedules workflow (running workflow).runExecutionData
      (iteration workflow) request (tools workflow) (resume workflow)
      (requested workflow).runExecutionData ∧
    ¬ ToolsRunFirst (tools workflow) (resume workflow)
      (iteration workflow).runIndex (takenBehind workflow events)

/-- In the legacy order the agent resumes before its tool has run, and in the
order v1 the tool starts it once more. -/
theorem startsTooEarly_legacy_leadingBack : StartsTooEarly legacy [.loops 0] ∧
      StartsTooEarly leadingBack (executesTop ++ [.loops 0]) := by
  constructor
  · refine ⟨by decide +kernel, by decide +kernel, ?_, ?_⟩
    · apply schedules_of
      · decide +kernel
      · decide +kernel
    · intro first
      have resumed : resume legacy ∈ (takenBehind legacy [.loops 0]).map Prod.fst := by
        decide +kernel
      have earlier := (first.toolsFirst resumed).length_le
      revert earlier
      decide +kernel
  · refine ⟨by decide +kernel, by decide +kernel, ?_, ?_⟩
    · apply schedules_of
      · decide +kernel
      · decide +kernel
    · intro first
      have restarted := first.notRestarted
      revert restarted
      decide +kernel

end ToolExample

end WorkflowExecute

end N8n
