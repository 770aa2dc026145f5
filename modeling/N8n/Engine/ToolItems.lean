import N8n.Engine.HandleRequest

/-!
# The items of requested tools

An engine request gives each of its tools an item that should point back to
the source of the main input of the requesting node.  The source is looked up
under the run index of the node instead of the index of the input, so that it
is found in the first run only, or where both places name the same source.
The runs of the tools are counted correctly.
-/

namespace N8n

open List StateExcept OrderedMap

/-- Both sources name the same output of the same run of a node. -/
def ISourceData.SamePlace (left right : ISourceData) : Prop :=
  left.previousNode = right.previousNode ∧
    left.previousNodeOutput.getD 0 = right.previousNodeOutput.getD 0 ∧
    left.previousNodeRun.getD 0 = right.previousNodeRun.getD 0

/-- `item.pairedItem.sourceOverwrite` -/
def INodeExecutionData.sourceOverwrite (item : INodeExecutionData) : Option ISourceData :=
  match item.pairedItem with
  | some (.single data) => data.sourceOverwrite
  | _ => none

/-- The item names the source of the main input, if there is one. -/
def PointsBack (executionData : IExecuteData) (item : INodeExecutionData) : Prop :=
  ∀ source, executionData.mainSource 0 = some source →
    ∃ overwrite, item.sourceOverwrite = some overwrite ∧ overwrite.SamePlace source

/-- `runData[nodeName] ?? []` -/
def RunExecutionData.runsOf (state : RunExecutionData) (nodeName : String) : List ITaskData :=
  (state.runData.get? nodeName).getD []

/-- The run index of the action at a position: the runs its tool has, and one
for each action on the same tool before it. -/
def toolRunIndex (state : RunExecutionData) (actions : List EngineAction)
    (position : Nat) (action : EngineAction) : Nat :=
  (state.runsOf action.nodeName).length + (actions.take position).countP fun other =>
      other.nodeName = action.nodeName

/-- An action has a tool to be executed, a recorded run index and a
placeholder run, which belong together. -/
structure ToolPrepared (action : EngineAction) (runIndex : Nat)
    (tool : NodeToBeExecuted) (recorded : SubNodeExecutionDataAction)
    (last : RunExecutionData) : Prop where
  node : tool.inputConnectionData.node = action.nodeName
  nodeRunIndex : tool.nodeRunIndex = runIndex
  recorded : recorded =
    { action := action
      nodeName := action.nodeName
      runIndex := runIndex }
  placeholder : ∃ run, (last.runsOf action.nodeName)[runIndex]? = some run ∧
    run.inputOverride = tool.parentOutputData.map (empty.set .aiTool)

/-- What a request should leave: items that point back to the input of the
requesting node, and consecutive runs for the actions on the same tool. -/
structure ToolItemsPointBack (request : EngineRequest)
    (executionData : IExecuteData) (state : RunExecutionData)
    (nodesToBeExecuted : List NodeToBeExecuted) (last : RunExecutionData) :
    Prop where
  scheduled : ∀ tool ∈ nodesToBeExecuted.tail,
    ∃ item, tool.parentOutputData = some [.value [item]] ∧ PointsBack executionData item
  placeholders : ∀ nodeName, ∃ added, last.runsOf nodeName = state.runsOf nodeName ++ added ∧
      added.length = request.actions.countP (·.nodeName = nodeName) ∧
      ∀ run ∈ added, ∃ item, run.inputOverride = some (empty.set .aiTool [.value [item]]) ∧
        PointsBack executionData item
  indexed : ∀ resume tools, nodesToBeExecuted = resume :: tools → ∃ subNodeExecutionData,
      resume.metadata.bind (·.subNodeExecutionData) = some subNodeExecutionData ∧
      tools.length = request.actions.length ∧
      subNodeExecutionData.actions.length = request.actions.length ∧
      ∀ position action, request.actions[position]? = some action →
        ∃ tool recorded, tools[position]? = some tool ∧
          subNodeExecutionData.actions[position]? = some recorded ∧
          ToolPrepared action (toolRunIndex state request.actions position
            action) tool recorded last

/-- The run index of the requesting node leads to the same source as the index
of its main input. -/
def SourcesAgree (currentNode : INode) (runIndex : Nat) (executionData : IExecuteData) : Prop :=
  ∀ source, executionData.mainSource 0 = some source → ((executionData.mainSource runIndex).getD
      { previousNode := currentNode.name }).SamePlace source

section Prepared

variable {workflow : Workflow} {currentNode : INode} {runIndex : Nat} {executionData : IExecuteData}
  {state last : RunExecutionData} {action : EngineAction}

theorem pointsBack_requestedItem : PointsBack executionData
        (requestedItem currentNode runIndex executionData action) ↔
      SourcesAgree currentNode runIndex executionData := by
  have overwritten : ∃ overwrite, (requestedItem currentNode runIndex executionData
          action).sourceOverwrite = some overwrite ∧
        overwrite.SamePlace ((executionData.mainSource runIndex).getD
          { previousNode := currentNode.name }) := by
    refine ⟨_, rfl, ?_⟩
    cases executionData.mainSource runIndex with
    | none | some source => exact ⟨rfl, rfl, rfl⟩
  obtain ⟨overwrite, written, place⟩ := overwritten
  constructor
  · intro points source fed
    obtain ⟨other, same, at_⟩ := points source fed
    rw [written] at same
    cases same
    exact ⟨place.1.symm.trans at_.1, place.2.1.symm.trans at_.2.1, place.2.2.symm.trans at_.2.2⟩
  · intro agree source fed
    have at_ := agree source fed
    exact ⟨overwrite, written, place.1.trans at_.1, place.2.1.trans at_.2.1,
      place.2.2.trans at_.2.2⟩

/-- The run which is added for an action. -/
def placeholderRun (currentNode : INode) (runIndex : Nat)
    (executionData : IExecuteData) (action : EngineAction) : ITaskData :=
  { inputOverride := some (empty.set .aiTool
      [.value [requestedItem currentNode runIndex executionData action]]) }

theorem prepareRequestedNode_eq_ok {prepared : NodeToBeExecuted × SubNodeExecutionDataAction}
    (ok : exec (prepareRequestedNode workflow currentNode
      runIndex executionData action) state = (.ok prepared, last)) :
    (∀ nodeName, last.runsOf nodeName = state.runsOf nodeName ++
      if action.nodeName = nodeName then
        [placeholderRun currentNode runIndex executionData action]
      else []) ∧
    prepared.1.inputConnectionData.node = action.nodeName ∧
    prepared.1.parentOutputData = some
      [.value [requestedItem currentNode runIndex executionData action]] ∧
    prepared.1.nodeRunIndex = (state.runsOf action.nodeName).length ∧
    prepared.2 =
      { action := action
        nodeName := action.nodeName
        runIndex := (state.runsOf action.nodeName).length } := by
  rw [prepareRequestedNode] at ok
  split at ok
  · obtain ⟨_, _, thrown, _⟩ := exec_bind_eq_ok.mp ok
    cases thrown
  · cases ok
    refine ⟨?_, rfl, rfl, rfl, rfl⟩
    intro nodeName
    simp only [RunExecutionData.runsOf, get?_set]
    by_cases same : action.nodeName = nodeName
    · subst same
      simp [placeholderRun]
    · simp [same]

/-- What the loop over the actions leaves. -/
structure ActionsPrepared (currentNode : INode) (runIndex : Nat)
    (executionData : IExecuteData) (state : RunExecutionData)
    (actions : List EngineAction)
    (prepared : List (NodeToBeExecuted × SubNodeExecutionDataAction))
    (last : RunExecutionData) : Prop where
  runs : ∀ nodeName, last.runsOf nodeName = state.runsOf nodeName ++
    (actions.filter (·.nodeName = nodeName)).map (placeholderRun currentNode runIndex executionData)
  length : prepared.length = actions.length
  each : ∀ position action, actions[position]? = some action →
    ∃ tool recorded, prepared[position]? = some (tool, recorded) ∧ tool.parentOutputData = some
        [.value [requestedItem currentNode runIndex executionData action]] ∧
      ToolPrepared action (toolRunIndex state actions position action) tool recorded last

theorem getElem?_runsOf_append {runs added : List ITaskData} {position : Nat}
    {run : ITaskData} (found : runs[position]? = some run) :
    (runs ++ added)[position]? = some run := by
  obtain ⟨inside, _⟩ := List.getElem?_eq_some_iff.mp found
  rw [List.getElem?_append_left inside]
  exact found

variable {prepared : List (NodeToBeExecuted × SubNodeExecutionDataAction)}
  {actions : List EngineAction}

theorem exec_mapM_prepareRequestedNode (ok : exec (actions.mapM (prepareRequestedNode workflow
      currentNode runIndex executionData)) state = (.ok prepared, last)) :
    ActionsPrepared currentNode runIndex executionData state actions prepared
      last := by
  induction actions generalizing state prepared with
  | nil =>
    cases ok
    refine ⟨?_, rfl, ?_⟩
    · intro nodeName
      simp
    · intro position action listed
      simp at listed
  | cons first actions ih =>
    rw [mapM_cons] at ok
    obtain ⟨head, middle, prepares, ok⟩ := exec_bind_eq_ok.mp ok
    obtain ⟨rest, after, mapped, ok⟩ := exec_bind_eq_ok.mp ok
    cases ok
    obtain ⟨added, node, data, index, recorded⟩ := prepareRequestedNode_eq_ok prepares
    have others := ih mapped
    refine ⟨?_, ?_, ?_⟩
    · intro nodeName
      rw [others.runs, added, append_assoc]
      by_cases same : first.nodeName = nodeName
      · simp [same]
      · simp [same]
    · rw [length_cons, length_cons, others.length]
    · intro position action listed
      cases position with
      | zero =>
        cases listed
        refine ⟨head.1, head.2, rfl, data, node, ?_, ?_, ?_⟩
        · rw [index]
          simp [toolRunIndex]
        · rw [recorded]
          simp [toolRunIndex]
        · refine ⟨placeholderRun currentNode runIndex executionData first, ?_, ?_⟩
          · rw [others.runs, added]
            apply getElem?_runsOf_append
            simp [toolRunIndex]
          · rw [data]
            rfl
      | succ position =>
        obtain ⟨tool, noted, found, toolData, ready⟩ := others.each position action listed
        have sameIndex : toolRunIndex middle actions position action =
            toolRunIndex state (first :: actions) (position + 1)
              action := by
          simp only [toolRunIndex, added, length_append,
            take_succ_cons, countP_cons, decide_eq_true_eq]
          split
          · rw [length_singleton]
            omega
          · rw [length_nil]
            omega
        rw [sameIndex] at ready
        exact ⟨tool, noted, found, toolData, ready⟩

/-- The loop leaves items which point back if and only if the sources agree,
or if it makes none. -/
theorem pointsBack_placeholders : (∀ run ∈ actions.map
        (placeholderRun currentNode runIndex executionData), ∃ item,
      run.inputOverride = some (empty.set .aiTool [.value [item]]) ∧
      PointsBack executionData item) ↔
    actions = [] ∨ SourcesAgree currentNode runIndex executionData := by
  constructor
  · intro points
    cases actions with
    | nil => exact .inl rfl
    | cons action actions =>
      obtain ⟨item, input, back⟩ := points _ mem_cons_self
      have same : requestedItem currentNode runIndex executionData action =
          item := by
        have slots := congrArg (fun override : Option ITaskDataConnections =>
          override.bind (·.get? .aiTool)) input
        simpa [placeholderRun, get?_set] using slots
      subst same
      exact .inr (pointsBack_requestedItem.mp back)
  · intro agree run listed
    obtain ⟨action, mem, same⟩ := mem_map.mp listed
    subst same
    rcases agree with empty | agree
    · rw [empty] at mem
      cases mem
    · exact ⟨_, rfl, pointsBack_requestedItem.mpr agree⟩

variable {nodesToBeExecuted : List NodeToBeExecuted} {request : EngineRequest}

theorem handleRequest_eq_ok (handled : exec (handleRequest workflow currentNode request
      runIndex executionData) state = (.ok nodesToBeExecuted, last)) :
    ∃ prepared, ActionsPrepared currentNode runIndex executionData state request.actions
        prepared last ∧
      (nodesToBeExecuted = [] ∨ ∃ resume, nodesToBeExecuted = resume :: prepared.map Prod.fst ∧
          resume.metadata.bind (·.subNodeExecutionData) = some
            { actions := prepared.map Prod.snd
              metadata := request.metadata }) := by
  obtain ⟨_, ready, preparation, handled⟩ := exec_bind_eq_ok.mp handled
  obtain ⟨prepared, _, mapped, preparation⟩ := exec_bind_eq_ok.mp preparation
  cases preparation
  have loop := exec_mapM_prepareRequestedNode mapped
  cases resumed : prepareRequestingNodeForResuming executionData with
  | none =>
    rw [resumed] at handled
    cases handled
    exact ⟨prepared, loop, .inl rfl⟩
  | some resume =>
    rw [resumed] at handled
    cases handled
    exact ⟨prepared, loop, .inr ⟨_, rfl, rfl⟩⟩

theorem ActionsPrepared.sourcesAgree
    (loop : ActionsPrepared currentNode runIndex executionData state request.actions prepared last)
    (points : ToolItemsPointBack request executionData state nodesToBeExecuted last) :
    request.actions = [] ∨ SourcesAgree currentNode runIndex executionData := by
  rw [← pointsBack_placeholders]
  intro run listed
  obtain ⟨action, mem, same⟩ := mem_map.mp listed
  obtain ⟨added, runs, _, back⟩ := points.placeholders action.nodeName
  rw [loop.runs] at runs
  apply back run
  rw [← append_cancel_left runs, ← same]
  apply mem_map_of_mem
  exact mem_filter.mpr ⟨mem, by simp⟩

end Prepared

/-- The items of the tools point back to the input of the requesting node if
and only if the run index of the node leads to the same source. -/
theorem handleRequest_pointsBack_iff {workflow : Workflow}
    {currentNode : INode} {request : EngineRequest} {runIndex : Nat}
    {executionData : IExecuteData} {state last : RunExecutionData}
    {nodesToBeExecuted : List NodeToBeExecuted}
    (handled : exec (handleRequest workflow currentNode request
      runIndex executionData) state = (.ok nodesToBeExecuted, last)) :
    ToolItemsPointBack request executionData state nodesToBeExecuted last ↔
      request.actions = [] ∨ SourcesAgree currentNode runIndex executionData := by
  obtain ⟨prepared, loop, result⟩ := handleRequest_eq_ok handled
  constructor
  · exact loop.sourcesAgree
  · intro agree
    refine ⟨?_, ?_, ?_⟩
    · intro tool mem
      rcases result with empty | ⟨resume, same, _⟩
      · rw [empty] at mem
        cases mem
      · rw [same, tail_cons] at mem
        obtain ⟨position, inside, found⟩ := mem_iff_getElem.mp mem
        rw [length_map, loop.length] at inside
        obtain ⟨other, _, listed, data, _⟩ := loop.each position _ (getElem?_eq_getElem inside)
        have sameTool : other = tool := by
          rw [getElem_map] at found
          rw [List.getElem?_eq_some_iff] at listed
          rw [← found, listed.2]
        subst sameTool
        refine ⟨_, data, pointsBack_requestedItem.mpr ?_⟩
        apply agree.resolve_left
        intro empty
        simp [empty] at inside
    · intro nodeName
      refine ⟨_, loop.runs nodeName, ?_, ?_⟩
      · rw [length_map, countP_eq_length_filter]
      · rw [pointsBack_placeholders]
        refine agree.imp_left fun empty => ?_
        rw [empty, filter_nil]
    · intro resume tools scheduled
      rcases result with empty | ⟨first, same, metadata⟩
      · rw [empty] at scheduled
        cases scheduled
      · rw [same] at scheduled
        cases scheduled
        refine ⟨_, metadata, ?_, ?_, ?_⟩
        · rw [length_map, loop.length]
        · rw [length_map, loop.length]
        · intro position action listed
          obtain ⟨tool, recorded, found, _, ready⟩ := loop.each position action listed
          refine ⟨tool, recorded, ?_, ?_, ready⟩
          · rw [getElem?_map, found]
            rfl
          · rw [getElem?_map, found]
            rfl

namespace ToolItemsExample

def agent : INode := { name := "Agent", type := "agent" }

def search : INode := { name := "Search", type := "tool" }

def workflow : Workflow where
  nodes := (empty.set "Agent" agent).set "Search" search
  connectionsBySourceNode := .empty

def secondRun : IExecuteData where
  node := agent
  data := empty.set .main [.value [{ json := [] }]]
  source := some (empty.set .main [.value { previousNode := "Loop", previousNodeRun := some 1 }])

def request : EngineRequest where
  actions := [{ nodeName := "Search", type := .aiTool, id := "first" },
    { nodeName := "Search", type := .aiTool, id := "second" }]

def handled (runIndex : Nat) : Except ExecutionError (List NodeToBeExecuted) × RunExecutionData :=
  exec (handleRequest workflow agent request runIndex secondRun) {}

theorem handled_ok (runIndex : Nat)
    (result : (handled runIndex).1.toOption.map List.length = some 3) :
    ∃ nodesToBeExecuted last, handled runIndex = (.ok nodesToBeExecuted, last) ∧
      nodesToBeExecuted.length = 3 := by
  cases outcome : handled runIndex with
  | mk nodesToBeExecuted last =>
    cases nodesToBeExecuted with
    | error error => simp [outcome, Except.toOption] at result
    | ok nodesToBeExecuted =>
      simp only [outcome, Except.toOption, Option.map_some, Option.some.injEq] at result
      exact ⟨nodesToBeExecuted, last, rfl, result⟩

theorem handleRequest_pointsBack_firstRun : ∃ nodesToBeExecuted last,
      handled 0 = (.ok nodesToBeExecuted, last) ∧ nodesToBeExecuted.length = 3 ∧
        ToolItemsPointBack request secondRun {} nodesToBeExecuted last := by
  obtain ⟨nodesToBeExecuted, last, result, length⟩ := handled_ok 0 (by decide +kernel)
  refine ⟨nodesToBeExecuted, last, result, length, ?_⟩
  apply (handleRequest_pointsBack_iff result).mpr
  refine .inr fun source fed => ?_
  rw [fed, Option.getD_some]
  exact ⟨rfl, rfl, rfl⟩

/-- The run index leads past the only input, and the items point to the agent
itself. -/
theorem not_toolItemsPointBack_secondRun : ∃ nodesToBeExecuted last,
      handled 1 = (.ok nodesToBeExecuted, last) ∧
        ¬ ToolItemsPointBack request secondRun {} nodesToBeExecuted last := by
  obtain ⟨nodesToBeExecuted, last, result, _⟩ := handled_ok 1 (by decide +kernel)
  refine ⟨nodesToBeExecuted, last, result, ?_⟩
  intro points
  obtain ⟨prepared, loop, _⟩ := handleRequest_eq_ok result
  rcases loop.sourcesAgree points with empty | agree
  · cases empty
  · have place := agree { previousNode := "Loop", previousNodeRun := some 1 } (by decide +kernel)
    exact absurd place.1 (by decide)

end ToolItemsExample

end N8n
