import N8n.PartialExecution.CleanRunData

/-!
# Rewiring a tool

To run a tool on its own, `rewireGraph` puts an executor node in the place of
the agent of the tool.  It takes the last descendant that the search finds for
the agent, and copies the incoming connections without their output indexes.
So the agent is replaced exactly if no other descendant is found after it, and
its main inputs come from the first outputs of other nodes.
-/

namespace N8n

open DirectedGraph GraphConnection List Relation

def TOOL_EXECUTOR_NODE_NAME : String := "PartialExecutionToolExecutor"

def toolExecutor (rootNode : INode) : INode :=
  { name := TOOL_EXECUTOR_NODE_NAME
    disabled := some false
    type := "@n8n/n8n-nodes-langchain.toolExecutor"
    id := rootNode.id
    typeVersion := 0
    position := (0, 0) }

/-- `tool.rewireOutputLogTo = NodeConnectionTypes.AiTool`, seen from a node of
the graph. -/
def rewireOutputLog (tool node : INode) : INode :=
  if node = tool then { tool with rewireOutputLogTo := some .aiTool }
  else node

@[simp] theorem name_rewireOutputLog (tool node : INode) :
    (rewireOutputLog tool node).name = node.name := by
  rw [rewireOutputLog]
  split
  next same => rw [same]
  next => rfl

/-- The connection with the nodes as they are after the change. -/
def GraphConnection.rewired (tool : INode) (connection : GraphConnection) : GraphConnection :=
  { connection with
    fromNode := rewireOutputLog tool connection.fromNode
    toNode := rewireOutputLog tool connection.toNode }

@[simp] theorem GraphConnection.makeKey_rewired (tool : INode) (connection : GraphConnection) :
    (connection.rewired tool).makeKey = connection.makeKey := by
  simp [rewired, makeKey]

/-- The tool is an object that the graph shares, so its new field shows
everywhere in the graph. -/
def DirectedGraph.rewireTool (graph : DirectedGraph) (tool : INode) : DirectedGraph where
  nodes := graph.nodes.mapValues (rewireOutputLog tool)
  connections := graph.connections.mapValues (·.rewired tool)
  nodesNamed := by
    intro entry mem
    obtain ⟨original, listed, rfl⟩ := mem_map.mp mem
    exact (name_rewireOutputLog tool _).trans (graph.nodesNamed original listed)
  connectionsKeyed := by
    intro entry mem
    obtain ⟨original, listed, rfl⟩ := mem_map.mp mem
    exact (makeKey_rewired tool _).trans (graph.connectionsKeyed original listed)

def incomingCopy (toolExecutor : INode) (cn : GraphConnection) : GraphConnection :=
  { fromNode := cn.fromNode
    toNode := toolExecutor
    type := cn.type }

def rewireGraph (tool : INode) (graph : DirectedGraph) : Except ExecutionError DirectedGraph := do
  let modifiedGraph ← graph.clone
  let children ← modifiedGraph.getChildren tool
  match children.getLast? with
  | none => return graph
  | some rootNode =>
    let allIncomingConnection :=
      (← modifiedGraph.getDirectParentConnections rootNode).filter (·.IsMain)
    let executor := toolExecutor rootNode
    let modifiedGraph := (modifiedGraph.addNode executor).rewireTool tool
    let modifiedGraph ← modifiedGraph.addConnection
      { fromNode := rewireOutputLog tool tool
        toNode := executor
        type := .aiTool }
    let modifiedGraph ← modifiedGraph.addConnections (allIncomingConnection.map fun cn =>
        incomingCopy executor (cn.rewired tool))
    return modifiedGraph.removeNode (rewireOutputLog tool rootNode)

/-! ## What the rewiring is for -/

section Spec

variable (graph : DirectedGraph)

/-- The node only supplies other nodes over connections of types other than
main. -/
def IsSupplier (node : INode) : Prop :=
  (∃ connection ∈ graph.getConnections, connection.fromNode = node) ∧
    ∀ connection ∈ graph.getConnections, connection.fromNode = node → ¬ connection.IsMain

/-- The first node behind the tool, on a chain of connections of types other
than main, that is not only a supplier. -/
inductive RootAgent : INode → INode → Prop where
  | here {tool agent : INode} : SubJoined graph tool agent → ¬ IsSupplier graph agent →
      RootAgent tool agent
  | behind {tool supplier agent : INode} :
      SubJoined graph tool supplier → IsSupplier graph supplier →
      RootAgent supplier agent → RootAgent tool agent

/-- The executor takes the place of the agent, and all else is kept. -/
structure ReplacesAgent (tool agent executor : INode)
    (rewired : DirectedGraph) : Prop where
  named : executor.name = TOOL_EXECUTOR_NODE_NAME
  added : executor ∈ rewired.getNodes ∧ graph.hasNode executor.name = false
  mains : ∀ connection ∈ graph.getConnectionsTo agent, connection.IsMain →
    ∃ copy ∈ rewired.getConnections, copy.IsMain ∧
      copy.fromNode = rewireOutputLog tool connection.fromNode ∧
      copy.outputIndex = connection.outputIndex ∧ copy.toNode = executor
  toolConnected : ∃ connection ∈ rewired.getConnections,
    connection.type = .aiTool ∧ connection.fromNode = rewireOutputLog tool tool ∧
      connection.toNode = executor
  removed : rewired.hasNode agent.name = false
  nodesKept : ∀ node ∈ graph.getNodes, node ≠ agent → rewireOutputLog tool node ∈ rewired.getNodes
  connectionsKept : ∀ connection ∈ graph.getConnections,
    connection.fromNode ≠ agent → connection.toNode ≠ agent →
      connection.rewired tool ∈ rewired.getConnections

/-- The search for the descendants of the tool finds the agent last. -/
def FoundLast (tool agent : INode) : Prop :=
  ∃ children, graph.getChildren tool = .ok children ∧ children.getLast? = some agent

def executorConnections (tool agent : INode) : List GraphConnection :=
  { fromNode := rewireOutputLog tool tool
    toNode := toolExecutor agent
    type := .aiTool } ::
  ((graph.getConnectionsTo agent).filter (·.IsMain)).map fun cn =>
    incomingCopy (toolExecutor agent) (cn.rewired tool)

end Spec

/-! ## What the rewiring does -/

namespace DirectedGraph

variable {graph : DirectedGraph}

theorem mem_getConnections_foldl_setConnection_of_injOn
    {connections : List GraphConnection} (distinct : Set.InjOn makeKey
      {connection | connection ∈ connections}) {other : GraphConnection} :
    other ∈ (connections.foldl setConnection graph).getConnections ↔
      other ∈ connections ∨ (other ∈ graph.getConnections ∧
        ∀ connection ∈ connections, other.makeKey ≠ connection.makeKey) := by
  induction connections generalizing graph with
  | nil => simp
  | cons connection connections ih =>
    have restDistinct := distinct.mono fun _ => mem_cons_of_mem _
    rw [foldl_cons, ih restDistinct, mem_getConnections_setConnection]
    constructor
    · rintro (listed | ⟨rfl | ⟨mem, ne⟩, others⟩)
      · exact .inl (mem_cons_of_mem _ listed)
      · exact .inl mem_cons_self
      · exact .inr ⟨mem, forall_mem_cons.mpr ⟨ne, others⟩⟩
    · rintro (listed | ⟨mem, ne⟩)
      · by_cases later : other ∈ connections
        · exact .inl later
        · obtain rfl := (mem_cons.mp listed).resolve_right later
          refine .inr ⟨.inl rfl, fun next isNext same => later ?_⟩
          rw [distinct mem_cons_self (mem_cons_of_mem _ isNext) same]
          exact isNext
      · obtain ⟨apart, others⟩ := forall_mem_cons.mp ne
        exact .inr ⟨.inr ⟨mem, apart⟩, others⟩

theorem getNodes_rewireTool (tool : INode) :
    (graph.rewireTool tool).getNodes = graph.getNodes.map (rewireOutputLog tool) :=
  OrderedMap.values_mapValues ..

theorem getConnections_rewireTool (tool : INode) : (graph.rewireTool tool).getConnections =
      graph.getConnections.map (·.rewired tool) :=
  OrderedMap.values_mapValues ..

def replaced (graph : DirectedGraph) (tool rootNode : INode) : DirectedGraph :=
  ((executorConnections graph tool rootNode).foldl setConnection
    ((graph.addNode (toolExecutor rootNode)).rewireTool tool)).removeNode
      (rewireOutputLog tool rootNode)

end DirectedGraph

section Replaced

variable {graph : DirectedGraph} {tool rootNode : INode} {node : INode}

theorem name_ne_of_fresh (fresh : graph.hasNode TOOL_EXECUTOR_NODE_NAME = false) (mem : node ∈ graph.getNodes) :
    node.name ≠ TOOL_EXECUTOR_NODE_NAME := by
  intro same
  have found := hasNode_iff.mpr ⟨node, mem, same⟩
  rw [fresh] at found
  cases found

theorem rewireOutputLog_injOn {node other : INode}
    (mem : node ∈ graph.getNodes) (otherMem : other ∈ graph.getNodes)
    (same : rewireOutputLog tool node = rewireOutputLog tool other) :
    node = other := by
  apply eq_of_name_eq mem otherMem
  rw [← name_rewireOutputLog tool node, same, name_rewireOutputLog]

theorem mem_getNodes_prepared (fresh : graph.hasNode TOOL_EXECUTOR_NODE_NAME = false)
    (toolMem : tool ∈ graph.getNodes) :
    node ∈ ((graph.addNode (toolExecutor rootNode)).rewireTool tool).getNodes ↔
      node = toolExecutor rootNode ∨
        ∃ original ∈ graph.getNodes, rewireOutputLog tool original = node := by
  have executorKept : rewireOutputLog tool (toolExecutor rootNode) = toolExecutor rootNode := by
    rw [rewireOutputLog, if_neg]
    intro same
    exact name_ne_of_fresh fresh toolMem (same ▸ rfl)
  rw [getNodes_rewireTool, mem_map]
  constructor
  · rintro ⟨original, mem, rfl⟩
    rcases mem_getNodes_addNode.mp mem with rfl | ⟨listed, _⟩
    · exact .inl executorKept
    · exact .inr ⟨original, listed, rfl⟩
  · rintro (rfl | ⟨original, listed, rfl⟩)
    · exact ⟨toolExecutor rootNode, mem_getNodes_addNode.mpr (.inl rfl), executorKept⟩
    · exact ⟨original, mem_getNodes_addNode.mpr (.inr ⟨listed, name_ne_of_fresh fresh listed⟩), rfl⟩

variable {connection : GraphConnection}

theorem exists_source_of_mem_executorConnections
    (wellFormed : graph.WellFormed) (toolMem : tool ∈ graph.getNodes)
    (listed : connection ∈ executorConnections graph tool rootNode) :
    ∃ source ∈ graph.getNodes, (connection.type = .aiTool ∧ source = tool ∨ connection.IsMain) ∧
      connection =
        { fromNode := rewireOutputLog tool source
          toNode := toolExecutor rootNode
          type := connection.type } := by
  rcases mem_cons.mp listed with rfl | isCopy
  · exact ⟨tool, toolMem, .inl ⟨rfl, rfl⟩, rfl⟩
  · obtain ⟨cn, incoming, rfl⟩ := mem_map.mp isCopy
    obtain ⟨leads, isMain⟩ := mem_filter.mp incoming
    exact ⟨cn.fromNode, wellFormed.fromMem cn (mem_filter.mp leads).1,
      .inr (of_decide_eq_true isMain), rfl⟩

theorem source_of_makeKey_eq {source other executor : INode} {type otherType : NodeConnectionType}
    (same : ({ fromNode := source
               toNode := executor
               type : GraphConnection }).makeKey =
      ({ fromNode := other
         toNode := executor
         type := otherType : GraphConnection }).makeKey) :
    source.name ++ "-" ++ type.text = other.name ++ "-" ++ otherType.text := by
  simpa only [makeKey, String.append_left_inj] using same

theorem executorConnections_injOn (wellFormed : graph.WellFormed)
    (toolMem : tool ∈ graph.getNodes) :
    Set.InjOn makeKey {connection | connection ∈ executorConnections graph tool rootNode} := by
  intro left leftListed right rightListed same
  obtain ⟨source, sourceMem, leftType, leftIs⟩ :=
    exists_source_of_mem_executorConnections wellFormed toolMem leftListed
  obtain ⟨other, otherMem, rightType, rightIs⟩ :=
    exists_source_of_mem_executorConnections wellFormed toolMem rightListed
  rw [leftIs, rightIs] at same
  have texts := source_of_makeKey_eq same
  rw [name_rewireOutputLog, name_rewireOutputLog] at texts
  have sameType : left.type = right.type := by
    rcases leftType with ⟨isTool, _⟩ | isMain
    · rcases rightType with ⟨otherTool, _⟩ | otherMain
      · rw [isTool, otherTool]
      · rw [isTool, show right.type = .main from otherMain] at texts
        have ends := congrArg (fun text : String => text.toList.getLast?) texts
        simp [NodeConnectionType.text, String.toList_append] at ends
    · rcases rightType with ⟨otherTool, _⟩ | otherMain
      · rw [otherTool, show left.type = .main from isMain] at texts
        have ends := congrArg (fun text : String => text.toList.getLast?) texts
        simp [NodeConnectionType.text, String.toList_append] at ends
      · exact (show left.type = .main from isMain).trans
          (show right.type = .main from otherMain).symm
  rw [sameType, String.append_left_inj, String.append_left_inj] at texts
  have sameSource := eq_of_name_eq sourceMem otherMem texts
  rw [leftIs, rightIs, sameSource, sameType]

theorem ends_of_mem_executorConnections (wellFormed : graph.WellFormed)
    (fresh : graph.hasNode TOOL_EXECUTOR_NODE_NAME = false)
    (toolMem : tool ∈ graph.getNodes) :
    ∀ connection ∈ executorConnections graph tool rootNode, connection.fromNode ∈ ((graph.addNode
          (toolExecutor rootNode)).rewireTool tool).getNodes ∧
        connection.toNode ∈ ((graph.addNode (toolExecutor rootNode)).rewireTool tool).getNodes := by
  intro connection listed
  obtain ⟨source, mem, _, same⟩ :=
    exists_source_of_mem_executorConnections wellFormed toolMem listed
  rw [same]
  exact ⟨(mem_getNodes_prepared fresh toolMem).mpr (.inr ⟨source, mem, rfl⟩),
    (mem_getNodes_prepared fresh toolMem).mpr (.inl rfl)⟩

theorem rewireGraph_eq_ok (wellFormed : graph.WellFormed)
    (fresh : graph.hasNode TOOL_EXECUTOR_NODE_NAME = false)
    (toolMem : tool ∈ graph.getNodes) (rootMem : rootNode ∈ graph.getNodes)
    (foundLast : FoundLast graph tool rootNode) :
    rewireGraph tool graph = .ok (graph.replaced tool rootNode) := by
  obtain ⟨children, found, last⟩ := foundLast
  have added : ((graph.addNode (toolExecutor rootNode)).rewireTool
      tool).addConnections (executorConnections graph tool rootNode) =
      .ok ((executorConnections graph tool rootNode).foldl setConnection
        ((graph.addNode (toolExecutor rootNode)).rewireTool tool)) :=
    addConnections_eq_ok (ends_of_mem_executorConnections wellFormed fresh toolMem)
  rw [rewireGraph, clone_eq_ok wellFormed]
  change (graph.getChildren tool >>= _) = _
  rw [found]
  change (match children.getLast? with
    | none => _
    | some rootNode => _) = _
  rw [last]
  change (graph.getDirectParentConnections rootNode >>= _) = _
  rw [getDirectParentConnections_of_mem rootMem]
  let prepared := (graph.addNode (toolExecutor rootNode)).rewireTool tool
  change (prepared.addConnection
      { fromNode := rewireOutputLog tool tool
        toNode := toolExecutor rootNode
        type := .aiTool } >>= fun connected =>
    connected.addConnections (((graph.getConnectionsTo rootNode).filter (·.IsMain)).map fun cn =>
          incomingCopy (toolExecutor rootNode) (cn.rewired tool)) >>=
      fun modifiedGraph => pure (modifiedGraph.removeNode (rewireOutputLog tool rootNode))) = _
  rw [← bind_assoc]
  change (prepared.addConnections (executorConnections graph tool rootNode) >>=
    fun modifiedGraph => pure (modifiedGraph.removeNode (rewireOutputLog tool rootNode))) = _
  rw [added]
  rfl

theorem mem_getNodes_replaced (fresh : graph.hasNode TOOL_EXECUTOR_NODE_NAME = false)
    (toolMem : tool ∈ graph.getNodes)
    (rootMem : rootNode ∈ graph.getNodes) :
    node ∈ (graph.replaced tool rootNode).getNodes ↔ node = toolExecutor rootNode ∨
        ∃ original ∈ graph.getNodes, original ≠ rootNode ∧
          rewireOutputLog tool original = node := by
  have sameNodes : ∀ other, other ∈ (((executorConnections graph tool rootNode).foldl
        setConnection ((graph.addNode (toolExecutor rootNode)).rewireTool tool)).deleteConnectionsOf
            (rewireOutputLog tool rootNode)).getNodes ↔
      other ∈ ((graph.addNode (toolExecutor rootNode)).rewireTool tool).getNodes := by
    intro other
    exact iff_of_eq (congrArg (other ∈ OrderedMap.values ·) (nodes_foldl_setConnection
        (executorConnections graph tool rootNode)))
  have removes : rewireOutputLog tool rootNode ∈
      ((graph.addNode (toolExecutor rootNode)).rewireTool tool).getNodes :=
    (mem_getNodes_prepared fresh toolMem).mpr (.inr ⟨rootNode, rootMem, rfl⟩)
  rw [replaced, removeNode, mem_getNodes_deleteNode ((sameNodes _).mpr removes),
    sameNodes, mem_getNodes_prepared fresh toolMem]
  constructor
  · rintro ⟨rfl | ⟨original, mem, rfl⟩, ne⟩
    · exact .inl rfl
    · exact .inr ⟨original, mem, fun same => ne (same ▸ rfl), rfl⟩
  · rintro (rfl | ⟨original, mem, ne, rfl⟩)
    · refine ⟨.inl rfl, fun same => ?_⟩
      have names := congrArg INode.name same
      rw [name_rewireOutputLog] at names
      exact name_ne_of_fresh fresh rootMem names.symm
    · exact ⟨.inr ⟨original, mem, rfl⟩, fun same =>
        ne (rewireOutputLog_injOn mem rootMem same)⟩

theorem mem_getConnections_replaced (wellFormed : graph.WellFormed)
    (toolMem : tool ∈ graph.getNodes) :
    connection ∈ (graph.replaced tool rootNode).getConnections ↔
      (connection ∈ executorConnections graph tool rootNode ∨
        ∃ original ∈ graph.getConnections, original.rewired tool = connection ∧
          ∀ other ∈ executorConnections graph tool rootNode, original.makeKey ≠ other.makeKey) ∧
      connection.toNode ≠ rewireOutputLog tool rootNode ∧
        connection.fromNode ≠ rewireOutputLog tool rootNode := by
  refine mem_getConnections_deleteConnectionsOf.trans ?_
  rw [mem_getConnections_foldl_setConnection_of_injOn
    (executorConnections_injOn wellFormed toolMem),
    getConnections_rewireTool, mem_map]
  apply and_congr_left
  intro _
  apply or_congr Iff.rfl
  constructor
  · rintro ⟨⟨original, listed, rfl⟩, ne⟩
    refine ⟨original, listed, rfl, ?_⟩
    simpa only [makeKey_rewired] using ne
  · rintro ⟨original, listed, rfl, ne⟩
    refine ⟨⟨original, listed, rfl⟩, ?_⟩
    simpa only [makeKey_rewired] using ne

end Replaced

/-! ## When the agent is replaced -/

section Exactness

variable {graph : DirectedGraph} {tool agent : INode}

/-- The agent is found last, it does not feed itself and only the first
outputs of other nodes feed it, and the executor and its connections get names
and keys of their own. -/
structure IsReplaceable (graph : DirectedGraph) (tool agent : INode) : Prop where
  foundLast : FoundLast graph tool agent
  apart : agent ≠ tool
  firstOutputs : ∀ connection ∈ graph.getConnectionsTo agent,
    connection.IsMain → connection.fromNode ≠ agent ∧ connection.outputIndex = 0
  fresh : graph.hasNode TOOL_EXECUTOR_NODE_NAME = false
  keysFree : ∀ connection ∈ graph.getConnections,
    connection.fromNode ≠ agent → connection.toNode ≠ agent →
      ∀ other ∈ executorConnections graph tool agent, connection.makeKey ≠ other.makeKey

theorem RootAgent.reaches (root : RootAgent graph tool agent) :
    TransGen graph.Joined tool agent := by
  induction root with
  | here joined _ =>
    obtain ⟨connection, listed, _, starts, ends⟩ := joined
    exact .single ⟨connection, listed, starts, ends⟩
  | behind joined _ _ ih =>
    obtain ⟨connection, listed, _, starts, ends⟩ := joined
    exact .head ⟨connection, listed, starts, ends⟩ ih

theorem tool_mem_of_reaches (wellFormed : graph.WellFormed)
    (reaches : TransGen graph.Joined tool agent) :
    tool ∈ graph.getNodes := by
  obtain ⟨_, ⟨connection, listed, rfl, _⟩, _⟩ := TransGen.head'_iff.mp reaches
  exact wellFormed.fromMem connection listed

theorem exists_foundLast (wellFormed : graph.WellFormed)
    (reaches : TransGen graph.Joined tool agent) :
    ∃ rootNode, FoundLast graph tool rootNode ∧ rootNode ∈ graph.getNodes := by
  have toolMem := tool_mem_of_reaches wellFormed reaches
  obtain ⟨children, found, exactly⟩ := getChildren_eq_ok wellFormed toolMem
  have nonempty : children ≠ [] := ne_nil_of_mem ((exactly agent).mpr reaches)
  refine ⟨children.getLast nonempty, ⟨children, found, getLast?_eq_getLast_of_ne_nil nonempty⟩, ?_⟩
  have last := (exactly _).mp (getLast_mem nonempty)
  exact mem_getNodes_of_reachable wellFormed toolMem last.to_reflTransGen

theorem replacesAgent_of_isReplaceable (wellFormed : graph.WellFormed)
    (reaches : TransGen graph.Joined tool agent)
    (replaceable : IsReplaceable graph tool agent) :
    ReplacesAgent graph tool agent (toolExecutor agent) (graph.replaced tool agent) := by
  have toolMem := tool_mem_of_reaches wellFormed reaches
  have agentMem := mem_getNodes_of_reachable wellFormed toolMem reaches.to_reflTransGen
  have fresh := replaceable.fresh
  -- the executor is neither the agent nor behind it
  have executorApart : toolExecutor agent ≠ rewireOutputLog tool agent := by
    intro same
    have names := congrArg INode.name same
    rw [name_rewireOutputLog] at names
    exact name_ne_of_fresh fresh agentMem names.symm
  have sourceApart : ∀ source ∈ graph.getNodes, source ≠ agent →
      rewireOutputLog tool source ≠ rewireOutputLog tool agent :=
    fun source mem ne same =>
      ne (rewireOutputLog_injOn mem agentMem same)
  exact {
    named := rfl
    added := ⟨(mem_getNodes_replaced fresh toolMem agentMem).mpr (.inl rfl), fresh⟩
    mains := by
      intro connection leads isMain
      obtain ⟨otherSource, firstOutput⟩ := replaceable.firstOutputs connection leads isMain
      have sourceMem := wellFormed.fromMem connection (mem_filter.mp leads).1
      refine ⟨incomingCopy (toolExecutor agent) (connection.rewired tool),
        ?_, isMain, rfl, firstOutput.symm, rfl⟩
      refine (mem_getConnections_replaced wellFormed toolMem).mpr
        ⟨.inl (mem_cons_of_mem _ (mem_map_of_mem ?_)),
          executorApart, sourceApart _ sourceMem otherSource⟩
      exact mem_filter.mpr ⟨leads, by simpa using isMain⟩
    toolConnected := by
      refine ⟨_, (mem_getConnections_replaced wellFormed toolMem).mpr
        ⟨.inl mem_cons_self, executorApart, ?_⟩, rfl, rfl, rfl⟩
      exact sourceApart tool toolMem replaceable.apart.symm
    removed := by
      rw [← Bool.not_eq_true, hasNode_iff]
      rintro ⟨node, mem, same⟩
      rcases (mem_getNodes_replaced fresh toolMem agentMem).mp mem
        with rfl | ⟨original, listed, ne, rfl⟩
      · exact name_ne_of_fresh fresh agentMem same.symm
      · rw [name_rewireOutputLog] at same
        exact ne (eq_of_name_eq listed agentMem same)
    nodesKept := fun node listed ne =>
      (mem_getNodes_replaced fresh toolMem agentMem).mpr (.inr ⟨node, listed, ne, rfl⟩)
    connectionsKept := by
      intro connection listed starts ends
      refine (mem_getConnections_replaced wellFormed toolMem).mpr ⟨.inr ⟨connection, listed, rfl,
          replaceable.keysFree connection listed starts ends⟩, ?_, ?_⟩
      · exact sourceApart _ (wellFormed.toMem connection listed) ends
      · exact sourceApart _ (wellFormed.fromMem connection listed) starts }

/-- The agent of a tool is replaced exactly if the search finds it last, only
the first outputs of other nodes feed it, and nothing has the name or a key of
the executor. -/
theorem rewireGraph_replacesAgent_iff (wellFormed : graph.WellFormed)
    (root : RootAgent graph tool agent) :
    (∃ rewired executor, rewireGraph tool graph = .ok rewired ∧
      ReplacesAgent graph tool agent executor rewired) ↔
      IsReplaceable graph tool agent := by
  have toolMember := tool_mem_of_reaches wellFormed root.reaches
  have agentMember := mem_getNodes_of_reachable wellFormed toolMember root.reaches.to_reflTransGen
  constructor
  · rintro ⟨rewired, executor, success, replaces⟩
    have fresh : graph.hasNode TOOL_EXECUTOR_NODE_NAME = false := replaces.named ▸ replaces.added.2
    obtain ⟨rootNode, foundLast, rootMember⟩ := exists_foundLast wellFormed root.reaches
    cases success.symm.trans (rewireGraph_eq_ok wellFormed fresh toolMember rootMember foundLast)
    have isExecutor : executor = toolExecutor rootNode := by
      rcases (mem_getNodes_replaced fresh toolMember rootMember).mp
          replaces.added.1 with same | ⟨original, listed, _, rfl⟩
      · exact same
      · have named := replaces.named
        rw [name_rewireOutputLog] at named
        exact absurd named (name_ne_of_fresh fresh listed)
    obtain rfl : rootNode = agent := by
      by_contra ne
      have kept := (mem_getNodes_replaced fresh toolMember rootMember).mpr
        (.inr ⟨agent, agentMember, Ne.symm ne, rfl⟩)
      have found := hasNode_iff.mpr ⟨_, kept, name_rewireOutputLog tool agent⟩
      rw [replaces.removed] at found
      cases found
    -- connections to the executor are among the new ones
    have isNew : ∀ connection ∈ (graph.replaced tool rootNode).getConnections,
        connection.toNode = executor →
        connection ∈ executorConnections graph tool rootNode ∧
          connection.fromNode ≠ rewireOutputLog tool rootNode := by
      intro connection listed leads
      obtain ⟨new | ⟨original, originalListed, rfl, _⟩, _, apart⟩ :=
        (mem_getConnections_replaced wellFormed toolMember).mp listed
      · exact ⟨new, apart⟩
      · have names := congrArg INode.name (leads.trans isExecutor)
        rw [rewired, name_rewireOutputLog] at names
        exact absurd names (name_ne_of_fresh fresh (wellFormed.toMem original originalListed))
    exact {
      foundLast := foundLast
      apart := by
        rintro rfl
        obtain ⟨connection, listed, _, starts, leads⟩ := replaces.toolConnected
        exact (isNew connection listed leads).2 starts
      firstOutputs := by
        intro connection leads isMain
        obtain ⟨copy, listed, _, starts, output, ends⟩ := replaces.mains connection leads isMain
        obtain ⟨new, apart⟩ := isNew copy listed ends
        constructor
        · intro same
          exact apart (starts.trans (same ▸ rfl))
        · obtain ⟨_, _, _, same⟩ := exists_source_of_mem_executorConnections
            wellFormed toolMember new
          rw [← output, same]
      fresh := fresh
      keysFree := by
        intro connection listed starts ends
        have kept := replaces.connectionsKept connection listed starts ends
        obtain ⟨new | ⟨original, originalListed, same, free⟩, _⟩ :=
          (mem_getConnections_replaced wellFormed toolMember).mp kept
        · obtain ⟨_, _, _, same⟩ := exists_source_of_mem_executorConnections
            wellFormed toolMember new
          have names := congrArg (fun connection : GraphConnection =>
            connection.toNode.name) same
          simp only [rewired, name_rewireOutputLog] at names
          exact absurd names (name_ne_of_fresh fresh (wellFormed.toMem connection listed))
        · have sameKey := congrArg makeKey same
          rw [makeKey_rewired, makeKey_rewired] at sameKey
          rw [← sameKey]
          exact free }
  · intro replaceable
    exact ⟨_, _, rewireGraph_eq_ok wellFormed replaceable.fresh toolMember
      agentMember replaceable.foundLast,
      replacesAgent_of_isReplaceable wellFormed root.reaches replaceable⟩

end Exactness

namespace RewireExample

def trigger : INode := { name := "Trigger" }

def agent : INode := { name := "Agent" }

def tool : INode := { name := "Tool" }

def after : INode := { name := "After" }

def agentWithTool : DirectedGraph :=
  [{ fromNode := trigger
     toNode := agent },
    { fromNode := tool
      toNode := agent
      type := .aiTool : GraphConnection }].foldl setConnection
    (empty.addNodes [trigger, agent, tool])

def agentWithSuccessor : DirectedGraph :=
  [{ fromNode := trigger
     toNode := agent },
    { fromNode := agent
      toNode := after },
    { fromNode := tool
      toNode := agent
      type := .aiTool : GraphConnection }].foldl setConnection
    (empty.addNodes [trigger, agent, after, tool])

theorem replacesAgent_agentWithTool :
    ∃ rewired executor, rewireGraph tool agentWithTool = .ok rewired ∧
      ReplacesAgent agentWithTool tool agent executor rewired := by
  have joined : SubJoined agentWithTool tool agent :=
    ⟨{ fromNode := tool
       toNode := agent
       type := .aiTool }, by decide, by decide, rfl, rfl⟩
  have noSupplier : ¬ IsSupplier agentWithTool agent := by
    rintro ⟨⟨connection, listed, starts⟩, _⟩
    have none : ∀ connection ∈ agentWithTool.getConnections, connection.fromNode ≠ agent := by
      decide
    exact none connection listed starts
  refine (rewireGraph_replacesAgent_iff ⟨by decide, by decide⟩ (.here joined noSupplier)).mpr ?_
  exact {
    foundLast := ⟨[agent], by decide +kernel, rfl⟩
    apart := by decide
    firstOutputs := by decide
    fresh := by decide
    keysFree := by
      have touches : ∀ connection ∈ agentWithTool.getConnections, connection.toNode = agent := by
        decide
      intro connection listed _ ends
      exact absurd (touches connection listed) ends }

/-- The node behind the agent is removed, and the agent is kept. -/
theorem not_replacesAgent_agentWithSuccessor :
    agentWithSuccessor.WellFormed ∧ RootAgent agentWithSuccessor tool agent ∧
      ¬ ∃ rewired executor, rewireGraph tool agentWithSuccessor = .ok rewired ∧
          ReplacesAgent agentWithSuccessor tool agent executor rewired := by
  refine ⟨⟨by decide, by decide⟩, .here ?_ ?_, ?_⟩
  · exact ⟨{ fromNode := tool
             toNode := agent
             type := .aiTool }, by decide, by decide, rfl, rfl⟩
  · rintro ⟨_, noMain⟩
    exact noMain { fromNode := agent, toNode := after } (by decide) rfl (by decide)
  · rintro ⟨rewired, executor, success, replaces⟩
    have computed : (rewireGraph tool agentWithSuccessor).toOption.map
        (·.hasNode "Agent") = some true := by
      decide +kernel
    rw [success] at computed
    have kept : rewired.hasNode "Agent" = true := Option.some.inj computed
    rw [show rewired.hasNode "Agent" = false from replaces.removed] at kept
    cases kept

end RewireExample

end N8n
