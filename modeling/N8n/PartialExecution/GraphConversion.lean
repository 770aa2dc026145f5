import N8n.PartialExecution.DirectedGraph

/-!
# Graphs of workflows

`fromWorkflow` imports the connection table of a workflow into a graph, and
`toWorkflow` exports the graph again.  The import keeps one connection for
each key, and the export creates the outputs of a node for the type of its
first connection only.
-/

namespace N8n

open IConnections List OrderedMap Workflow Option

namespace DirectedGraph

def importConnection (workflow : Workflow) (fromNode : INode)
    (outputType : NodeConnectionType) (outputIndex : Nat)
    (graph : DirectedGraph) (conn : IConnection) :
    Except ExecutionError DirectedGraph := do
  let toNode ← assertDefined (workflow.getNode conn.node)
  graph.addConnection
    { fromNode := fromNode
      toNode := toNode
      type := outputType
      outputIndex := outputIndex
      inputIndex := conn.index }

def fromWorkflow (workflow : Workflow) : Except ExecutionError DirectedGraph :=
  workflow.connectionsBySourceNode.ownEntries.foldlM (fun graph (fromNodeName, iConnection) => do
      let fromNode ← assertDefined (workflow.getNode fromNodeName)
      iConnection.entries.foldlM (fun graph (outputType, outputs) =>
          outputs.zipIdx.foldlM (fun graph (conns, outputIndex) =>
              (conns.getD []).foldlM (importConnection workflow fromNode outputType outputIndex)
                graph)
            graph)
        graph)
    (DirectedGraph.empty.addNodes workflow.nodes.ownValues)

/-- `outputs[outputIndex] = group`, filling up with missing outputs. -/
def putOutput (outputs : NodeInputConnections) (outputIndex : Nat)
    (group : List IConnection) : NodeInputConnections :=
  (outputs ++ List.replicate (outputIndex + 1 - outputs.length) none).set outputIndex (some group)

/-- The loop body of `toIConnections`.  The outputs of a node are created for
the type of the connection that meets the node first. -/
def exportConnection (result : IConnections) (connection : GraphConnection) :
    Except ExecutionError IConnections :=
  let fromName := connection.fromNode.name
  let resultConnection := (result.get? fromName).getD (OrderedMap.empty.set connection.type [])
  match resultConnection.get? connection.type with
  | none => .error .typeError
  | some outputs =>
    .ok (result.set fromName (resultConnection.set connection.type
      (putOutput outputs connection.outputIndex (listedAt outputs connection.outputIndex ++
          [{ node := connection.toNode.name
             type := connection.type
             index := connection.inputIndex }]))))

def toIConnections (graph : DirectedGraph) : Except ExecutionError IConnections :=
  graph.getConnections.foldlM exportConnection .empty

/-- The other parameters of the new workflow are taken from a given one. -/
def toWorkflow (graph : DirectedGraph) (parameters : Workflow) :
    Except ExecutionError Workflow := do
  let connections ← graph.toIConnections
  return { parameters with
    nodes := setNodes graph.getNodes
    connectionsBySourceNode := connections
    nodes_named := setNodes_named graph.getNodes }

section Import

variable {workflow : Workflow}

/-- The connection that a table entry stands for.  Its input type is
ignored. -/
def graphConnection? (workflow : Workflow) (source : SourceConnection) : Option GraphConnection :=
  (workflow.getNode source.fromNode).bind fun fromNode =>
    (workflow.getNode source.connection.node).map fun toNode =>
      { fromNode := fromNode
        toNode := toNode
        type := source.outputType
        outputIndex := source.outputIndex
        inputIndex := source.connection.index }

/-- The connections of a workflow in the order of its table. -/
def graphConnections (workflow : Workflow) : List GraphConnection :=
  workflow.connectionsBySourceNode.enumerate.filterMap (graphConnection? workflow)

variable {connection : GraphConnection}

theorem mem_graphConnections : connection ∈ graphConnections workflow ↔
      ∃ source ∈ workflow.connectionsBySourceNode.enumerate,
        graphConnection? workflow source = some connection :=
  mem_filterMap

/-- The graph of a workflow before its connections are added. -/
def nodesOf (workflow : Workflow) : DirectedGraph :=
  DirectedGraph.empty.addNodes workflow.nodes.ownValues

theorem mem_getNodes_nodesOf {node : INode} :
    node ∈ (nodesOf workflow).getNodes ↔ node ∈ workflow.nodes.values := by
  have distinct : Set.InjOn INode.name {node | node ∈ workflow.nodes.ownValues} := by
    intro left leftMem right rightMem same
    rw [Set.mem_ofPred_eq, mem_ownValues] at leftMem rightMem
    have leftFound := getNode_of_mem leftMem
    have rightFound := getNode_of_mem rightMem
    rw [same, rightFound] at leftFound
    exact (some.inj leftFound).symm
  rw [nodesOf, mem_getNodes_addNodes distinct, mem_ownValues]
  exact or_iff_left fun absurd => not_mem_nil absurd.1

def addSource (workflow : Workflow) (graph : DirectedGraph)
    (source : SourceConnection) : DirectedGraph :=
  match graphConnection? workflow source with
  | some connection => graph.setConnection connection
  | none => graph

/-- While connections are added the nodes of the graph stay the same. -/
def HasNodesOf (workflow : Workflow) (graph : DirectedGraph) : Prop :=
  graph.nodes = (nodesOf workflow).nodes

theorem hasNodesOf_addSource {graph : DirectedGraph}
    (sameNodes : HasNodesOf workflow graph) (source : SourceConnection) :
    HasNodesOf workflow (addSource workflow graph source) := by
  unfold addSource
  split
  · exact sameNodes
  · exact sameNodes

theorem importConnection_eq_ok {graph : DirectedGraph}
    (sameNodes : HasNodesOf workflow graph) (source : SourceConnection)
    {fromNode : INode}
    (fromFound : workflow.getNode source.fromNode = some fromNode)
    (toExists : source.connection.node ∈ workflow.nodes.keys) :
    importConnection workflow fromNode source.outputType source.outputIndex
        graph source.connection = .ok (addSource workflow graph source) := by
  have held : ∀ nodeName node, workflow.getNode nodeName = some node → node ∈ graph.getNodes := by
    intro nodeName node found
    rw [getNodes, sameNodes]
    exact mem_getNodes_nodesOf.mpr (mem_values_of_mem_entries (get?_eq_some_iff.mp found))
  obtain ⟨toNode, toFound⟩ := exists_getNode toExists
  simp only [importConnection, toFound, assertDefined, addConnection, addSource,
    graphConnection?, fromFound, bind_some, map_some]
  simp only [bind, Except.bind, assertNode_of_mem (held _ _ fromFound),
    assertNode_of_mem (held _ _ toFound)]
  rfl

theorem fromWorkflow_eq_ok (exist : workflow.ConnectionsExist) : fromWorkflow workflow =
      .ok ((graphConnections workflow).foldl setConnection (nodesOf workflow)) := by
  have flat : (graphConnections workflow).foldl setConnection (nodesOf workflow) =
      workflow.connectionsBySourceNode.enumerate.foldl (addSource workflow) (nodesOf workflow) := by
    rw [graphConnections, foldl_filterMap]
    congr 1
    funext graph source
    unfold addSource
    cases graphConnection? workflow source <;> rfl
  simp only [flat, enumerate, foldl_flatMap, foldl_map]
  -- one fold for each of the four nested loops
  refine (foldlM_eq_ok (HasNodesOf workflow) ?_ rfl).1
  rintro graph ⟨fromNodeName, iConnection⟩ sameNodes entryMem
  have keyMem : fromNodeName ∈ workflow.connectionsBySourceNode.keys :=
    mem_map.mpr ⟨_, mem_ownEntries.mp entryMem, rfl⟩
  obtain ⟨fromNode, fromFound⟩ := exists_getNode (exist.1 _ keyMem)
  simp only [fromFound, assertDefined]
  refine foldlM_eq_ok (HasNodesOf workflow) ?_ sameNodes
  rintro graph ⟨outputType, outputs⟩ sameNodes outputsMem
  refine foldlM_eq_ok (HasNodesOf workflow) ?_ sameNodes
  rintro graph ⟨conns, outputIndex⟩ sameNodes connsMem
  refine foldlM_eq_ok (HasNodesOf workflow) ?_ sameNodes
  intro graph conn sameNodes connMem
  let source : SourceConnection :=
    { fromNode := fromNodeName
      outputType := outputType
      outputIndex := outputIndex
      connection := conn }
  have mem : source ∈ workflow.connectionsBySourceNode.enumerate :=
    mem_flatMap.mpr ⟨_, entryMem, mem_flatMap.mpr
      ⟨_, outputsMem, mem_flatMap.mpr ⟨_, connsMem, mem_map.mpr ⟨conn, connMem, rfl⟩⟩⟩⟩
  exact ⟨importConnection_eq_ok sameNodes source fromFound
    (exist.2 _ mem), hasNodesOf_addSource sameNodes source⟩

theorem fromWorkflow_exact (exist : workflow.ConnectionsExist)
    (distinct : Set.InjOn GraphConnection.makeKey
      {connection | connection ∈ graphConnections workflow}) :
    ∃ graph, fromWorkflow workflow = .ok graph ∧
      (∀ node, node ∈ graph.getNodes ↔ node ∈ workflow.nodes.values) ∧
      ∀ connection, connection ∈ graph.getConnections ↔ connection ∈ graphConnections workflow := by
  have none : (nodesOf workflow).getConnections = [] := by
    rw [getConnections, nodesOf, connections_addNodes]
    rfl
  refine ⟨_, fromWorkflow_eq_ok exist, ?_, ?_⟩
  · intro node
    rw [getNodes, nodes_foldl_setConnection]
    exact mem_getNodes_nodesOf
  · intro connection
    rw [mem_getConnections_foldl_setConnection, none]
    · simp
    · simpa only [none, not_mem_nil, false_or] using distinct

theorem ends_of_mem_graphConnections (mem : connection ∈ graphConnections workflow) :
    connection.fromNode ∈ workflow.nodes.values ∧ connection.toNode ∈ workflow.nodes.values := by
  obtain ⟨source, _, converted⟩ := mem_graphConnections.mp mem
  obtain ⟨fromNode, fromFound, rest⟩ := bind_eq_some_iff.mp converted
  obtain ⟨toNode, toFound, rfl⟩ := map_eq_some_iff.mp rest
  exact ⟨mem_values_of_mem_entries (get?_eq_some_iff.mp fromFound),
    mem_values_of_mem_entries (get?_eq_some_iff.mp toFound)⟩

end Import

section Export

def exported (connection : GraphConnection) : IConnection :=
  { node := connection.toNode.name
    type := connection.type
    index := connection.inputIndex }

/-- A table of exported connections: a node has the outputs of one of its
connections' type, and the entries are those of the connections. -/
structure Exported (connections : List GraphConnection)
    (result : IConnections) : Prop where
  source : ∀ name byType, result.get? name = some byType →
    ∃ connection ∈ connections, connection.fromNode.name = name ∧ byType.keys = [connection.type]
  entry : ∀ name type index target, result.Entry name type index target ↔
      ∃ connection ∈ connections, connection.fromNode.name = name ∧
        connection.type = type ∧ connection.outputIndex = index ∧ target = exported connection

def OneTypePerSource (connections : List GraphConnection) : Prop :=
  ∀ left ∈ connections, ∀ right ∈ connections,
    left.fromNode.name = right.fromNode.name → left.type = right.type

theorem exported_nil : Exported [] .empty := by
  constructor
  · simp
  · simp [IConnections.Entry, at?]

theorem listedAt_putOutput (outputs : NodeInputConnections)
    (outputIndex : Nat) (group : List IConnection) (index : Nat) :
    listedAt (putOutput outputs outputIndex group) index =
      if outputIndex = index then group else listedAt outputs index := by
  have inside : outputIndex < (outputs ++
      List.replicate (outputIndex + 1 - outputs.length) none).length := by
    rw [length_append, length_replicate]
    omega
  rw [listedAt, putOutput, getElem?_set]
  by_cases same : outputIndex = index
  · rw [if_pos same, if_pos same, if_pos inside]
    rfl
  · rw [if_neg same, if_neg same, listedAt, getElem?_append]
    split
    · rfl
    next outside =>
      rw [getElem?_eq_none (Nat.le_of_not_lt outside), getElem?_replicate]
      split <;> rfl

variable {connections : List GraphConnection} {result next : IConnections}
  {connection : GraphConnection}

theorem at?_exportConnection (ok : exportConnection result connection = .ok next) (name : String)
    (type : NodeConnectionType) :
    next.at? name type =
      if connection.fromNode.name = name ∧ connection.type = type then
        some (putOutput ((result.at? name type).getD []) connection.outputIndex
          (listedAt ((result.at? name type).getD []) connection.outputIndex ++
            [exported connection]))
      else result.at? name type := by
  simp only [exportConnection] at ok
  split at ok
  · cases ok
  next outputs outputsFound =>
    cases ok
    simp only [at?, get?_set]
    by_cases sameName : connection.fromNode.name = name
    · subst sameName
      by_cases sameType : connection.type = type
      · subst sameType
        cases found : result.get? connection.fromNode.name with
        | none =>
          simp only [found, getD_none, get?_set_self, some.injEq] at outputsFound
          subst outputsFound
          simp [exported]
        | some byType =>
          simp only [found, getD_some] at outputsFound
          simp [exported, outputsFound]
      · cases found : result.get? connection.fromNode.name <;> simp [sameType, get?_set]
    · simp [sameName]

theorem entry_exportConnection (ok : exportConnection result connection = .ok next) {name : String}
    {type : NodeConnectionType} {index : Nat} {target : IConnection} :
    next.Entry name type index target ↔ result.Entry name type index target ∨
        (connection.fromNode.name = name ∧ connection.type = type ∧
          connection.outputIndex = index ∧ target = exported connection) := by
  rw [entry_iff_listedAt, entry_iff_listedAt, at?_exportConnection ok]
  by_cases same : connection.fromNode.name = name ∧ connection.type = type
  · rw [if_pos same, getD_some, listedAt_putOutput]
    by_cases sameIndex : connection.outputIndex = index <;> simp [same, sameIndex]
  · rw [if_neg same]
    constructor
    · exact .inl
    · rintro (mem | ⟨sameName, sameType, _⟩)
      · exact mem
      · exact (same ⟨sameName, sameType⟩).elim

theorem exportConnection_eq_ok (before : Exported connections result)
    (fits : ∀ earlier ∈ connections, earlier.fromNode.name = connection.fromNode.name →
        earlier.type = connection.type) :
    ∃ next, exportConnection result connection = .ok next := by
  simp only [exportConnection]
  split
  next missing =>
    cases found : result.get? connection.fromNode.name with
    | none => simp [found] at missing
    | some byType =>
      obtain ⟨earlier, mem, sameName, keys⟩ := before.source _ byType found
      rw [found, getD_some, get?_eq_none_iff, keys, fits earlier mem sameName] at missing
      exact (missing (mem_singleton_self _)).elim
  · exact ⟨_, rfl⟩

theorem type_eq_of_exportConnection (before : Exported connections result)
    (ok : exportConnection result connection = .ok next)
    {earlier : GraphConnection} (mem : earlier ∈ connections)
    (sameName : earlier.fromNode.name = connection.fromNode.name) :
    earlier.type = connection.type := by
  have entry := (before.entry _ _ _ _).mpr ⟨earlier, mem, rfl, rfl, rfl, rfl⟩
  obtain ⟨_, _, entryFound, _⟩ := entry
  obtain ⟨byType, found, typeFound⟩ := bind_eq_some_iff.mp entryFound
  obtain ⟨first, _, _, keys⟩ := before.source _ byType found
  have earlierKey : earlier.type ∈ byType.keys := has_iff.mp (by rw [has, typeFound]; rfl)
  have key : connection.type ∈ byType.keys := by
    by_contra absent
    rw [← get?_eq_none_iff] at absent
    rw [sameName] at found
    simp [exportConnection, found, absent] at ok
  rw [keys, mem_singleton] at earlierKey key
  rw [earlierKey, key]

theorem exported_append (before : Exported connections result)
    (ok : exportConnection result connection = .ok next) :
    Exported (connections ++ [connection]) next := by
  constructor
  · intro name byType found
    simp only [exportConnection] at ok
    split at ok
    · cases ok
    next outputs outputsFound =>
      cases ok
      rw [get?_set] at found
      split at found
      next sameName =>
        cases found
        have typeMem := has_iff.mp (show has _ connection.type = true by
            rw [has, outputsFound]
            rfl)
        rw [keys_set_of_mem _ typeMem]
        cases old : result.get? connection.fromNode.name with
        | none =>
          exact ⟨connection, by simp, sameName, rfl⟩
        | some byType =>
          obtain ⟨earlier, mem, earlierName, keys⟩ := before.source _ byType old
          exact ⟨earlier, by simp [mem], earlierName.trans sameName, keys⟩
      · obtain ⟨earlier, mem, rest⟩ := before.source name byType found
        exact ⟨earlier, by simp [mem], rest⟩
  · intro name type index target
    rw [entry_exportConnection ok, before.entry]
    simp only [mem_append, mem_singleton, or_and_right, exists_or, exists_eq_left]

/-- The export succeeds exactly when every node has connections of one type
only, and then lists all connections. -/
theorem toIConnections_eq_ok {graph : DirectedGraph}
    (oneType : OneTypePerSource graph.getConnections) :
    ∃ table, graph.toIConnections = .ok table ∧ Exported graph.getConnections table := by
  have general : ∀ (rest connections : List GraphConnection)
      (result : IConnections), Exported connections result →
      OneTypePerSource (connections ++ rest) →
      ∃ table, rest.foldlM exportConnection result = .ok table ∧
        Exported (connections ++ rest) table := by
    intro rest
    induction rest with
    | nil =>
      intro connections result before _
      exact ⟨result, rfl, by rwa [append_nil]⟩
    | cons connection rest ih =>
      intro connections result before oneType
      obtain ⟨next, ok⟩ := exportConnection_eq_ok before
        (fun earlier mem => oneType earlier (by simp [mem]) connection (by simp))
      rw [append_cons] at oneType ⊢
      rw [foldlM_cons, ok]
      exact ih _ next (exported_append before ok) oneType
  exact general graph.getConnections [] .empty exported_nil oneType

theorem oneTypePerSource_of_toIConnections {graph : DirectedGraph}
    {table : IConnections} (ok : graph.toIConnections = .ok table) :
    OneTypePerSource graph.getConnections := by
  have folded := foldlM_invariant (fun connections result => Exported connections result ∧
      OneTypePerSource connections) ?_
    ⟨exported_nil, by simp [OneTypePerSource]⟩ ok
  · exact folded.2
  · rintro connections result connection _ ⟨before, oneType⟩ next ok
    refine ⟨exported_append before ok, ?_⟩
    intro left leftMem right rightMem sameName
    have latest : ∀ earlier ∈ connections, earlier.fromNode.name = connection.fromNode.name →
          earlier.type = connection.type := fun earlier mem =>
      type_eq_of_exportConnection before ok mem
    rcases mem_append.mp leftMem with leftEarlier | leftLast
    · rcases mem_append.mp rightMem with rightEarlier | rightLast
      · exact oneType left leftEarlier right rightEarlier sameName
      · obtain rfl := mem_singleton.mp rightLast
        exact latest left leftEarlier sameName
    · obtain rfl := mem_singleton.mp leftLast
      rcases mem_append.mp rightMem with rightEarlier | rightLast
      · exact (latest right rightEarlier sameName.symm).symm
      · obtain rfl := mem_singleton.mp rightLast
        rfl

end Export

section RoundTrip

theorem setNodes_getNodes (graph : DirectedGraph) : setNodes graph.getNodes = graph.nodes := by
  rw [← nodes_addNodes_getNodes, nodes_addNodes]
  rfl

section ExportedWorkflow

variable {graph : DirectedGraph} {workflow : Workflow}
  (wellFormed : graph.WellFormed) (sameNodes : workflow.nodes = graph.nodes)
  (listed : Exported graph.getConnections workflow.connectionsBySourceNode)

include sameNodes

theorem getNode_of_mem_getNodes {node : INode} (mem : node ∈ graph.getNodes) :
    workflow.getNode node.name = some node := by
  rw [getNode, sameNodes]
  exact of_decide_eq_true (holdsNode_iff.mpr mem)

theorem name_mem_keys {node : INode} (mem : node ∈ graph.getNodes) :
    node.name ∈ workflow.nodes.keys := by
  have found := getNode_of_mem_getNodes sameNodes mem
  exact has_iff.mp (isSome_iff_exists.mpr ⟨node, found⟩)

include wellFormed listed

theorem connectionsExist_of_exported : workflow.ConnectionsExist := by
  constructor
  · intro name mem
    obtain ⟨byType, found⟩ := isSome_iff_exists.mp (has_iff.mpr mem)
    obtain ⟨connection, connectionMem, rfl, _⟩ := listed.source name byType found
    exact name_mem_keys sameNodes (wellFormed.fromMem _ connectionMem)
  · intro source mem
    obtain ⟨connection, connectionMem, _, _, _, target⟩ :=
      (listed.entry _ _ _ _).mp (mem_enumerate.mp mem)
    rw [target]
    exact name_mem_keys sameNodes (wellFormed.toMem _ connectionMem)

theorem mem_graphConnections_of_exported {connection : GraphConnection} :
    connection ∈ graphConnections workflow ↔ connection ∈ graph.getConnections := by
  have converted : ∀ other ∈ graph.getConnections, ∀ source,
      other.fromNode.name = source.fromNode → other.type = source.outputType →
      other.outputIndex = source.outputIndex →
      source.connection = exported other →
      graphConnection? workflow source = some other := by
    rintro other mem ⟨_, _, _, _⟩ rfl rfl rfl rfl
    simp [graphConnection?, exported, getNode_of_mem_getNodes sameNodes (wellFormed.fromMem _ mem),
      getNode_of_mem_getNodes sameNodes (wellFormed.toMem _ mem)]
  rw [mem_graphConnections]
  constructor
  · rintro ⟨source, mem, found⟩
    obtain ⟨other, otherMem, name, type, index, target⟩ :=
      (listed.entry _ _ _ _).mp (mem_enumerate.mp mem)
    rw [converted other otherMem source name type index target] at found
    exact some.inj found ▸ otherMem
  · intro mem
    refine ⟨{ fromNode := connection.fromNode.name
              outputType := connection.type
              outputIndex := connection.outputIndex
              connection := exported connection }, ?_,
      converted connection mem _ rfl rfl rfl rfl⟩
    exact mem_enumerate.mpr ((listed.entry _ _ _ _).mpr ⟨connection, mem, rfl, rfl, rfl, rfl⟩)

end ExportedWorkflow

theorem fromWorkflow_toWorkflow {graph : DirectedGraph} (wellFormed : graph.WellFormed)
    (oneType : OneTypePerSource graph.getConnections) (parameters : Workflow) :
    ∃ exported again, graph.toWorkflow parameters = .ok exported ∧
      fromWorkflow exported = .ok again ∧
      (∀ node, node ∈ again.getNodes ↔ node ∈ graph.getNodes) ∧
      ∀ connection, connection ∈ again.getConnections ↔ connection ∈ graph.getConnections := by
  obtain ⟨table, ok, listed⟩ := toIConnections_eq_ok oneType
  let exported : Workflow := { parameters with
    nodes := setNodes graph.getNodes
    connectionsBySourceNode := table
    nodes_named := setNodes_named graph.getNodes }
  have sameNodes : exported.nodes = graph.nodes := setNodes_getNodes graph
  have same : ∀ connection, connection ∈ graphConnections exported ↔
      connection ∈ graph.getConnections := fun _ =>
    mem_graphConnections_of_exported wellFormed sameNodes listed
  obtain ⟨again, imported, nodes, connections⟩ := fromWorkflow_exact
      (connectionsExist_of_exported wellFormed sameNodes listed)
      (fun left leftMem right rightMem => eq_of_makeKey_eq
        ((same left).mp leftMem) ((same right).mp rightMem))
  refine ⟨exported, again, ?_, imported, ?_, ?_⟩
  · rw [toWorkflow, ok]
    rfl
  · intro node
    rw [nodes, sameNodes]
    rfl
  · intro connection
    rw [connections, same]

/-- Importing a workflow loses nothing, and neither does exporting the graph
and importing it again. -/
def RoundTrips (workflow : Workflow) : Prop :=
  ∃ graph, fromWorkflow workflow = .ok graph ∧
    (∀ node, node ∈ graph.getNodes ↔ node ∈ workflow.nodes.values) ∧
    graph.getConnections.Nodup ∧
    (∀ connection, connection ∈ graph.getConnections ↔ connection ∈ graphConnections workflow) ∧
    ∀ parameters, ∃ exported again, graph.toWorkflow parameters = .ok exported ∧
      fromWorkflow exported = .ok again ∧
      (∀ node, node ∈ again.getNodes ↔ node ∈ graph.getNodes) ∧
      ∀ connection, connection ∈ again.getConnections ↔ connection ∈ graph.getConnections

/-- Every node has outputs of one connection type only. -/
def OneOutputTypePerNode (workflow : Workflow) : Prop :=
  ∀ left ∈ workflow.connectionsBySourceNode.enumerate,
    ∀ right ∈ workflow.connectionsBySourceNode.enumerate,
      left.fromNode = right.fromNode → left.outputType = right.outputType

theorem oneTypePerSource_iff {workflow : Workflow} (exist : workflow.ConnectionsExist) :
    OneTypePerSource (graphConnections workflow) ↔ OneOutputTypePerNode workflow := by
  constructor
  · intro oneType left leftMem right rightMem sameName
    obtain ⟨leftFrom, leftFound⟩ := exists_getNode (exist.fromNode_mem leftMem)
    obtain ⟨leftTo, leftToFound⟩ := exists_getNode (exist.2 left leftMem)
    obtain ⟨rightFrom, rightFound⟩ := exists_getNode (exist.fromNode_mem rightMem)
    obtain ⟨rightTo, rightToFound⟩ := exists_getNode (exist.2 right rightMem)
    have sameFrom : leftFrom = rightFrom := by
      rw [sameName, rightFound] at leftFound
      exact (some.inj leftFound).symm
    exact oneType _ (mem_graphConnections.mpr ⟨left, leftMem, by
        simp only [graphConnection?, leftFound, leftToFound, bind_some, map_some]
        rfl⟩) _
      (mem_graphConnections.mpr ⟨right, rightMem, by
        simp only [graphConnection?, rightFound, rightToFound, bind_some, map_some]
        rfl⟩) (congrArg INode.name sameFrom)
  · intro oneType left leftMem right rightMem sameName
    have origin : ∀ connection ∈ graphConnections workflow,
        ∃ source ∈ workflow.connectionsBySourceNode.enumerate,
          source.fromNode = connection.fromNode.name ∧ source.outputType = connection.type := by
      intro connection mem
      obtain ⟨source, sourceMem, converted⟩ := mem_graphConnections.mp mem
      obtain ⟨fromNode, fromFound, rest⟩ := bind_eq_some_iff.mp converted
      obtain ⟨toNode, _, rfl⟩ := map_eq_some_iff.mp rest
      exact ⟨source, sourceMem, (getNode_name fromFound).symm, rfl⟩
    obtain ⟨leftSource, leftIn, leftName, leftType⟩ := origin left leftMem
    obtain ⟨rightSource, rightIn, rightName, rightType⟩ := origin right rightMem
    rw [← leftType, ← rightType]
    exact oneType leftSource leftIn rightSource rightIn
      (leftName.trans (sameName.trans rightName.symm))

def splitWorkflow (outputs : INodeConnections) : Workflow :=
  { nodes := setNodes [{ name := "split-0" }, { name := "left" }, { name := "right" }]
    connectionsBySourceNode := OrderedMap.empty.set "split-0" outputs
    nodes_named := setNodes_named _ }

def twoOutputs : Workflow :=
  splitWorkflow (OrderedMap.empty.set .main
    [some [{ node := "left", type := .main, index := 0 }], none,
      some [{ node := "right", type := .main, index := 1 }]])

def twoTypes : Workflow :=
  splitWorkflow ((OrderedMap.empty.set .main
    [some [{ node := "left", type := .main, index := 0 }]]).set .aiTool
      [some [{ node := "right", type := .aiTool, index := 0 }]])

end RoundTrip

end DirectedGraph

end N8n
