import N8n.PartialExecution.DirectedGraph

/-!
# Incoming data of a start node

`getIncomingDataFromAnyRun` looks for the first run of a node which produced
items on an output.  `getSourceDataGroups` divides the connections into a
node into groups with one connection for each input, preferring connections
whose source has data.

A group is built by counting the input index up from the smallest index that
is left.  So the inputs of a group are consecutive, but a group need not
start at the first input.
-/

namespace N8n

open List

section

variable (runData : IRunData) (nodeName : String)

def getIncomingData (runIndex : Nat) (connectionType : NodeConnectionType) (outputIndex : Nat) :
    Except ExecutionError (Option (List INodeExecutionData)) :=
  match ((runData.get? nodeName).bind (·[runIndex]?)).bind ITaskData.data with
  | none => .ok none
  | some data =>
    match data.get? connectionType with
    | none => .error .typeError
    | some outputs => .ok (outputs.at' outputIndex).value?

def getRunIndexLength : Nat :=
  ((runData.get? nodeName).map List.length).getD 0

def firstIncomingData (runData : IRunData) (nodeName : String)
    (connectionType : NodeConnectionType) (outputIndex : Nat) :
    List Nat → Except ExecutionError (Option (List INodeExecutionData × Nat))
  | [] => .ok none
  | runIndex :: later => do
    match ← getIncomingData runData nodeName runIndex connectionType outputIndex with
    | some (item :: items) => return some (item :: items, runIndex)
    | _ => firstIncomingData runData nodeName connectionType outputIndex later

def getIncomingDataFromAnyRun (connectionType : NodeConnectionType) (outputIndex : Nat) :
    Except ExecutionError (Option (List INodeExecutionData × Nat)) :=
  firstIncomingData runData nodeName connectionType outputIndex
    (List.range (getRunIndexLength runData nodeName))

end

structure SourceConnectionGroup where
  complete : Bool := true
  connections : List GraphConnection := []
deriving DecidableEq

def newGroup : SourceConnectionGroup := {}

section

variable (localeCompare : String → String → Int)

/-- `sortByInputIndexThenByName`, as the relation "is not sorted behind".
`localeCompare` is the comparison of the host's locale. -/
def sortByInputIndexThenByName (connection1 connection2 : GraphConnection) : Prop :=
  if connection1.inputIndex = connection2.inputIndex then
    localeCompare connection1.fromNode.name connection2.fromNode.name ≤ 0
  else connection1.inputIndex - connection2.inputIndex ≤ 0

instance (localeCompare : String → String → Int) :
    DecidableRel (sortByInputIndexThenByName localeCompare) :=
  fun connection1 connection2 => by
    unfold sortByInputIndexThenByName
    infer_instance

/-- `Math.min` over the input indexes of both lists, which are not both
empty. -/
def minInputIndex (withData withoutData : List GraphConnection) : Int :=
  ((withData ++ withoutData).map (·.inputIndex)).min?.getD 0

/-- The loop of `getSourceDataGroups`.  Each connection needs at most one
pass that takes it and one that starts a new group before it. -/
def groupConnections : Nat → List GraphConnection → List GraphConnection →
      SourceConnectionGroup → Int → List SourceConnectionGroup
  | 0, _, _, currentGroup, _ => [currentGroup]
  | fuel + 1, withData, withoutData, currentGroup, currentInputIndex =>
    if withData = [] ∧ withoutData = [] then [currentGroup]
    else
      match withData.find? (·.inputIndex = currentInputIndex + 1) with
      | some connection =>
        groupConnections fuel (withData.eraseP (·.inputIndex = currentInputIndex + 1)) withoutData
          { currentGroup with
            connections := currentGroup.connections ++ [connection] }
          (currentInputIndex + 1)
      | none =>
        match withoutData.find? (·.inputIndex = currentInputIndex + 1) with
        | some connection =>
          groupConnections fuel withData (withoutData.eraseP (·.inputIndex = currentInputIndex + 1))
            { complete := false
              connections := currentGroup.connections ++ [connection] }
            (currentInputIndex + 1)
        | none =>
          currentGroup :: groupConnections fuel withData withoutData
            newGroup (minInputIndex withData withoutData - 1)

/-- `runData[name] || pinnedData[name]`, where an empty array counts. -/
def hasData (runData : IRunData) (pinnedData : IPinData) (connection : GraphConnection) : Bool :=
  runData.has connection.fromNode.name || pinnedData.has connection.fromNode.name

def getSourceDataGroups (graph : DirectedGraph) (node : INode) (runData : IRunData)
    (pinnedData : IPinData) : List SourceConnectionGroup :=
  let connections := graph.getConnectionsTo node
  let connectionsWithData := connections.filter (hasData runData pinnedData)
  let connectionsWithoutData := connections.filter fun connection =>
    !hasData runData pinnedData connection && decide connection.IsMain
  if connectionsWithData = [] ∧ connectionsWithoutData = [] then []
  else
    let sortedConnectionsWithData := connectionsWithData.insertionSort
      (sortByInputIndexThenByName localeCompare)
    let sortedConnectionsWithoutData := connectionsWithoutData.insertionSort
      (sortByInputIndexThenByName localeCompare)
    groupConnections (2 * connections.length) sortedConnectionsWithData
      sortedConnectionsWithoutData newGroup
      (minInputIndex sortedConnectionsWithData sortedConnectionsWithoutData - 1)

end

section IncomingData

variable {runData : IRunData} {nodeName : String}
  {connectionType : NodeConnectionType} {outputIndex : Nat}

/-- `data` is the output of a run, and no earlier run has items on it. -/
structure FirstOutput (runData : IRunData) (nodeName : String)
    (connectionType : NodeConnectionType) (outputIndex : Nat)
    (data : List INodeExecutionData) (runIndex : Nat) : Prop where
  nonempty : data ≠ []
  produced : getIncomingData runData nodeName runIndex connectionType outputIndex = .ok (some data)
  first : ∀ earlier < runIndex, ∀ other,
    getIncomingData runData nodeName earlier connectionType outputIndex =
      .ok (some other) → other = []

def NoOutput (runData : IRunData) (nodeName : String)
    (connectionType : NodeConnectionType) (outputIndex : Nat) : Prop :=
  ∀ runIndex data, getIncomingData runData nodeName runIndex connectionType outputIndex =
      .ok (some data) → data = []

theorem firstIncomingData_spec {start count : Nat} {found : Option (List INodeExecutionData × Nat)}
    (ok : firstIncomingData runData nodeName connectionType outputIndex
      (List.range' start count) = .ok found) :
    match found with
    | some (data, runIndex) =>
      data ≠ [] ∧ getIncomingData runData nodeName runIndex connectionType
        outputIndex = .ok (some data) ∧
      ∀ earlier, start ≤ earlier → earlier < runIndex → ∀ other,
        getIncomingData runData nodeName earlier connectionType outputIndex =
          .ok (some other) → other = []
    | none =>
      ∀ index, start ≤ index → index < start + count → ∀ other,
        getIncomingData runData nodeName index connectionType outputIndex =
          .ok (some other) → other = [] := by
  induction count generalizing start with
  | zero =>
    cases ok
    intro index above below
    omega
  | succ count ih =>
    obtain ⟨items, incoming, ok⟩ := Except.bind_eq_ok_iff.mp ok
    have nothingFirst : items = none ∨ items = some [] →
        ∀ other, getIncomingData runData nodeName start connectionType
          outputIndex = .ok (some other) → other = [] := by
      rintro (rfl | rfl) other same
      · rw [incoming] at same
        cases same
      · rw [incoming] at same
        exact (Option.some.inj (Except.ok.inj same)).symm
    have continued : (items = none ∨ items = some []) →
        firstIncomingData runData nodeName connectionType outputIndex
          (List.range' (start + 1) count) = .ok found := by
      rintro (rfl | rfl) <;> exact ok
    by_cases skipped : items = none ∨ items = some []
    · have later := ih (continued skipped)
      have here := nothingFirst skipped
      cases found with
      | none =>
        intro index above below
        rcases above.eq_or_lt with rfl | above
        · exact here
        · exact later index above (by omega)
      | some pair =>
        obtain ⟨nonempty, produced, first⟩ := later
        refine ⟨nonempty, produced, fun earlier above below => ?_⟩
        rcases above.eq_or_lt with rfl | above
        · exact here
        · exact first earlier above below
    · match items, skipped, ok with
      | none, skipped, _ => exact absurd (.inl rfl) skipped
      | some [], skipped, _ => exact absurd (.inr rfl) skipped
      | some (item :: rest), _, ok =>
        cases ok
        exact ⟨by simp, incoming, fun earlier above below => by omega⟩

theorem getIncomingData_none_of_le {runIndex : Nat}
    (outside : getRunIndexLength runData nodeName ≤ runIndex) :
    getIncomingData runData nodeName runIndex connectionType outputIndex = .ok none := by
  rw [getIncomingData]
  cases runs : runData.get? nodeName with
  | none => rfl
  | some taskData =>
    rw [getRunIndexLength, runs] at outside
    rw [Option.bind_some, getElem?_eq_none (by simpa using outside)]
    rfl

theorem firstOutput_of_getIncomingDataFromAnyRun {data : List INodeExecutionData} {runIndex : Nat}
    (ok : getIncomingDataFromAnyRun runData nodeName connectionType
      outputIndex = .ok (some (data, runIndex))) :
    FirstOutput runData nodeName connectionType outputIndex data runIndex := by
  rw [getIncomingDataFromAnyRun, range_eq_range'] at ok
  obtain ⟨nonempty, produced, first⟩ := firstIncomingData_spec ok
  exact
    { nonempty := nonempty
      produced := produced
      first := fun earlier below => first earlier (Nat.zero_le earlier) below }

theorem noOutput_of_getIncomingDataFromAnyRun
    (ok : getIncomingDataFromAnyRun runData nodeName connectionType outputIndex = .ok none) :
    NoOutput runData nodeName connectionType outputIndex := by
  rw [getIncomingDataFromAnyRun, range_eq_range'] at ok
  intro runIndex data produced
  by_cases inside : runIndex < getRunIndexLength runData nodeName
  · exact firstIncomingData_spec ok runIndex (Nat.zero_le _) (by omega) data produced
  · rw [getIncomingData_none_of_le (by omega)] at produced
    cases produced

end IncomingData

section Grouping

/-- The connection of each position of a list leads to the input that many
places behind the start. -/
def ConsecutiveFrom (start : Int) (connections : List GraphConnection) : Prop :=
  ∀ (position : Nat) (connection : GraphConnection),
    connections[position]? = some connection → connection.inputIndex = start + position

variable {connections : List GraphConnection}

theorem ConsecutiveFrom.snoc {start : Int}
    {connection : GraphConnection} (consecutive : ConsecutiveFrom start connections)
    (next : connection.inputIndex = start + connections.length) :
    ConsecutiveFrom start (connections ++ [connection]) := by
  intro position other found
  rcases Nat.lt_trichotomy position connections.length with
    before | rfl | behind
  · rw [getElem?_append_left before] at found
    exact consecutive position other found
  · rw [getElem?_concat_length] at found
    cases found
    exact next
  · rw [getElem?_eq_none (by simp; omega)] at found
    cases found

theorem minInputIndex_attained {withData withoutData : List GraphConnection}
    (nonempty : ¬(withData = [] ∧ withoutData = [])) :
    ∃ connection ∈ withData ++ withoutData,
      connection.inputIndex = minInputIndex withData withoutData := by
  have indexes : (withData ++ withoutData).map (·.inputIndex) ≠ [] := by
    simpa using nonempty
  obtain ⟨least, found⟩ := Option.ne_none_iff_exists'.mp (mt min?_eq_none_iff.mp indexes)
  obtain ⟨connection, mem, index⟩ := mem_map.mp (min?_mem found)
  exact ⟨connection, mem, by rw [index, minInputIndex, found]; rfl⟩

/-- What the loop knows before a pass. -/
structure GroupingInvariant (withData withoutData : List GraphConnection)
    (currentGroup : SourceConnectionGroup) (currentInputIndex : Int)
    (isSource : GraphConnection → Prop) : Prop where
  consecutive : ∃ start, ConsecutiveFrom start currentGroup.connections ∧
    currentInputIndex + 1 = start + currentGroup.connections.length
  complete : currentGroup.complete = true →
    ∀ connection ∈ currentGroup.connections, isSource connection
  sources : ∀ connection ∈ withData, isSource connection
  progress : currentGroup.connections ≠ [] ∨ ∃ connection ∈ withData ++ withoutData,
      connection.inputIndex = currentInputIndex + 1

structure ClosedGroup (isSource : GraphConnection → Prop)
    (group : SourceConnectionGroup) : Prop where
  nonempty : group.connections ≠ []
  consecutive : ∃ start, ConsecutiveFrom start group.connections
  complete : group.complete = true → ∀ connection ∈ group.connections, isSource connection

variable {withData withoutData : List GraphConnection}
  {currentGroup : SourceConnectionGroup} {currentInputIndex : Int}
  {isSource : GraphConnection → Prop}

theorem GroupingInvariant.closed (inv : GroupingInvariant withData withoutData currentGroup
      currentInputIndex isSource)
    (nonempty : currentGroup.connections ≠ []) :
    ClosedGroup isSource currentGroup := by
  obtain ⟨start, consecutive, _⟩ := inv.consecutive
  exact
    { nonempty := nonempty
      consecutive := ⟨start, consecutive⟩
      complete := inv.complete }

variable {connection : GraphConnection}

theorem GroupingInvariant.takeWithData
    (inv : GroupingInvariant withData withoutData currentGroup currentInputIndex isSource)
    (found : withData.find? (·.inputIndex = currentInputIndex + 1) = some connection) :
    GroupingInvariant (withData.eraseP (·.inputIndex = currentInputIndex + 1)) withoutData
      { currentGroup with
        connections := currentGroup.connections ++ [connection] }
      (currentInputIndex + 1) isSource := by
  have index : connection.inputIndex = currentInputIndex + 1 := by
    simpa using find?_some found
  have mem := mem_of_find?_eq_some found
  obtain ⟨start, consecutive, next⟩ := inv.consecutive
  refine
    { consecutive := ⟨start, consecutive.snoc (index.trans next), ?_⟩
      complete := ?_
      sources := fun other otherMem =>
        inv.sources other (eraseP_subset otherMem)
      progress := .inl (by simp) }
  · rw [next, length_append, length_singleton]
    omega
  · intro complete other otherMem
    rcases mem_append.mp otherMem with before | last
    · exact inv.complete complete other before
    · obtain rfl := mem_singleton.mp last
      exact inv.sources other mem

theorem GroupingInvariant.takeWithoutData
    (inv : GroupingInvariant withData withoutData currentGroup currentInputIndex isSource)
    (found : withoutData.find? (·.inputIndex = currentInputIndex + 1) = some connection) :
    GroupingInvariant withData (withoutData.eraseP (·.inputIndex = currentInputIndex + 1))
      { complete := false
        connections := currentGroup.connections ++ [connection] }
      (currentInputIndex + 1) isSource := by
  have index : connection.inputIndex = currentInputIndex + 1 := by
    simpa using find?_some found
  obtain ⟨start, consecutive, next⟩ := inv.consecutive
  refine
    { consecutive := ⟨start, consecutive.snoc (index.trans next), ?_⟩
      complete := nofun
      sources := inv.sources
      progress := .inl (by simp) }
  rw [next, length_append, length_singleton]
  omega

theorem GroupingInvariant.restart (sources : ∀ connection ∈ withData, isSource connection)
    (nonempty : ¬(withData = [] ∧ withoutData = [])) :
    GroupingInvariant withData withoutData newGroup
      (minInputIndex withData withoutData - 1) isSource := by
  obtain ⟨connection, mem, index⟩ := minInputIndex_attained nonempty
  exact
    { consecutive := ⟨minInputIndex withData withoutData, by simp [ConsecutiveFrom, newGroup],
          by simp [newGroup]⟩
      complete := by simp [newGroup]
      sources := sources
      progress := .inr ⟨connection, mem, by rw [index]; omega⟩ }

/-- The passes the loop still needs: one for each connection, and one more to
start a group unless the next input has a connection. -/
def neededPasses (withData withoutData : List GraphConnection) (currentInputIndex : Int) : Nat :=
  2 * (withData ++ withoutData).length +
    if ∃ connection ∈ withData ++ withoutData,
      connection.inputIndex = currentInputIndex + 1 then 0 else 1

theorem neededPasses_of_found {index : Int} (found : ∃ connection ∈ withData ++ withoutData,
      connection.inputIndex = index + 1) :
    neededPasses withData withoutData index = 2 * (withData ++ withoutData).length := by
  rw [neededPasses, if_pos found, Nat.add_zero]

theorem neededPasses_le (withData withoutData : List GraphConnection) (index : Int) :
    neededPasses withData withoutData index ≤ 2 * (withData ++ withoutData).length + 1 := by
  unfold neededPasses
  split <;> omega

theorem neededPasses_pos (withData withoutData : List GraphConnection)
    (index : Int) : 0 < neededPasses withData withoutData index := by
  unfold neededPasses
  split
  next found =>
    obtain ⟨connection, mem, _⟩ := found
    have := length_pos_of_mem mem
    omega
  · omega

theorem perm_cons_eraseP {test : GraphConnection → Bool}
    (found : connections.find? test = some connection) :
    (connection :: connections.eraseP test).Perm connections := by
  induction connections with
  | nil => cases found
  | cons first rest ih =>
    by_cases holds : test first = true
    · rw [find?_cons_of_pos holds] at found
      cases found
      rw [eraseP_cons_of_pos holds]
    · rw [find?_cons_of_neg holds] at found
      rw [eraseP_cons_of_neg holds]
      exact (List.Perm.swap first connection _).trans ((ih found).cons first)

theorem neededPasses_takeWithData (withoutData : List GraphConnection)
    (found : withData.find? (·.inputIndex = currentInputIndex + 1) = some connection) :
    neededPasses (withData.eraseP (·.inputIndex = currentInputIndex + 1))
        withoutData (currentInputIndex + 1) + 1 ≤
      neededPasses withData withoutData currentInputIndex := by
  have shorter := (perm_cons_eraseP found).length_eq
  have present := neededPasses_of_found
    ⟨connection, mem_append_left withoutData (mem_of_find?_eq_some found),
      by simpa using find?_some found⟩
  have later := neededPasses_le (withData.eraseP (·.inputIndex = currentInputIndex + 1))
    withoutData (currentInputIndex + 1)
  simp only [length_append, length_cons] at present later shorter
  omega

theorem neededPasses_takeWithoutData (withData : List GraphConnection)
    (found : withoutData.find? (·.inputIndex = currentInputIndex + 1) = some connection) :
    neededPasses withData (withoutData.eraseP (·.inputIndex = currentInputIndex + 1))
        (currentInputIndex + 1) + 1 ≤
      neededPasses withData withoutData currentInputIndex := by
  have shorter := (perm_cons_eraseP found).length_eq
  have present := neededPasses_of_found
    ⟨connection, mem_append_right withData (mem_of_find?_eq_some found),
      by simpa using find?_some found⟩
  have later := neededPasses_le withData (withoutData.eraseP (·.inputIndex = currentInputIndex + 1))
    (currentInputIndex + 1)
  simp only [length_append, length_cons] at present later shorter
  omega

theorem absent_of_notFound (notFound : withData.find? (·.inputIndex = currentInputIndex + 1) = none)
    (alsoNotFound : withoutData.find? (·.inputIndex = currentInputIndex + 1) = none) :
    ¬∃ connection ∈ withData ++ withoutData, connection.inputIndex = currentInputIndex + 1 := by
  rintro ⟨connection, mem, index⟩
  rcases mem_append.mp mem with mem | mem
  · exact find?_eq_none.mp notFound connection mem (by simpa using index)
  · exact find?_eq_none.mp alsoNotFound connection mem (by simpa using index)

theorem neededPasses_restart (nonempty : ¬(withData = [] ∧ withoutData = []))
    (absent : ¬∃ connection ∈ withData ++ withoutData,
      connection.inputIndex = currentInputIndex + 1) :
    neededPasses withData withoutData (minInputIndex withData withoutData - 1) + 1 ≤
      neededPasses withData withoutData currentInputIndex := by
  obtain ⟨connection, mem, index⟩ := minInputIndex_attained nonempty
  have restarted : neededPasses withData withoutData
      (minInputIndex withData withoutData - 1) = 2 * (withData ++ withoutData).length :=
    neededPasses_of_found ⟨connection, mem, by rw [index]; omega⟩
  rw [restarted, neededPasses, if_neg absent]

theorem groupConnections_spec {fuel : Nat}
    (inv : GroupingInvariant withData withoutData currentGroup currentInputIndex isSource)
    (enough : neededPasses withData withoutData currentInputIndex ≤ fuel) :
    (∀ group ∈ groupConnections fuel withData withoutData currentGroup
        currentInputIndex, ClosedGroup isSource group) ∧
      ((groupConnections fuel withData withoutData currentGroup
        currentInputIndex).flatMap (·.connections)).Perm
        (currentGroup.connections ++ (withData ++ withoutData)) := by
  induction fuel generalizing withData withoutData currentGroup currentInputIndex with
  | zero =>
    have := neededPasses_pos withData withoutData currentInputIndex
    omega
  | succ fuel ih =>
    rw [groupConnections]
    split
    next empty =>
      obtain ⟨rfl, rfl⟩ := empty
      have nonempty : currentGroup.connections ≠ [] := by
        simpa using inv.progress
      refine ⟨?_, by simp⟩
      intro group mem
      obtain rfl := mem_singleton.mp mem
      exact inv.closed nonempty
    next nonempty =>
      split
      next connection found =>
        have taken := perm_cons_eraseP found
        have later := neededPasses_takeWithData withoutData found
        obtain ⟨closed, shared⟩ := ih (inv.takeWithData found) (by omega)
        refine ⟨closed, shared.trans ?_⟩
        simp only [append_assoc, singleton_append]
        exact (taken.append_right withoutData).append_left _
      next notFound =>
        split
        next connection found =>
          have taken := perm_cons_eraseP found
          have later := neededPasses_takeWithoutData withData found
          obtain ⟨closed, shared⟩ := ih (inv.takeWithoutData found) (by omega)
          refine ⟨closed, shared.trans ?_⟩
          simp only [append_assoc, singleton_append]
          exact (perm_middle.symm.trans (taken.append_left withData)).append_left _
        next alsoNotFound =>
          have absent := absent_of_notFound notFound alsoNotFound
          have restarted := GroupingInvariant.restart inv.sources nonempty
          have needed := neededPasses_restart nonempty absent
          obtain ⟨closed, shared⟩ := ih restarted (by omega)
          constructor
          · intro group mem
            rcases mem_cons.mp mem with rfl | mem
            · exact inv.closed (inv.progress.resolve_right absent)
            · exact closed group mem
          · exact shared.append_left _

end Grouping

section Groups

variable {localeCompare : String → String → Int} {graph : DirectedGraph}
  {node : INode} {runData : IRunData} {pinnedData : IPinData}

/-- The connections `getSourceDataGroups` shares out. -/
def groupedConnections (graph : DirectedGraph) (node : INode)
    (runData : IRunData) (pinnedData : IPinData) : List GraphConnection :=
  (graph.getConnectionsTo node).filter fun connection =>
    hasData runData pinnedData connection || decide connection.IsMain

theorem withData_append_withoutData_perm (graph : DirectedGraph)
    (node : INode) (runData : IRunData) (pinnedData : IPinData) :
    ((graph.getConnectionsTo node).filter (hasData runData pinnedData) ++
      (graph.getConnectionsTo node).filter (fun connection =>
        !hasData runData pinnedData connection && decide connection.IsMain)).Perm
      (groupedConnections graph node runData pinnedData) := by
  have split := filter_append_perm (hasData runData pinnedData)
    (groupedConnections graph node runData pinnedData)
  refine List.Perm.trans (List.Perm.of_eq ?_) split
  simp only [groupedConnections, filter_filter]
  congr 1
  · refine filter_congr fun connection _ => ?_
    cases hasData runData pinnedData connection <;> simp
  · refine filter_congr fun connection _ => ?_
    cases hasData runData pinnedData connection <;> simp

theorem getSourceDataGroups_spec (localeCompare : String → String → Int)
    (graph : DirectedGraph) (node : INode) (runData : IRunData)
    (pinnedData : IPinData) :
    (∀ group ∈ getSourceDataGroups localeCompare graph node runData pinnedData,
      ClosedGroup (fun connection =>
        hasData runData pinnedData connection = true) group) ∧
      ((getSourceDataGroups localeCompare graph node runData
        pinnedData).flatMap (·.connections)).Perm
        (groupedConnections graph node runData pinnedData) := by
  have shared := withData_append_withoutData_perm graph node runData pinnedData
  rw [getSourceDataGroups]
  split
  next empty =>
    rw [empty.1, empty.2] at shared
    exact ⟨by simp, by simpa using shared⟩
  next nonempty =>
    have withPerm := perm_insertionSort (sortByInputIndexThenByName localeCompare)
      ((graph.getConnectionsTo node).filter (hasData runData pinnedData))
    have withoutPerm := perm_insertionSort (sortByInputIndexThenByName localeCompare)
      ((graph.getConnectionsTo node).filter fun connection =>
        !hasData runData pinnedData connection && decide connection.IsMain)
    generalize ((graph.getConnectionsTo node).filter (hasData runData pinnedData)).insertionSort
        (sortByInputIndexThenByName localeCompare) = sortedWith at withPerm ⊢
    generalize ((graph.getConnectionsTo node).filter fun connection =>
      !hasData runData pinnedData connection && decide connection.IsMain).insertionSort
          (sortByInputIndexThenByName localeCompare) = sortedWithout
      at withoutPerm ⊢
    have sortedNonempty : ¬(sortedWith = [] ∧ sortedWithout = []) := by
      rintro ⟨rfl, rfl⟩
      exact nonempty ⟨withPerm.nil_eq.symm, withoutPerm.nil_eq.symm⟩
    have together := withPerm.append withoutPerm
    have sources : ∀ connection ∈ sortedWith, hasData runData pinnedData connection = true := by
      intro connection mem
      exact (mem_filter.mp (withPerm.mem_iff.mp mem)).2
    have invariant := GroupingInvariant.restart sources sortedNonempty
    have enough : neededPasses sortedWith sortedWithout
        (minInputIndex sortedWith sortedWithout - 1) ≤
          2 * (graph.getConnectionsTo node).length := by
      obtain ⟨connection, mem, index⟩ := minInputIndex_attained sortedNonempty
      rw [neededPasses_of_found ⟨connection, mem, by rw [index]; omega⟩]
      have := (together.trans shared).length_eq
      have := length_filter_le (fun connection =>
        hasData runData pinnedData connection || decide connection.IsMain)
        (graph.getConnectionsTo node)
      simp only [groupedConnections] at *
      omega
    obtain ⟨closed, perm⟩ := groupConnections_spec invariant enough
    exact ⟨closed, perm.trans (together.trans shared)⟩

theorem mem_getConnectionsTo_of_mem_group {group : SourceConnectionGroup}
    (groupMem : group ∈ getSourceDataGroups localeCompare graph node runData pinnedData)
    {connection : GraphConnection} (mem : connection ∈ group.connections) :
    connection ∈ graph.getConnectionsTo node :=
  (mem_filter.mp ((getSourceDataGroups_spec localeCompare graph node runData
      pinnedData).2.mem_iff.mp
      (mem_flatMap.mpr ⟨group, groupMem, mem⟩))).1

end Groups

end N8n
