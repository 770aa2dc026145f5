import N8n.PartialExecution.SourceDataGroups

/-!
# Maximal groups of source data

The first group takes, from the smallest index on, the first connection of
each index, those with data first, up to the first index without a
connection.  So it has the data of all connected inputs exactly if the indexes
up to each of them are without a gap and no connection of another type comes
before theirs.
-/

namespace N8n

open List

section Loop

variable {withData withoutData : List GraphConnection}
  {currentGroup : SourceConnectionGroup} {currentInputIndex : Int}

section

variable (withData withoutData : List GraphConnection)

def pick (inputIndex : Int) : Option GraphConnection :=
  (withData.find? (·.inputIndex = inputIndex)).or (withoutData.find? (·.inputIndex = inputIndex))

theorem find?_eraseP_of_ne {connections : List GraphConnection}
    {index other : Int} (ne : index ≠ other) :
    (connections.eraseP (·.inputIndex = other)).find? (·.inputIndex = index) =
      connections.find? (·.inputIndex = index) := by
  induction connections with
  | nil => rfl
  | cons connection rest ih =>
    by_cases erased : connection.inputIndex = other
    · rw [eraseP_cons_of_pos (by simpa using erased),
        find?_cons_of_neg (by simpa [erased] using ne.symm)]
    · rw [eraseP_cons_of_neg (by simpa using erased)]
      by_cases here : connection.inputIndex = index
      · rw [find?_cons_of_pos (by simpa using here), find?_cons_of_pos (by simpa using here)]
      · rw [find?_cons_of_neg (by simpa using here), find?_cons_of_neg (by simpa using here), ih]

/-- The index is behind the current one and no index up to it lacks a
connection. -/
def WithoutGap (currentInputIndex inputIndex : Int) : Prop :=
  currentInputIndex < inputIndex ∧ ∀ index, currentInputIndex < index → index ≤ inputIndex →
      (pick withData withoutData index).isSome = true

end

theorem pick_isSome_iff {inputIndex : Int} : (pick withData withoutData inputIndex).isSome = true ↔
      ∃ connection ∈ withData ++ withoutData, connection.inputIndex = inputIndex := by
  simp only [pick, Option.isSome_or, Bool.or_eq_true, find?_isSome,
    decide_eq_true_eq, mem_append, or_and_right, exists_or]

variable {connection : GraphConnection}

theorem inputIndex_of_pick {inputIndex : Int}
    (picked : pick withData withoutData inputIndex = some connection) :
    connection.inputIndex = inputIndex := by
  rw [pick, Option.or_eq_some_iff] at picked
  rcases picked with found | ⟨_, found⟩
  · simpa using find?_some found
  · simpa using find?_some found

def Added (withData withoutData : List GraphConnection)
    (currentInputIndex : Int) (connection : GraphConnection) : Prop :=
  ∃ inputIndex, WithoutGap withData withoutData currentInputIndex inputIndex ∧
    pick withData withoutData inputIndex = some connection

theorem added_iff {nextWithData nextWithoutData : List GraphConnection} {taken : GraphConnection}
    (picked : pick withData withoutData (currentInputIndex + 1) = some taken)
    (same : ∀ index, currentInputIndex + 1 < index →
      pick nextWithData nextWithoutData index = pick withData withoutData index) :
    Added withData withoutData currentInputIndex connection ↔ connection = taken ∨
        Added nextWithData nextWithoutData (currentInputIndex + 1) connection := by
  constructor
  · rintro ⟨inputIndex, ⟨behind, filled⟩, found⟩
    rcases (show currentInputIndex + 1 ≤ inputIndex by omega).eq_or_lt with
      rfl | later
    · rw [picked] at found
      exact .inl (Option.some.inj found).symm
    · right
      refine ⟨inputIndex, ⟨later, fun index above below => ?_⟩, ?_⟩
      · rw [same index above]
        exact filled index (by omega) below
      · rw [same inputIndex later]
        exact found
  · rintro (rfl | ⟨inputIndex, ⟨behind, filled⟩, found⟩)
    · refine ⟨currentInputIndex + 1, ⟨by omega, fun index above below => ?_⟩, picked⟩
      obtain rfl : index = currentInputIndex + 1 := by omega
      rw [picked]
      rfl
    · refine ⟨inputIndex, ⟨by omega, fun index above below => ?_⟩, ?_⟩
      · rcases (show currentInputIndex + 1 ≤ index by omega).eq_or_lt with
          rfl | later
        · rw [picked]
          rfl
        · rw [← same index later]
          exact filled index later below
      · rw [← same inputIndex behind]
        exact found

theorem not_added_of_pick_eq_none
    (nothing : pick withData withoutData (currentInputIndex + 1) = none) :
    ¬ Added withData withoutData currentInputIndex connection := by
  rintro ⟨inputIndex, ⟨behind, filled⟩, _⟩
  have next := filled (currentInputIndex + 1) (by omega) (by omega)
  rw [nothing] at next
  cases next

theorem groupConnections_eq_cons {fuel : Nat} (enough : (withData ++ withoutData).length < fuel) :
    ∃ group groups, groupConnections fuel withData withoutData currentGroup
        currentInputIndex = group :: groups ∧
      ∀ connection, connection ∈ group.connections ↔ connection ∈ currentGroup.connections ∨
          Added withData withoutData currentInputIndex connection := by
  induction fuel generalizing withData withoutData currentGroup currentInputIndex with
  | zero => omega
  | succ fuel ih =>
    rw [groupConnections]
    split
    next empty =>
      obtain ⟨rfl, rfl⟩ := empty
      refine ⟨currentGroup, [], rfl, fun connection => ?_⟩
      have nothing : ¬ Added [] [] currentInputIndex connection := not_added_of_pick_eq_none rfl
      simp [nothing]
    next nonempty =>
      cases found : withData.find? (·.inputIndex = currentInputIndex + 1) with
      | some taken =>
        have shorter := (perm_cons_eraseP found).length_eq
        simp only [length_cons] at shorter
        have grown : ∀ connection, Added withData withoutData currentInputIndex connection ↔
              connection = taken ∨ Added (withData.eraseP (·.inputIndex = currentInputIndex + 1))
                withoutData (currentInputIndex + 1) connection := by
          intro connection
          apply added_iff
          · rw [pick, found]
            rfl
          · intro index later
            rw [pick, pick, find?_eraseP_of_ne (by omega)]
        obtain ⟨group, groups, closed, members⟩ := @ih
          (withData.eraseP (·.inputIndex = currentInputIndex + 1))
          withoutData
          { currentGroup with
            connections := currentGroup.connections ++ [taken] }
          (currentInputIndex + 1) (by
            simp only [length_append] at enough ⊢
            omega)
        refine ⟨group, groups, closed, fun connection => ?_⟩
        rw [members, grown, mem_append, mem_singleton, or_assoc]
      | none =>
        cases alsoFound : withoutData.find? (·.inputIndex = currentInputIndex + 1) with
        | some taken =>
          have shorter := (perm_cons_eraseP alsoFound).length_eq
          simp only [length_cons] at shorter
          have grown : ∀ connection, Added withData withoutData currentInputIndex connection ↔
                connection = taken ∨ Added withData (withoutData.eraseP
                    (·.inputIndex = currentInputIndex + 1))
                  (currentInputIndex + 1) connection := by
            intro connection
            apply added_iff
            · rw [pick, found]
              exact alsoFound
            · intro index later
              rw [pick, pick, find?_eraseP_of_ne (by omega)]
          obtain ⟨group, groups, closed, members⟩ := @ih withData
            (withoutData.eraseP (·.inputIndex = currentInputIndex + 1))
            { complete := false
              connections := currentGroup.connections ++ [taken] }
            (currentInputIndex + 1) (by
              simp only [length_append] at enough ⊢
              omega)
          refine ⟨group, groups, closed, fun connection => ?_⟩
          rw [members, grown, mem_append, mem_singleton, or_assoc]
        | none =>
          refine ⟨currentGroup, _, rfl, fun connection => ?_⟩
          have nothing : ¬ Added withData withoutData currentInputIndex connection :=
            not_added_of_pick_eq_none (by rw [pick, found, alsoFound]; rfl)
          simp [nothing]

theorem complete_groupConnections {isSource : GraphConnection → Prop}
    {fuel : Nat} (sources : ∀ connection ∈ withData, isSource connection)
    (others : ∀ connection ∈ withoutData, ¬ isSource connection)
    (current : currentGroup.complete = true ↔
      ∀ connection ∈ currentGroup.connections, isSource connection) :
    ∀ group ∈ groupConnections fuel withData withoutData currentGroup currentInputIndex,
      (group.complete = true ↔ ∀ connection ∈ group.connections, isSource connection) := by
  induction fuel generalizing withData withoutData currentGroup currentInputIndex with
  | zero =>
    intro group mem
    rw [mem_singleton.mp mem]
    exact current
  | succ fuel ih =>
    rw [groupConnections]
    split
    next empty =>
      intro group mem
      rw [mem_singleton.mp mem]
      exact current
    next nonempty =>
      cases found : withData.find? (·.inputIndex = currentInputIndex + 1) with
      | some taken =>
        have isTaken := sources taken (mem_of_find?_eq_some found)
        apply ih
        · intro connection mem
          exact sources connection (eraseP_subset mem)
        · exact others
        · simp [current, or_imp, forall_and, isTaken]
      | none =>
        cases alsoFound : withoutData.find? (·.inputIndex = currentInputIndex + 1) with
        | some taken =>
          have isNone := others taken (mem_of_find?_eq_some alsoFound)
          apply ih sources
          · intro connection mem
            exact others connection (eraseP_subset mem)
          · simp [or_imp, forall_and, isNone]
        | none =>
          intro group mem
          rcases mem_cons.mp mem with rfl | mem
          · exact current
          · exact ih sources others (by simp [newGroup]) group mem

theorem groupConnections_eq {fuel other : Nat}
    (enough : neededPasses withData withoutData currentInputIndex ≤ fuel)
    (alsoEnough : neededPasses withData withoutData currentInputIndex ≤ other) :
    groupConnections fuel withData withoutData currentGroup currentInputIndex =
      groupConnections other withData withoutData currentGroup currentInputIndex := by
  induction fuel generalizing withData withoutData currentGroup currentInputIndex other with
  | zero =>
    have positive := neededPasses_pos withData withoutData currentInputIndex
    omega
  | succ fuel ih =>
    cases other with
    | zero =>
      have positive := neededPasses_pos withData withoutData currentInputIndex
      omega
    | succ other =>
      rw [groupConnections, groupConnections]
      split
      next => rfl
      next nonempty =>
        cases found : withData.find? (·.inputIndex = currentInputIndex + 1) with
        | some taken =>
          have later := neededPasses_takeWithData withoutData found
          exact ih (by omega) (by omega)
        | none =>
          cases alsoFound : withoutData.find? (·.inputIndex = currentInputIndex + 1) with
          | some taken =>
            have later := neededPasses_takeWithoutData withData alsoFound
            exact ih (by omega) (by omega)
          | none =>
            have later := neededPasses_restart nonempty (absent_of_notFound found alsoFound)
            dsimp only
            congr 1
            exact ih (by omega) (by omega)

end Loop

/-! ## The groups of a node -/

section Groups

variable (localeCompare : String → String → Int) (graph : DirectedGraph)
  (node : INode) (runData : IRunData) (pinnedData : IPinData)

def sortedConnectionsWithData : List GraphConnection :=
  ((graph.getConnectionsTo node).filter (hasData runData pinnedData)).insertionSort
      (sortByInputIndexThenByName localeCompare)

def sortedConnectionsWithoutData : List GraphConnection :=
  ((graph.getConnectionsTo node).filter fun connection =>
    !hasData runData pinnedData connection && decide connection.IsMain).insertionSort
        (sortByInputIndexThenByName localeCompare)

def groupingLoop (fuel : Nat) : List SourceConnectionGroup :=
  let withData := sortedConnectionsWithData localeCompare graph node runData pinnedData
  let withoutData := sortedConnectionsWithoutData localeCompare graph node runData pinnedData
  groupConnections fuel withData withoutData newGroup (minInputIndex withData withoutData - 1)

def IsMainInput (inputIndex : Int) : Prop :=
  ∃ connection ∈ graph.getConnectionsTo node, connection.IsMain ∧ connection.inputIndex = inputIndex

def SuppliesInput (inputIndex : Int) (connection : GraphConnection) : Prop :=
  connection.IsMain ∧ connection.inputIndex = inputIndex ∧
    hasData runData pinnedData connection = true

/-- Each connected main input has a connection whose source has data. -/
def MainInputsHaveData : Prop :=
  ∀ inputIndex, IsMainInput graph node inputIndex → ∃ connection ∈ graph.getConnectionsTo node,
      SuppliesInput runData pinnedData inputIndex connection

/-- The grouping is a maximal one: the loop ends, shares out the main
connections, and the first group is complete if the data suffices. -/
structure MaximalGrouping (groups : List SourceConnectionGroup) : Prop where
  terminates : groupedConnections graph node runData pinnedData ≠ [] →
    ∀ fuel, 2 * (graph.getConnectionsTo node).length ≤ fuel →
      groupingLoop localeCompare graph node runData pinnedData fuel = groups
  mainOnce : ∀ connection ∈ graph.getConnectionsTo node, connection.IsMain →
    (groups.flatMap (·.connections)).count connection = 1
  distinctInputs : ∀ group ∈ groups, (group.connections.map (·.inputIndex)).Nodup
  complete_iff : ∀ group ∈ groups, (group.complete = true ↔
    ∀ connection ∈ group.connections, hasData runData pinnedData connection = true)
  firstGroup : MainInputsHaveData graph node runData pinnedData →
    ∀ inputIndex, IsMainInput graph node inputIndex →
      ∃ group, groups.head? = some group ∧ ∃ connection ∈ group.connections,
          SuppliesInput runData pinnedData inputIndex connection

/-- No index up to that of a connected main input lacks a connection, and the
first connection with data at its index, in the order of the sorting, is a
main one. -/
def InputsWithoutGap : Prop :=
  ∀ inputIndex, IsMainInput graph node inputIndex → (∀ index, index ≤ inputIndex →
      (∃ connection ∈ groupedConnections graph node runData pinnedData,
        connection.inputIndex ≤ index) →
      ∃ connection ∈ groupedConnections graph node runData pinnedData,
        connection.inputIndex = index) ∧
    ∀ connection, (sortedConnectionsWithData localeCompare graph node runData
        pinnedData).find? (·.inputIndex = inputIndex) = some connection →
      connection.IsMain

end Groups

section Maximal

variable {localeCompare : String → String → Int} {graph : DirectedGraph}
  {node : INode} {runData : IRunData} {pinnedData : IPinData}

theorem sorted_perm_grouped :
    (sortedConnectionsWithData localeCompare graph node runData pinnedData ++
      sortedConnectionsWithoutData localeCompare graph node runData
        pinnedData).Perm (groupedConnections graph node runData pinnedData) :=
  ((perm_insertionSort _ _).append (perm_insertionSort _ _)).trans
    (withData_append_withoutData_perm graph node runData pinnedData)

variable {connection : GraphConnection}

theorem mem_sorted_iff :
    connection ∈ sortedConnectionsWithData localeCompare graph node runData pinnedData ++
      sortedConnectionsWithoutData localeCompare graph node runData pinnedData ↔
      connection ∈ groupedConnections graph node runData pinnedData :=
  sorted_perm_grouped.mem_iff

theorem getSourceDataGroups_of_empty
    (empty : groupedConnections graph node runData pinnedData = []) :
    getSourceDataGroups localeCompare graph node runData pinnedData = [] := by
  have shared := withData_append_withoutData_perm graph node runData pinnedData
  rw [empty, perm_nil, append_eq_nil_iff] at shared
  exact if_pos shared

theorem getSourceDataGroups_eq_loop
    (nonempty : groupedConnections graph node runData pinnedData ≠ []) :
    getSourceDataGroups localeCompare graph node runData pinnedData =
      groupingLoop localeCompare graph node runData pinnedData
        (2 * (graph.getConnectionsTo node).length) := by
  have shared := withData_append_withoutData_perm graph node runData pinnedData
  refine if_neg ?_
  rintro ⟨withData, withoutData⟩
  rw [withData, withoutData] at shared
  exact nonempty shared.nil_eq.symm

theorem sorted_nonempty (nonempty : groupedConnections graph node runData pinnedData ≠ []) :
    ¬ (sortedConnectionsWithData localeCompare graph node runData pinnedData = [] ∧
      sortedConnectionsWithoutData localeCompare graph node runData pinnedData = []) := by
  rintro ⟨withData, withoutData⟩
  obtain ⟨connection, mem⟩ := exists_mem_of_ne_nil _ nonempty
  rw [← mem_sorted_iff, withData, withoutData] at mem
  cases mem

theorem neededPasses_sorted_le (localeCompare : String → String → Int)
    (nonempty : groupedConnections graph node runData pinnedData ≠ []) :
    let withData := sortedConnectionsWithData localeCompare graph node runData pinnedData
    let withoutData := sortedConnectionsWithoutData localeCompare graph node runData pinnedData
    (withData ++ withoutData).length ≤ (graph.getConnectionsTo node).length ∧
      neededPasses withData withoutData (minInputIndex withData withoutData - 1) ≤
        2 * (graph.getConnectionsTo node).length := by
  intro withData withoutData
  have lengths : (withData ++ withoutData).length ≤ (graph.getConnectionsTo node).length := by
    rw [sorted_perm_grouped.length_eq]
    exact length_filter_le _ _
  refine ⟨lengths, ?_⟩
  obtain ⟨connection, mem, index⟩ : ∃ connection ∈ withData ++ withoutData,
        connection.inputIndex = minInputIndex withData withoutData :=
    minInputIndex_attained (sorted_nonempty nonempty)
  rw [neededPasses_of_found ⟨connection, mem, by rw [index]; omega⟩]
  omega

theorem minInputIndex_le {withData withoutData : List GraphConnection}
    (mem : connection ∈ withData ++ withoutData) :
    minInputIndex withData withoutData ≤ connection.inputIndex := by
  have listed : connection.inputIndex ∈ (withData ++ withoutData).map (·.inputIndex) :=
    mem_map_of_mem mem
  rw [minInputIndex]
  cases least : ((withData ++ withoutData).map (·.inputIndex)).min? with
  | none =>
    rw [min?_eq_none_iff.mp least] at listed
    cases listed
  | some value => exact (min?_eq_some_iff.mp least).2 _ listed

theorem least_le (localeCompare : String → String → Int)
    (grouped : connection ∈ groupedConnections graph node runData pinnedData) :
    minInputIndex (sortedConnectionsWithData localeCompare graph node runData pinnedData)
        (sortedConnectionsWithoutData localeCompare graph node runData
          pinnedData) ≤ connection.inputIndex :=
  minInputIndex_le (mem_sorted_iff.mpr grouped)

theorem least_attained (localeCompare : String → String → Int)
    (nonempty : groupedConnections graph node runData pinnedData ≠ []) :
    ∃ connection ∈ groupedConnections graph node runData pinnedData,
      connection.inputIndex = minInputIndex
        (sortedConnectionsWithData localeCompare graph node runData pinnedData)
        (sortedConnectionsWithoutData localeCompare graph node runData pinnedData) := by
  obtain ⟨connection, mem, least⟩ := minInputIndex_attained (sorted_nonempty nonempty)
  exact ⟨connection, mem_sorted_iff.mp mem, least⟩

theorem hasData_of_mem_sorted (mem : connection ∈ sortedConnectionsWithData localeCompare graph node
      runData pinnedData) : hasData runData pinnedData connection = true :=
  (mem_filter.mp ((mem_insertionSort _).mp mem)).2

theorem not_hasData_of_mem_sorted
    (mem : connection ∈ sortedConnectionsWithoutData localeCompare graph node runData pinnedData) :
    ¬ hasData runData pinnedData connection = true := by
  have kept := (mem_filter.mp ((mem_insertionSort _).mp mem)).2
  rw [Bool.and_eq_true, Bool.not_eq_true'] at kept
  rw [kept.1]
  exact Bool.false_ne_true

theorem groupedConnections_nodup : (groupedConnections graph node runData pinnedData).Nodup :=
  ((DirectedGraph.getConnections_nodup graph).filter _).filter _

theorem mem_groupedConnections : connection ∈ groupedConnections graph node runData pinnedData ↔
      connection ∈ graph.getConnectionsTo node ∧
        (hasData runData pinnedData connection = true ∨ connection.IsMain) := by
  rw [groupedConnections, mem_filter, Bool.or_eq_true, decide_eq_true_eq]

theorem count_getSourceDataGroups (listed : connection ∈ graph.getConnectionsTo node)
    (isMain : connection.IsMain) :
    ((getSourceDataGroups localeCompare graph node runData
      pinnedData).flatMap (·.connections)).count connection = 1 := by
  rw [(getSourceDataGroups_spec localeCompare graph node runData pinnedData).2.count_eq]
  exact count_eq_one_of_mem groupedConnections_nodup
    (mem_groupedConnections.mpr ⟨listed, .inr isMain⟩)

theorem ConsecutiveFrom.nodup {start : Int} {connections : List GraphConnection}
    (consecutive : ConsecutiveFrom start connections) :
    (connections.map (·.inputIndex)).Nodup := by
  rw [nodup_iff_getElem?_ne_getElem?]
  intro first second before inside same
  rw [length_map] at inside
  rw [getElem?_map, getElem?_map, getElem?_eq_getElem (by omega), getElem?_eq_getElem inside,
    Option.map_some, Option.map_some, Option.some.injEq,
    consecutive first _ (getElem?_eq_getElem (by omega)),
    consecutive second _ (getElem?_eq_getElem inside)] at same
  omega

theorem complete_getSourceDataGroups {group : SourceConnectionGroup} (mem : group ∈
      getSourceDataGroups localeCompare graph node runData pinnedData) :
    group.complete = true ↔ ∀ connection ∈ group.connections,
      hasData runData pinnedData connection = true := by
  by_cases empty : groupedConnections graph node runData pinnedData = []
  · rw [getSourceDataGroups_of_empty empty] at mem
    cases mem
  · rw [getSourceDataGroups_eq_loop empty] at mem
    exact complete_groupConnections (fun _ listed => hasData_of_mem_sorted listed)
      (fun _ listed => not_hasData_of_mem_sorted listed)
      (by simp [newGroup]) group mem

theorem head?_getSourceDataGroups (localeCompare : String → String → Int)
    (nonempty : groupedConnections graph node runData pinnedData ≠ []) :
    let withData := sortedConnectionsWithData localeCompare graph node runData pinnedData
    let withoutData := sortedConnectionsWithoutData localeCompare graph node runData pinnedData
    ∃ group, (getSourceDataGroups localeCompare graph node runData pinnedData).head? = some group ∧
      ∀ connection, connection ∈ group.connections ↔
        Added withData withoutData (minInputIndex withData withoutData - 1)
          connection := by
  intro withData withoutData
  have few : (withData ++ withoutData).length ≤ (graph.getConnectionsTo node).length :=
    (neededPasses_sorted_le localeCompare nonempty).1
  have positive : 0 < (graph.getConnectionsTo node).length := by
    obtain ⟨connection, mem⟩ := exists_mem_of_ne_nil _ nonempty
    exact length_pos_of_mem (mem_groupedConnections.mp mem).1
  obtain ⟨group, groups, closed, members⟩ : ∃ group groups, groupConnections
          (2 * (graph.getConnectionsTo node).length) withData withoutData
          newGroup (minInputIndex withData withoutData - 1) = group :: groups ∧
        ∀ connection, connection ∈ group.connections ↔
          connection ∈ newGroup.connections ∨ Added withData withoutData
              (minInputIndex withData withoutData - 1) connection :=
    groupConnections_eq_cons (by omega)
  refine ⟨group, ?_, fun connection => ?_⟩
  · rw [getSourceDataGroups_eq_loop nonempty, groupingLoop, closed]
    rfl
  · rw [members]
    simp [newGroup]

/-- The first group supplies a main input exactly if no index up to it lacks
a connection and the connection taken for it is a main one. -/
theorem firstGroup_supplies_iff {inputIndex : Int} (isInput : IsMainInput graph node inputIndex)
    (haveData : MainInputsHaveData graph node runData pinnedData) :
    (∃ group, (getSourceDataGroups localeCompare graph node runData pinnedData).head? = some group ∧
      ∃ connection ∈ group.connections, SuppliesInput runData pinnedData inputIndex connection) ↔
      (∀ index, index ≤ inputIndex →
        (∃ connection ∈ groupedConnections graph node runData pinnedData,
          connection.inputIndex ≤ index) →
        ∃ connection ∈ groupedConnections graph node runData pinnedData,
          connection.inputIndex = index) ∧
      ∀ connection, (sortedConnectionsWithData localeCompare graph node
          runData pinnedData).find? (·.inputIndex = inputIndex) =
            some connection → connection.IsMain := by
  obtain ⟨supply, listed, isMain, atInput, supplied⟩ := haveData inputIndex isInput
  have grouped := mem_groupedConnections.mpr ⟨listed, .inl supplied⟩
  obtain ⟨group, isHead, members⟩ := head?_getSourceDataGroups localeCompare (ne_nil_of_mem grouped)
  -- the loop takes a connection with data for the input
  obtain ⟨taken, found⟩ : ∃ taken, (sortedConnectionsWithData localeCompare
      graph node runData pinnedData).find? (·.inputIndex = inputIndex) = some taken := by
    rw [← Option.isSome_iff_exists, find?_isSome]
    refine ⟨supply, ?_, by simpa using atInput⟩
    rw [sortedConnectionsWithData, mem_insertionSort]
    exact mem_filter.mpr ⟨listed, supplied⟩
  have picked : pick (sortedConnectionsWithData localeCompare graph node runData pinnedData)
      (sortedConnectionsWithoutData localeCompare graph node runData
        pinnedData) inputIndex = some taken := by
    rw [pick, found]
    rfl
  constructor
  · rintro ⟨other, sameHead, connection, mem, isMain, atIndex, _⟩
    cases isHead.symm.trans sameHead
    obtain ⟨index, ⟨_, filled⟩, pickedHere⟩ := (members connection).mp mem
    obtain rfl : index = inputIndex := (inputIndex_of_pick pickedHere).symm.trans atIndex
    constructor
    · intro lower below ⟨start, startMem, startIndex⟩
      have least := least_le localeCompare startMem
      obtain ⟨filler, fillerMem, fills⟩ := pick_isSome_iff.mp
        (filled lower (lt_of_lt_of_le (by omega) startIndex) below)
      exact ⟨filler, mem_sorted_iff.mp fillerMem, fills⟩
    · intro first isFirst
      cases found.symm.trans isFirst
      cases picked.symm.trans pickedHere
      exact isMain
  · rintro ⟨withoutGap, firstMain⟩
    refine ⟨group, isHead, taken, (members taken).mpr ?_, firstMain taken found,
      inputIndex_of_pick picked,
      hasData_of_mem_sorted (mem_of_find?_eq_some found)⟩
    have least := least_le localeCompare grouped
    refine ⟨inputIndex, ⟨lt_of_lt_of_le (by omega) (least.trans_eq atInput),
      fun index above below => ?_⟩, picked⟩
    obtain ⟨start, startMem, startIndex⟩ := least_attained localeCompare (ne_nil_of_mem grouped)
    obtain ⟨filler, fillerMem, fills⟩ := withoutGap index below
      ⟨start, startMem, by rw [startIndex]; omega⟩
    exact pick_isSome_iff.mpr ⟨filler, mem_sorted_iff.mpr fillerMem, fills⟩

end Maximal

namespace GroupingExample

def first : INode := { name := "First" }

def third : INode := { name := "Third" }

def merge : INode := { name := "Merge" }

def graph : DirectedGraph :=
  [{ fromNode := first
     toNode := merge },
    { fromNode := third
      toNode := merge
      inputIndex := 2 : GraphConnection }].foldl DirectedGraph.setConnection
    (DirectedGraph.empty.addNodes [first, third, merge])

def runData : IRunData := (OrderedMap.empty.set "First" [{}]).set "Third" [{}]

def localeCompare (left right : String) : Int :=
  if left < right then -1 else if right < left then 1 else 0

end GroupingExample

end N8n
