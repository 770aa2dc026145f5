import N8n.Library.SimplePath
import N8n.Workflow.Interfaces

/-!
# Connection tables

`mapConnectionsByDestination` inverts the connection table of a workflow, and
`getConnectedNodes` searches such a table.  The two specifications below say
which entries the inverted table has and which nodes the search returns.
-/

namespace N8n

/-- One connection of a table, as the nested loops over a table meet it. -/
structure SourceConnection where
  fromNode : String
  outputType : NodeConnectionType
  outputIndex : Nat
  connection : IConnection
deriving DecidableEq

namespace IConnections

section

variable (connections : IConnections)

/-- All connections of a table in loop order.  Missing outputs have none. -/
def enumerate : List SourceConnection :=
  connections.ownEntries.flatMap fun (fromNode, byType) =>
    byType.entries.flatMap fun (outputType, outputs) =>
      outputs.zipIdx.flatMap fun (conns, outputIndex) =>
        (conns.getD []).map fun connection =>
          { fromNode, outputType, outputIndex, connection }

/-- The entries of a table at a node, type and index. -/
def at? (node : String) (type : NodeConnectionType) : Option NodeInputConnections :=
  (connections.get? node).bind fun byType => byType.get? type

def Entry (node : String) (type : NodeConnectionType) (index : Nat) (connection : IConnection) :
    Prop :=
  ∃ inputs conns, connections.at? node type = some inputs ∧
    inputs[index]? = some (some conns) ∧ connection ∈ conns

end

theorem mem_enumerate {connections : IConnections} {source : SourceConnection} :
    source ∈ connections.enumerate ↔
      connections.Entry source.fromNode source.outputType source.outputIndex
        source.connection := by
  obtain ⟨fromNode, outputType, outputIndex, connection⟩ := source
  simp only [enumerate, List.mem_flatMap, List.mem_map, Prod.exists,
    OrderedMap.mem_ownEntries, List.mem_zipIdx_iff_getElem?, Entry, at?,
    Option.bind_eq_some_iff, SourceConnection.mk.injEq]
  constructor
  · rintro ⟨_, byType, byTypeMem, _, outputs, outputsMem, conns, _,
      found, item, itemMem, rfl, rfl, rfl, rfl⟩
    refine ⟨outputs, conns.getD [], ⟨byType, OrderedMap.get?_eq_some_iff.mpr byTypeMem,
      OrderedMap.get?_eq_some_iff.mpr outputsMem⟩, ?_, itemMem⟩
    cases conns with
    | none => simp at itemMem
    | some conns => exact found
  · rintro ⟨outputs, conns, ⟨byType, byTypeFound, outputsFound⟩, found, mem⟩
    exact ⟨fromNode, byType, OrderedMap.get?_eq_some_iff.mp byTypeFound,
      outputType, outputs, OrderedMap.get?_eq_some_iff.mp outputsFound,
      some conns, outputIndex, found, connection, mem, rfl, rfl, rfl, rfl⟩

end IConnections

section MapConnectionsByDestination

/-- Push empty inputs until the index exists. -/
def padInputs (inputs : NodeInputConnections) (index : Int) : NodeInputConnections :=
  inputs ++ List.replicate (index + 1 - inputs.length).toNat (some [])

/-- `inputs[index]?.push(connection)` -/
def pushInput (inputs : NodeInputConnections) (index : Int)
    (connection : IConnection) : NodeInputConnections :=
  if index < 0 then inputs
  else inputs.modify index.toNat (Option.map fun conns => conns ++ [connection])

def addByDestination (returnConnection : IConnections) (source : SourceConnection) : IConnections :=
  let connectionInfo := source.connection
  let byType := (returnConnection.get? connectionInfo.node).getD .empty
  let inputs := (byType.get? connectionInfo.type).getD []
  returnConnection.set connectionInfo.node (byType.set connectionInfo.type
      (pushInput (padInputs inputs connectionInfo.index) connectionInfo.index
        { node := source.fromNode
          type := source.outputType
          index := source.outputIndex }))

def mapConnectionsByDestination (connections : IConnections) : IConnections :=
  connections.enumerate.foldl addByDestination .empty

/-- The entry which `source` adds to the inverted table. -/
def SourceConnection.origin (source : SourceConnection) : IConnection :=
  { node := source.fromNode
    type := source.outputType
    index := source.outputIndex }

theorem at?_addByDestination (table : IConnections)
    (source : SourceConnection) (node : String) (type : NodeConnectionType) :
    (addByDestination table source).at? node type =
      if source.connection.node = node ∧ source.connection.type = type then
        some (pushInput (padInputs ((table.at? node type).getD []) source.connection.index)
          source.connection.index source.origin)
      else table.at? node type := by
  simp only [IConnections.at?, addByDestination, OrderedMap.get?_set]
  by_cases sameNode : source.connection.node = node
  · subst sameNode
    by_cases sameType : source.connection.type = type
    · subst sameType
      cases found : table.get? source.connection.node <;> simp [SourceConnection.origin]
    · cases found : table.get? source.connection.node <;> simp [sameType, OrderedMap.get?_set]
  · simp [sameNode]

def IConnections.AllPresent (table : IConnections) : Prop :=
  ∀ node type inputs, table.at? node type = some inputs → ∀ conns ∈ inputs, conns.isSome

variable {inputs : NodeInputConnections}

theorem mem_padInputs {index : Int} {conns : Option (List IConnection)}
    (mem : conns ∈ padInputs inputs index) :
    conns ∈ inputs ∨ conns = some [] := by
  rcases List.mem_append.mp mem with old | new
  · exact .inl old
  · exact .inr (List.eq_of_mem_replicate new)

variable {table : IConnections}

theorem allPresent_addByDestination (present : table.AllPresent) (source : SourceConnection) :
    (addByDestination table source).AllPresent := by
  intro node type inputs found conns mem
  rw [at?_addByDestination] at found
  have oldPresent : ∀ old ∈ (table.at? node type).getD [], old.isSome := by
    intro old oldMem
    cases oldFound : table.at? node type with
    | none => simp [oldFound] at oldMem
    | some oldInputs =>
      exact present node type oldInputs oldFound old (by simpa [oldFound] using oldMem)
  have paddedPresent : ∀ old ∈ padInputs ((table.at? node type).getD [])
        source.connection.index, old.isSome := by
    intro old oldMem
    rcases mem_padInputs oldMem with old | rfl
    · exact oldPresent _ old
    · rfl
  split at found
  · cases found
    unfold pushInput at mem
    split at mem
    · exact paddedPresent conns mem
    · obtain ⟨position, atPosition⟩ := List.mem_iff_getElem?.mp mem
      rw [List.getElem?_modify] at atPosition
      cases old : (padInputs ((table.at? node type).getD [])
          source.connection.index)[position]? with
      | none => simp [old] at atPosition
      | some before =>
        have isPresent := paddedPresent before (List.mem_of_getElem? old)
        rw [old] at atPosition
        cases atPosition
        split <;> simpa using isPresent
  · exact present node type inputs found conns mem

section

variable (inputs : NodeInputConnections)

/-- The connections a table of inputs lists at an index. -/
def listedAt (index : Nat) : List IConnection :=
  (inputs[index]?.join).getD []

theorem listedAt_padInputs (index : Int) (position : Nat) :
    listedAt (padInputs inputs index) position = listedAt inputs position := by
  unfold listedAt padInputs
  by_cases inside : position < inputs.length
  · rw [List.getElem?_append_left inside]
  · rw [List.getElem?_append_right (Nat.le_of_not_lt inside),
      List.getElem?_replicate, List.getElem?_eq_none (Nat.le_of_not_lt inside)]
    split <;> rfl

theorem padInputs_length (index : Nat) : index < (padInputs inputs index).length := by
  simp only [padInputs, List.length_append, List.length_replicate]
  omega

end

theorem listedAt_pushInput {index : Int} (present : ∀ conns ∈ inputs, conns.isSome) (position : Nat)
    (connection : IConnection) :
    listedAt (pushInput (padInputs inputs index) index connection) position =
      listedAt inputs position ++
        if index = position then [connection] else [] := by
  unfold pushInput
  by_cases negative : index < 0
  · have ne : index ≠ position := by omega
    rw [if_pos negative, listedAt_padInputs, if_neg ne, List.append_nil]
  · obtain ⟨target, rfl⟩ := Int.eq_ofNat_of_zero_le (not_lt.mp negative)
    rw [if_neg negative, ← listedAt_padInputs inputs target position]
    simp only [listedAt, List.getElem?_modify, Int.toNat_natCast, Int.natCast_inj]
    by_cases same : target = position
    · subst same
      have inside := padInputs_length inputs target
      have isPresent : ((padInputs inputs target)[target]).isSome := by
        rcases mem_padInputs (List.getElem_mem inside) with old | empty
        · exact present _ old
        · rw [empty]
          rfl
      obtain ⟨conns, atTarget⟩ := Option.isSome_iff_exists.mp isPresent
      simp [List.getElem?_eq_getElem inside, atTarget]
    · cases (padInputs inputs target)[position]? <;> simp [same]

variable {connection : IConnection} {type : NodeConnectionType} {node : String} {index : Nat}

theorem IConnections.entry_iff_listedAt : table.Entry node type index connection ↔
      connection ∈ listedAt ((table.at? node type).getD []) index := by
  constructor
  · rintro ⟨inputs, conns, found, atIndex, mem⟩
    simpa [found, listedAt, atIndex] using mem
  · intro mem
    cases found : table.at? node type with
    | none => simp [found, listedAt] at mem
    | some inputs =>
      cases atIndex : inputs[index]? with
      | none => simp [found, listedAt, atIndex] at mem
      | some conns =>
        cases conns with
        | none => simp [found, listedAt, atIndex] at mem
        | some conns =>
          exact ⟨inputs, conns, found, atIndex, by simpa [found, listedAt, atIndex] using mem⟩

theorem entry_addByDestination (present : table.AllPresent) {source : SourceConnection} :
    (addByDestination table source).Entry node type index connection ↔
      table.Entry node type index connection ∨
        (source.connection = { node, type, index } ∧ connection = source.origin) := by
  rw [IConnections.entry_iff_listedAt, IConnections.entry_iff_listedAt, at?_addByDestination]
  have oldPresent : ∀ old ∈ (table.at? node type).getD [], old.isSome := by
    cases found : table.at? node type with
    | none => simp
    | some inputs => exact present node type inputs found
  obtain ⟨fromNode, outputType, outputIndex, target, targetType, targetIndex⟩ := source
  simp only [IConnection.mk.injEq]
  by_cases same : target = node ∧ targetType = type
  · rw [if_pos same, Option.getD_some, listedAt_pushInput oldPresent]
    by_cases sameIndex : targetIndex = index <;> simp [same, sameIndex]
  · rw [if_neg same]
    constructor
    · exact .inl
    · rintro (mem | ⟨⟨sameNode, sameType, _⟩, _⟩)
      · exact mem
      · exact absurd ⟨sameNode, sameType⟩ same

theorem entry_mapConnectionsByDestination {connections : IConnections} :
    (mapConnectionsByDestination connections).Entry node type index connection ↔
      ∃ source ∈ connections.enumerate, source.connection = { node, type, index } ∧
          connection = source.origin := by
  have folded : ∀ (sources : List SourceConnection) (table : IConnections), table.AllPresent →
      ((sources.foldl addByDestination table).Entry node type index connection ↔
        table.Entry node type index connection ∨
          ∃ source ∈ sources, source.connection = { node, type, index } ∧
            connection = source.origin) := by
    intro sources
    induction sources with
    | nil => simp
    | cons source rest ih =>
      intro table present
      rw [List.foldl_cons, ih _ (allPresent_addByDestination present source),
        entry_addByDestination present]
      simp only [List.mem_cons, exists_eq_or_imp, or_assoc]
  rw [mapConnectionsByDestination, folded _ _ (by
    intro node type inputs found
    simp [IConnections.at?] at found)]
  simp [IConnections.Entry, IConnections.at?]

end MapConnectionsByDestination

section GetConnectedNodes

inductive ConnectionTypeSelector where
  | only (type : NodeConnectionType)
  | all
  | allNonMain

def ConnectionTypeSelector.types (byType : INodeConnections) :
    ConnectionTypeSelector → List NodeConnectionType
  | .only type => [type]
  | .all => byType.keys
  | .allNonMain => byType.keys.filter fun type => type ≠ .main

/-- Put the nodes of `addNodes` before the others, each at its new place
only. -/
def moveToFront (addNodes returnNodes : List String) : List String :=
  addNodes.foldr (fun name nodes => name :: nodes.erase name) returnNodes

/-- The loop body of `getConnectedNodes`, given the recursive call. -/
def visitConnection (connectedNodes : String → List String)
    (checkedNodes returnNodes : List String) (connection : IConnection) :
    List String :=
  if connection.node ∈ checkedNodes then returnNodes
  else
    moveToFront (connectedNodes connection.node) (connection.node :: returnNodes)

/-- The recursion of `getConnectedNodes`.  Each level marks one more node of
the table as checked, so that fuel above the number of nodes is never used
up. -/
def getConnectedNodesFrom (connections : IConnections) (connectionType : ConnectionTypeSelector) :
    Nat → String → Int → List String → List String
  | 0, _, _, _ => []
  | fuel + 1, nodeName, depth, checkedNodesIncoming =>
    let newDepth := if depth = -1 then depth else depth - 1
    if depth = 0 then []
    else
      match connections.get? nodeName with
      | none => []
      | some byType =>
        (connectionType.types byType).foldl (fun returnNodes type =>
          match byType.get? type with
          | none => returnNodes
          | some connectionsByIndexes =>
            if nodeName ∈ checkedNodesIncoming then returnNodes
            else
              let checkedNodes := checkedNodesIncoming ++ [nodeName]
              (connectionsByIndexes.flatMap (Option.getD · [])).foldl (visitConnection (fun name =>
                  getConnectedNodesFrom connections connectionType fuel
                    name newDepth checkedNodes) checkedNodes)
                returnNodes) []

def getConnectedNodes (connections : IConnections) (nodeName : String)
    (connectionType : ConnectionTypeSelector := .only .main)
    (depth : Int := -1) : List String :=
  getConnectedNodesFrom connections connectionType (connections.size + 1) nodeName depth []

theorem mem_moveToFront {name : String} {addNodes returnNodes : List String} :
    name ∈ moveToFront addNodes returnNodes ↔ name ∈ addNodes ∨ name ∈ returnNodes := by
  induction addNodes with
  | nil => simp [moveToFront]
  | cons first rest ih =>
    have unfolded : moveToFront (first :: rest) returnNodes =
        first :: (moveToFront rest returnNodes).erase first := rfl
    by_cases same : name = first
    · simp [unfolded, same]
    · rw [unfolded, List.mem_cons, List.mem_erase_of_ne same, ih, List.mem_cons]
      simp [same]

/-- `target` is listed for `node` under the given type. -/
def IConnections.Linked (connections : IConnections)
    (type : NodeConnectionType) (node target : String) : Prop :=
  ∃ index connection, connections.Entry node type index connection ∧ connection.node = target

variable {connections : IConnections}

theorem IConnections.linked_iff_mem {type : NodeConnectionType} {node target : String} :
    connections.Linked type node target ↔ ∃ inputs, connections.at? node type = some inputs ∧
        ∃ connection ∈ inputs.flatMap (Option.getD · []), connection.node = target := by
  constructor
  · rintro ⟨index, connection, ⟨inputs, conns, found, atIndex, mem⟩, rfl⟩
    exact ⟨inputs, found, connection, List.mem_flatMap.mpr
      ⟨some conns, List.mem_of_getElem? atIndex, mem⟩, rfl⟩
  · rintro ⟨inputs, found, connection, mem, rfl⟩
    obtain ⟨conns, connsMem, connMem⟩ := List.mem_flatMap.mp mem
    obtain ⟨index, atIndex⟩ := List.mem_iff_getElem?.mp connsMem
    cases conns with
    | none => simp at connMem
    | some conns =>
      exact ⟨index, connection, ⟨inputs, conns, found, atIndex, connMem⟩, rfl⟩

variable {checkedNodes : List String}

theorem mem_foldl_visitConnection {connectedNodes : String → List String}
    {name : String} (conns : List IConnection) (returnNodes : List String) :
    name ∈ conns.foldl (visitConnection connectedNodes checkedNodes) returnNodes ↔
      name ∈ returnNodes ∨ ∃ connection ∈ conns, connection.node ∉ checkedNodes ∧
        (name = connection.node ∨ name ∈ connectedNodes connection.node) := by
  induction conns generalizing returnNodes with
  | nil => simp
  | cons first rest ih =>
    rw [List.foldl_cons, ih, visitConnection]
    by_cases checked : first.node ∈ checkedNodes
    · simp [checked]
    · rw [if_neg checked, mem_moveToFront, List.mem_cons]
      grind

def ConnectionTypeSelector.Selects : ConnectionTypeSelector → NodeConnectionType → Prop
  | .only selected, type => type = selected
  | .all, _ => True
  | .allNonMain, type => type ≠ .main

/-- `target` is listed for `node` under a selected type. -/
def IConnections.LinkedOver (connections : IConnections)
    (connectionType : ConnectionTypeSelector) (node target : String) : Prop :=
  ∃ type, connectionType.Selects type ∧ connections.Linked type node target

/-- The connections of a node under the selected types, in loop order. -/
def IConnections.selected (connections : IConnections)
    (connectionType : ConnectionTypeSelector) (node : String) :
    List IConnection :=
  match connections.get? node with
  | none => []
  | some byType =>
    (connectionType.types byType).flatMap fun type =>
      ((byType.get? type).getD []).flatMap (Option.getD · [])

variable {connectionType : ConnectionTypeSelector}

theorem IConnections.linkedOver_iff_mem {node target : String} :
    connections.LinkedOver connectionType node target ↔
      ∃ connection ∈ connections.selected connectionType node, connection.node = target := by
  cases found : connections.get? node with
  | none =>
    simp [LinkedOver, IConnections.linked_iff_mem, selected, at?, found]
  | some byType =>
    have listed : ∀ {type : NodeConnectionType}, (byType.get? type).isSome →
          (connectionType.Selects type ↔ type ∈ connectionType.types byType) := by
      intro type present
      have isKey : type ∈ byType.keys := by
        by_contra absent
        simp [OrderedMap.get?_eq_none_iff.mpr absent] at present
      cases connectionType <;>
        simp [ConnectionTypeSelector.Selects, ConnectionTypeSelector.types, isKey]
    simp only [LinkedOver, IConnections.linked_iff_mem, selected, at?,
      found, Option.bind_some, List.mem_flatMap]
    constructor
    · intro linked
      obtain ⟨type, selects, inputs, atType, connection, ⟨conns, connsMem, connMem⟩, same⟩ := linked
      refine ⟨connection, ⟨type, ?_, conns, ?_, connMem⟩, same⟩
      · exact (listed (by simp [atType])).mp selects
      · simpa [atType] using connsMem
    · intro linked
      obtain ⟨connection, ⟨type, typeMem, conns, connsMem, connMem⟩, same⟩ := linked
      cases atType : byType.get? type with
      | none => simp [atType] at connsMem
      | some inputs =>
        refine ⟨type, (listed (by simp [atType])).mpr typeMem, inputs,
          atType, connection, ⟨conns, ?_, connMem⟩, same⟩
        simpa [atType] using connsMem

/-- A search of this depth follows so many connections.  A negative depth
is no limit. -/
def WithinDepth (depth : Int) (length : Nat) : Prop :=
  depth < 0 ∨ (length : Int) ≤ depth

variable {depth : Int}

theorem withinDepth_succ {length : Nat} (positive : depth ≠ 0) : WithinDepth depth (length + 1) ↔
      WithinDepth (if depth = -1 then depth else depth - 1) length := by
  unfold WithinDepth
  split <;> omega

theorem getConnectedNodesFrom_succ (connections : IConnections)
    (connectionType : ConnectionTypeSelector) (fuel : Nat)
    (nodeName : String) (depth : Int) (checkedNodes : List String) :
    getConnectedNodesFrom connections connectionType (fuel + 1) nodeName depth checkedNodes =
      if depth = 0 ∨ nodeName ∈ checkedNodes then []
      else
        (connections.selected connectionType nodeName).foldl (visitConnection (fun name =>
            getConnectedNodesFrom connections connectionType fuel name
              (if depth = -1 then depth else depth - 1)
              (checkedNodes ++ [nodeName])) (checkedNodes ++ [nodeName]))
          [] := by
  rw [getConnectedNodesFrom, IConnections.selected]
  by_cases stopped : depth = 0
  · simp [stopped]
  cases connections.get? nodeName with
  | none => simp
  | some byType =>
    by_cases checked : nodeName ∈ checkedNodes
    · simp only [checked, if_true, stopped, if_false, or_true]
      generalize connectionType.types byType = types
      induction types with
      | nil => simp
      | cons type types ih =>
        rw [List.foldl_cons]
        cases byType.get? type <;> exact ih
    · simp only [checked, if_false, stopped, or_self, List.foldl_flatMap]
      congr 1
      funext returnNodes type
      cases byType.get? type <;> simp

variable {nodeName name : String}

theorem mem_getConnectedNodesFrom_succ {fuel : Nat} :
    name ∈ getConnectedNodesFrom connections connectionType (fuel + 1) nodeName depth checkedNodes ↔
      depth ≠ 0 ∧ nodeName ∉ checkedNodes ∧ ∃ target,
        connections.LinkedOver connectionType nodeName target ∧
        target ∉ checkedNodes ++ [nodeName] ∧
        (name = target ∨ name ∈ getConnectedNodesFrom connections connectionType fuel target
            (if depth = -1 then depth else depth - 1)
            (checkedNodes ++ [nodeName])) := by
  rw [getConnectedNodesFrom_succ]
  by_cases stopped : depth = 0 ∨ nodeName ∈ checkedNodes
  · rw [if_pos stopped]
    simp only [List.not_mem_nil, false_iff]
    intro mem
    exact stopped.elim mem.1 mem.2.1
  · rw [if_neg stopped, mem_foldl_visitConnection]
    rw [not_or] at stopped
    simp only [IConnections.linkedOver_iff_mem, stopped.1, stopped.2,
      List.not_mem_nil, false_or, ne_eq, not_false_eq_true, true_and]
    constructor
    · intro visited
      obtain ⟨connection, mem, later⟩ := visited
      exact ⟨connection.node, ⟨connection, mem, rfl⟩, later⟩
    · intro visited
      obtain ⟨target, ⟨connection, mem, same⟩, later⟩ := visited
      subst same
      exact ⟨connection, mem, later⟩

theorem mem_getConnectedNodesFrom {fuel : Nat} :
    name ∈ getConnectedNodesFrom connections connectionType fuel nodeName depth checkedNodes ↔
      ∃ left, left ≠ [] ∧ SimplePath (connections.LinkedOver connectionType) nodeName left name ∧
        (∀ visited ∈ left ++ [name], visited ∉ checkedNodes) ∧
        left.length ≤ fuel ∧ WithinDepth depth left.length := by
  induction fuel generalizing nodeName depth checkedNodes with
  | zero =>
    simp only [getConnectedNodesFrom, List.not_mem_nil, false_iff]
    intro found
    obtain ⟨left, nonempty, _, _, enough, _⟩ := found
    exact nonempty (List.length_eq_zero_iff.mp (Nat.le_zero.mp enough))
  | succ fuel ih =>
    rw [mem_getConnectedNodesFrom_succ]
    constructor
    · intro found
      obtain ⟨positive, unchecked, target, linked, fresh, later⟩ := found
      rw [List.mem_append, not_or, List.mem_singleton] at fresh
      rcases later with same | later
      · subst target
        refine ⟨[nodeName], by simp, ⟨.cons linked (.nil name), ?_⟩, ?_,
          by simp, (withinDepth_succ positive).mpr ?_⟩
        · simpa using Ne.symm fresh.2
        · simpa using ⟨unchecked, fresh.1⟩
        · unfold WithinDepth
          split <;> simp <;> omega
      · obtain ⟨left, _, ⟨path, nodup⟩, avoids, enough, within⟩ := ih.mp later
        refine ⟨nodeName :: left, by simp, ⟨.cons linked path, ?_⟩, ?_,
          by simpa using enough, (withinDepth_succ positive).mpr within⟩
        · rw [List.cons_append, List.nodup_cons]
          exact ⟨fun mem => avoids nodeName mem (by simp), nodup⟩
        · intro visited mem
          rcases List.mem_cons.mp mem with same | mem
          · exact same ▸ unchecked
          · exact fun present =>
              avoids visited mem (List.mem_append_left _ present)
    · intro found
      obtain ⟨left, nonempty, ⟨path, nodup⟩, avoids, enough, within⟩ := found
      cases path with
      | nil _ => exact absurd rfl nonempty
      | @cons _ next _ left linked path =>
        rw [List.cons_append, List.nodup_cons] at nodup
        have positive : depth ≠ 0 := by
          intro stopped
          simp only [WithinDepth, List.length_cons] at within
          omega
        have avoidsLater : ∀ visited ∈ left ++ [name], visited ∉ checkedNodes ++ [nodeName] := by
          intro visited mem present
          rcases List.mem_append.mp present with old | new
          · exact avoids visited (List.mem_cons_of_mem _ mem) old
          · exact nodup.1 (List.mem_singleton.mp new ▸ mem)
        have nextMem : next ∈ left ++ [name] := by
          rw [path.vertices_eq]
          exact List.mem_cons_self
        refine ⟨positive, avoids nodeName (by simp), next, linked, avoidsLater next nextMem, ?_⟩
        by_cases last : left = []
        · subst left
          cases path with
          | nil _ => exact .inl rfl
        · exact .inr (ih.mpr ⟨left, last, ⟨path, nodup.2⟩, avoidsLater,
            by simpa using enough, (withinDepth_succ positive).mp within⟩)

theorem VertexPath.left_mem_keys {left : List String}
    (path : VertexPath (connections.LinkedOver connectionType) nodeName left name) :
    ∀ visited ∈ left, visited ∈ connections.keys := by
  induction path with
  | nil vertex => simp
  | @cons nodeName next name left linked path ih =>
    intro visited mem
    rcases List.mem_cons.mp mem with same | mem
    · subst visited
      obtain ⟨_, _, index, connection, ⟨inputs, conns, found, _, _⟩, _⟩ := linked
      simp only [IConnections.at?, Option.bind_eq_some_iff] at found
      obtain ⟨byType, byTypeFound, _⟩ := found
      by_contra absent
      rw [OrderedMap.get?_eq_none_iff.mpr absent] at byTypeFound
      simp at byTypeFound
    · exact ih visited mem

theorem SimplePath.length_le_size {left : List String}
    (simple : SimplePath (connections.LinkedOver connectionType) nodeName left name) :
    left.length ≤ connections.size := by
  have bounded : left.length ≤ connections.keys.length :=
    List.Nodup.length_le_of_subset (List.nodup_append.mp simple.2).1
      fun visited mem => VertexPath.left_mem_keys simple.1 visited mem
  simpa only [OrderedMap.keys, OrderedMap.size, List.length_map] using bounded

theorem mem_getConnectedNodes_iff :
    name ∈ getConnectedNodes connections nodeName connectionType depth ↔ name ≠ nodeName ∧ ∃ left,
        VertexPath (connections.LinkedOver connectionType) nodeName left name ∧
          WithinDepth depth left.length := by
  rw [getConnectedNodes, mem_getConnectedNodesFrom]
  constructor
  · intro found
    obtain ⟨left, nonempty, ⟨path, nodup⟩, _, _, within⟩ := found
    refine ⟨?_, left, path, within⟩
    intro same
    subst same
    cases path with
    | nil _ => exact nonempty rfl
    | cons linked path => simp at nodup
  · intro found
    obtain ⟨ne, left, path, within⟩ := found
    obtain ⟨simple, isSimple, sublist⟩ := path.exists_simple
    refine ⟨simple, ?_, isSimple, by simp,
      Nat.le_succ_of_le (SimplePath.length_le_size isSimple), ?_⟩
    · intro empty
      subst empty
      cases isSimple.1
      exact ne rfl
    · have shorter := sublist.length_le
      unfold WithinDepth at within ⊢
      omega

end GetConnectedNodes

end N8n
