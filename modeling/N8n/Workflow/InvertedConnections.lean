import Mathlib.Data.List.Count
import N8n.Library.CountedEntries
import N8n.Workflow.Workflow

/-!
# Inverted connections

Each connection of a table shows once in the inverted table, seen from its
target.  Hence inverting twice gives the connections back.  The `Workflow`
class has a copy of the four loops, which build the same table.
-/

namespace N8n

open List OrderedMap IConnections SourceConnection

def SourceConnection.reversed (source : SourceConnection) : SourceConnection where
  fromNode := source.connection.node
  outputType := source.connection.type
  outputIndex := source.connection.index.toNat
  connection := source.origin

theorem SourceConnection.reversed_reversed {source : SourceConnection}
    (nonneg : 0 ≤ source.connection.index) :
    source.reversed.reversed = source := by
  obtain ⟨fromNode, outputType, outputIndex, node, type, index⟩ := source
  simp only [reversed, origin, Int.toNat_natCast, SourceConnection.mk.injEq,
    IConnection.mk.injEq, true_and]
  exact Int.toNat_of_nonneg nonneg

section Count

theorem count_enumerate (connections : IConnections) (source : SourceConnection) :
    connections.enumerate.count source =
      (listedAt ((connections.at? source.fromNode source.outputType).getD [])
        source.outputIndex).count source.connection := by
  obtain ⟨fromNode, outputType, outputIndex, connection⟩ := source
  have counted : ∀ conns : Option (List IConnection), ((conns.getD []).map fun connection =>
        (⟨fromNode, outputType, outputIndex, connection⟩ : SourceConnection)).count
            ⟨fromNode, outputType, outputIndex, connection⟩ =
        (conns.getD []).count connection := by
    intro conns
    exact count_map_of_injective (conns.getD [])
      (SourceConnection.mk fromNode outputType outputIndex)
      (fun left right same => (SourceConnection.mk.inj same).2.2.2) connection
  rw [enumerate, count_flatMap_ownEntries]
  · simp only [at?]
    cases connections.get? fromNode with
    | none => simp [listedAt]
    | some byType =>
      simp only [Option.bind_some]
      rw [count_flatMap_entries]
      · cases byType.get? outputType with
        | none => simp [listedAt]
        | some outputs =>
          simp only
          rw [count_flatMap_zipIdx outputs]
          · cases found : outputs[outputIndex]? with
            | none => simp [listedAt, found]
            | some conns =>
              simp only [listedAt, Option.getD_some, found, Option.join_some]
              exact counted conns
          · intro entry listed
            obtain ⟨other, _, same⟩ := mem_map.mp listed
            exact (SourceConnection.mk.inj same).2.2.1
      · intro entry listed
        simp only [mem_flatMap, mem_map] at listed
        obtain ⟨_, _, other, _, same⟩ := listed
        exact (SourceConnection.mk.inj same).2.1
  · intro entry listed
    simp only [mem_flatMap, mem_map] at listed
    obtain ⟨_, _, _, _, other, _, same⟩ := listed
    exact (SourceConnection.mk.inj same).1

theorem count_addByDestination {table : IConnections}
    (present : table.AllPresent) {added : SourceConnection}
    (nonneg : 0 ≤ added.connection.index) (source : SourceConnection) :
    (addByDestination table added).enumerate.count source = table.enumerate.count source +
        if added.reversed = source then 1 else 0 := by
  rw [count_enumerate, count_enumerate, at?_addByDestination]
  have oldPresent : ∀ conns ∈ (table.at? source.fromNode source.outputType).getD [],
      conns.isSome := by
    cases found : table.at? source.fromNode source.outputType with
    | none => simp
    | some inputs => exact present _ _ inputs found
  obtain ⟨fromNode, outputType, outputIndex, edge⟩ := source
  by_cases here : added.connection.node = fromNode ∧ added.connection.type = outputType
  · rw [if_pos here, Option.getD_some, listedAt_pushInput oldPresent, count_append]
    have sameIndex : added.connection.index = (outputIndex : Int) ↔
        added.connection.index.toNat = outputIndex := by omega
    simp only [SourceConnection.reversed, SourceConnection.mk.injEq, here, true_and, sameIndex]
    by_cases same : added.connection.index.toNat = outputIndex
    · simp [same, count_cons]
    · simp [same]
  · rw [if_neg here, if_neg, Nat.add_zero]
    intro same
    simp only [SourceConnection.reversed, SourceConnection.mk.injEq] at same
    exact here ⟨same.1, same.2.1⟩

theorem count_foldl_addByDestination {sources : List SourceConnection}
    (nonneg : ∀ source ∈ sources, 0 ≤ source.connection.index)
    {table : IConnections} (present : table.AllPresent)
    (source : SourceConnection) :
    (sources.foldl addByDestination table).enumerate.count source = table.enumerate.count source +
        (sources.map SourceConnection.reversed).count source := by
  induction sources generalizing table with
  | nil => simp
  | cons added sources ih =>
    rw [forall_mem_cons] at nonneg
    rw [foldl_cons, ih nonneg.2 (allPresent_addByDestination present added),
      count_addByDestination present nonneg.1, map_cons,
      count_cons]
    simp only [beq_iff_eq]
    omega

end Count

variable {connections : IConnections}

theorem enumerate_mapConnectionsByDestination
    (nonneg : ∀ source ∈ connections.enumerate, 0 ≤ source.connection.index) :
    (mapConnectionsByDestination connections).enumerate.Perm
      (connections.enumerate.map SourceConnection.reversed) := by
  rw [perm_iff_count]
  intro source
  have present : IConnections.AllPresent .empty := by
    intro node type inputs found
    simp [at?] at found
  rw [mapConnectionsByDestination, count_foldl_addByDestination nonneg present]
  simp [enumerate, ownEntries]

theorem enumerate_mapConnectionsByDestination_twice
    (nonneg : ∀ source ∈ connections.enumerate, 0 ≤ source.connection.index) :
    (mapConnectionsByDestination (mapConnectionsByDestination connections)).enumerate.Perm
        connections.enumerate := by
  have once := enumerate_mapConnectionsByDestination nonneg
  -- The inverted table has output indexes for its input indexes.
  have again : ∀ source ∈ (mapConnectionsByDestination connections).enumerate,
      0 ≤ source.connection.index := by
    intro source listed
    obtain ⟨original, _, same⟩ := mem_map.mp (once.mem_iff.mp listed)
    subst same
    exact Int.natCast_nonneg original.outputIndex
  have twice := enumerate_mapConnectionsByDestination again
  have back : (connections.enumerate.map SourceConnection.reversed).map
      SourceConnection.reversed = connections.enumerate := by
    calc (connections.enumerate.map SourceConnection.reversed).map SourceConnection.reversed
        = connections.enumerate.map id := by
          rw [map_map]
          apply map_congr_left
          intro source listed
          exact reversed_reversed (nonneg source listed)
      _ = connections.enumerate := map_id _
  rw [← back]
  exact twice.trans (once.map _)

namespace Workflow

/-- The innermost loop of the copy: push as many empty inputs. -/
def pushEmptyInputs : Nat → NodeInputConnections → NodeInputConnections
  | 0, inputs => inputs
  | missing + 1, inputs => pushEmptyInputs missing (inputs ++ [some []])

def pushByDestination (returnConnection : IConnections) (sourceNode : String)
    (type : NodeConnectionType) (inputIndex : Nat)
    (connectionInfo : IConnection) : IConnections :=
  let returnConnection :=
    if (returnConnection.get? connectionInfo.node).isSome then
      returnConnection
    else returnConnection.set connectionInfo.node .empty
  let byType := (returnConnection.get? connectionInfo.node).getD .empty
  let byType :=
    if (byType.get? connectionInfo.type).isSome then byType
    else byType.set connectionInfo.type []
  let inputs := (byType.get? connectionInfo.type).getD []
  let maxIndex : Int := inputs.length - 1
  let inputs := pushEmptyInputs (connectionInfo.index - maxIndex).toNat inputs
  returnConnection.set connectionInfo.node (byType.set connectionInfo.type
      (pushInput inputs connectionInfo.index { node := sourceNode, type, index := inputIndex }))

def getConnectionsByDestination (connections : IConnections) : IConnections :=
  connections.ownEntries.foldl (fun returnConnection (sourceNode, byType) =>
    byType.entries.foldl (fun returnConnection (type, outputs) =>
      outputs.zipIdx.foldl (fun returnConnection (conns, inputIndex) =>
        (conns.getD []).foldl (fun returnConnection connectionInfo =>
          pushByDestination returnConnection sourceNode type inputIndex connectionInfo)
          returnConnection)
        returnConnection)
      returnConnection)
    .empty

theorem pushEmptyInputs_eq (missing : Nat) (inputs : NodeInputConnections) :
    pushEmptyInputs missing inputs = inputs ++ List.replicate missing (some []) := by
  induction missing generalizing inputs with
  | zero => simp [pushEmptyInputs]
  | succ missing ih =>
    rw [pushEmptyInputs, ih, append_assoc, replicate_succ]
    simp

theorem pushByDestination_eq (table : IConnections) (source : SourceConnection) :
    pushByDestination table source.fromNode source.outputType
      source.outputIndex source.connection = addByDestination table source := by
  have missing : ∀ inputs : NodeInputConnections,
      (source.connection.index - ((inputs.length : Int) - 1)).toNat =
        (source.connection.index + 1 - inputs.length).toNat := by
    intro inputs
    omega
  simp only [pushByDestination, addByDestination, pushEmptyInputs_eq, missing, padInputs]
  cases node : table.get? source.connection.node with
  | none => simp [OrderedMap.set_set]
  | some byType =>
    cases type : byType.get? source.connection.type with
    | none => simp [node, type, OrderedMap.set_set]
    | some inputs => simp [node, type]

theorem getConnectionsByDestination_eq (connections : IConnections) :
    getConnectionsByDestination connections = mapConnectionsByDestination connections := by
  rw [mapConnectionsByDestination, enumerate, getConnectionsByDestination]
  simp only [foldl_flatMap, foldl_map]
  simp only [← pushByDestination_eq]

end Workflow

namespace InvertedConnectionsExample

/-- A missing first output, and the same connection listed twice. -/
def gaps : IConnections :=
  empty.set "Split" (empty.set .main [none, some [⟨"Merge", .main, 2⟩, ⟨"Merge", .main, 2⟩]])

end InvertedConnectionsExample

end N8n
