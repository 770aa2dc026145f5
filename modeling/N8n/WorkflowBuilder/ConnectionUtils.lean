import N8n.Workflow.Interfaces

/-!
# Edits of single connections

An edge is found under the index of its output, so that the clean-up of a removal,
which leaves out empty outputs, moves the edges behind them.
-/

namespace N8n

open OrderedMap List Nat

namespace ConnectionUtils

/-- The output with an index, empty if there is none. -/
def listAt (outputs : NodeInputConnections) (index : Nat) : List IConnection :=
  (outputs[index]?.join).getD []

def outputsOf (connections : IConnections) (source : String)
    (type : NodeConnectionType) : NodeInputConnections :=
  ((connections.get? source).bind fun types => types.get? type).getD []

def createConnection (connections : IConnections)
    (sourceNodeName targetNodeName : String) (connectionType : NodeConnectionType)
    (sourceOutputIndex : Nat) (targetInputIndex : Int) : IConnections :=
  let types := (connections.get? sourceNodeName).getD .empty
  let connectionArray := (types.get? connectionType).getD []
  let connectionArray := connectionArray ++
    List.replicate (sourceOutputIndex + 1 - connectionArray.length) (some [])
  let list := listAt connectionArray sourceOutputIndex
  let existing := list.any fun conn =>
    conn.node = targetNodeName ∧ conn.index = targetInputIndex
  let list := if existing then list
    else list ++ [{ node := targetNodeName, type := connectionType, index := targetInputIndex }]
  connections.set sourceNodeName
    (types.set connectionType (connectionArray.set sourceOutputIndex (some list)))

/-- The outputs before the clean-up. -/
def removeFrom (connectionArray : NodeInputConnections) (targetNodeName : String)
    (sourceOutputIndex : Option Nat) (targetInputIndex : Option Int) :
    NodeInputConnections :=
  match sourceOutputIndex with
  | some sourceOutputIndex =>
    connectionArray.modify sourceOutputIndex (Option.map (List.filter fun conn =>
      conn.node ≠ targetNodeName ∨ ∃ index ∈ targetInputIndex, conn.index ≠ index))
  | none => connectionArray.map (Option.map (List.filter fun conn =>
    conn.node ≠ targetNodeName))

def isFull (list : Option (List IConnection)) : Bool := !(list.getD []).isEmpty

def removeConnection (connections : IConnections)
    (sourceNodeName targetNodeName : String) (connectionType : NodeConnectionType)
    (sourceOutputIndex : Option Nat) (targetInputIndex : Option Int) :
    IConnections :=
  match connections.get? sourceNodeName with
  | none => connections
  | some types =>
    match types.get? connectionType with
    | none => connections
    | some connectionArray =>
      let cleaned := (removeFrom connectionArray targetNodeName sourceOutputIndex
        targetInputIndex).filter isFull
      let types := if cleaned = [] then types.delete connectionType
        else types.set connectionType cleaned
      if types.keys = [] then connections.delete sourceNodeName
      else connections.set sourceNodeName types

structure Edge where
  source : String
  type : NodeConnectionType
  output : Nat
  target : String
  input : Int

def HasEdge (connections : IConnections) (edge : Edge) : Prop :=
  ∃ conn ∈ listAt (outputsOf connections edge.source edge.type) edge.output,
    conn.node = edge.target ∧ conn.index = edge.input

/-- What is promised of the edits of an edge, and of the removal of all edges
beside it. -/
structure EditsEdges (connections : IConnections) (edge : Edge) : Prop where
  creates : ∀ other, HasEdge (createConnection connections edge.source edge.target
    edge.type edge.output edge.input) other ↔ other = edge ∨ HasEdge connections other
  removes : ∀ other, HasEdge (removeConnection connections edge.source edge.target
    edge.type (some edge.output) (some edge.input)) other ↔ HasEdge connections other ∧ other ≠ edge
  removesAll : ∀ other, HasEdge (removeConnection connections edge.source edge.target
    edge.type none none) other ↔ HasEdge connections other ∧
      ¬ (other.source = edge.source ∧ other.type = edge.type ∧ other.target = edge.target)

/-- The edge at an output beside the given one. -/
def Edge.at (edge : Edge) (output : Nat) (conn : IConnection) : Edge :=
  { edge with output, target := conn.node, input := conn.index }

/-- No output that keeps a connection is behind one that keeps none. -/
def KeepsPlaces (connections : IConnections) (edge : Edge) (gone : Edge → Prop) : Prop :=
  let outputs := outputsOf connections edge.source edge.type
  ∀ before behind, before < behind → (∀ conn ∈ listAt outputs before, gone (edge.at before conn)) →
      ∀ conn ∈ listAt outputs behind, gone (edge.at behind conn)

def LeavesNoGap (connections : IConnections) (edge : Edge) : Prop :=
  KeepsPlaces connections edge (fun other => other = edge) ∧
  KeepsPlaces connections edge (fun other => other.target = edge.target)

section Outputs

variable {outputs : NodeInputConnections}

theorem isFull_eq_false {list : Option (List IConnection)} :
    isFull list = false ↔ listAt (list :: outputs) 0 = [] := by
  simp [isFull, listAt]

theorem listAt_eq_nil (none : listAt (outputs.filter isFull) 0 = []) (index : Nat) :
    listAt outputs index = [] := by
  have isNil : outputs.filter isFull = [] := by
    cases filtered : outputs.filter isFull with
    | nil => rfl
    | cons list rest =>
      have mem : list ∈ outputs.filter isFull := by simp [filtered]
      have full := (mem_filter.mp mem).2
      rw [filtered] at none
      rw [isFull_eq_false.mpr none] at full
      cases full
  cases found : outputs[index]? with
  | none => simp [listAt, found]
  | some list =>
    have empty := filter_eq_nil_iff.mp isNil list (mem_of_getElem? found)
    simpa [listAt, found, isFull] using empty

/-- Outputs that are left out do not move others when only empty ones follow. -/
theorem listAt_filter_isFull
    (settled : ∀ before behind, before < behind → listAt outputs before = [] →
      listAt outputs behind = []) (index : Nat) :
    listAt (outputs.filter isFull) index = listAt outputs index := by
  induction outputs generalizing index with
  | nil => rfl
  | cons list outputs ih =>
    have later := ih fun before behind less =>
      settled (before + 1) (behind + 1) (succ_lt_succ less)
    cases full : isFull list with
    | true =>
      rw [filter_cons_of_pos full]
      cases index with
      | zero => rfl
      | succ index => exact later index
    | false =>
      have empty : listAt (list :: outputs) 0 = [] := isFull_eq_false.mp full
      have behind (index : Nat) : listAt outputs index = [] :=
        settled 0 (index + 1) (succ_pos index) empty
      rw [filter_cons_of_neg (by simp [full]), later, behind]
      cases index with
      | zero => exact empty.symm
      | succ index => exact (behind index).symm

theorem settled_of_listAt_filter (kept : ∀ index, listAt outputs index = [] →
      listAt (outputs.filter isFull) index = [])
    (before behind : Nat) (less : before < behind) (empty : listAt outputs before = []) :
    listAt outputs behind = [] := by
  induction outputs generalizing before behind with
  | nil => rfl
  | cons list outputs ih =>
    obtain ⟨behind, rfl⟩ := exists_eq_add_one_of_ne_zero (ne_of_gt (zero_lt_of_lt less))
    cases full : isFull list with
    | true =>
      rw [filter_cons_of_pos full] at kept
      cases before with
      | zero =>
        rw [isFull_eq_false.mpr empty] at full
        cases full
      | succ before =>
        exact ih (fun index => kept (index + 1)) before behind (lt_of_succ_lt_succ less) empty
    | false =>
      rw [filter_cons_of_neg (by simp [full])] at kept
      exact listAt_eq_nil (kept 0 (isFull_eq_false.mp full)) behind

end Outputs

theorem outputsOf_set (connections : IConnections) (source : String)
    (type : NodeConnectionType) (outputs : NodeInputConnections) (source' : String)
    (type' : NodeConnectionType) :
    outputsOf (connections.set source
      (((connections.get? source).getD .empty).set type outputs)) source' type' =
      if source' = source ∧ type' = type then outputs
      else outputsOf connections source' type' := by
  by_cases sameSource : source' = source
  · subst sameSource
    by_cases sameType : type' = type
    · simp [outputsOf, sameType]
    · cases found : connections.get? source' with
      | none =>
        simp [outputsOf, found, get?_set, sameType, Ne.symm sameType]
      | some types =>
        simp [outputsOf, found, get?_set, sameType, Ne.symm sameType]
  · simp [outputsOf, get?_set, sameSource, Ne.symm sameSource]

theorem outputsOf_removeConnection (connections : IConnections)
    (source target : String) (type : NodeConnectionType) (output : Option Nat)
    (input : Option Int) (source' : String) (type' : NodeConnectionType) :
    outputsOf (removeConnection connections source target type output input) source' type' =
      if source' = source ∧ type' = type then
        (removeFrom (outputsOf connections source type) target output input).filter isFull
      else outputsOf connections source' type' := by
  have missing : outputsOf connections source type = [] →
      outputsOf connections source' type' = if source' = source ∧ type' = type then
        (removeFrom (outputsOf connections source type) target output input).filter
          isFull else outputsOf connections source' type' := by
    intro none
    split
    next same =>
      rw [same.1, same.2, none]
      cases output <;> simp [removeFrom]
    · rfl
  unfold removeConnection
  cases found : connections.get? source with
  | none => exact missing (by simp [outputsOf, found])
  | some types =>
    cases foundType : types.get? type with
    | none => simpa only [foundType] using missing (by simp [outputsOf, found, foundType])
    | some connectionArray =>
      have isArray : outputsOf connections source type = connectionArray := by
        simp [outputsOf, found, foundType]
      simp only [isArray, foundType]
      generalize (removeFrom connectionArray target output input).filter isFull = cleaned
      generalize isNew : (if cleaned = [] then types.delete type
        else types.set type cleaned) = types'
      have new : (types'.get? type').getD [] =
          if type' = type then cleaned else (types.get? type').getD [] := by
        subst isNew
        by_cases sameType : type' = type
        · split <;> simp [*, get?_delete]
        · split <;> simp [get?_delete, get?_set, Ne.symm sameType]
      by_cases sameSource : source' = source
      · have result : outputsOf (if types'.keys = [] then connections.delete source
            else connections.set source types') source type' = (types'.get? type').getD [] := by
          split
          next empty =>
            have none : types'.get? type' = none := get?_eq_none_iff.mpr (by simp [empty])
            simp [outputsOf, get?_delete, none]
          · simp [outputsOf]
        rw [sameSource, result, new]
        simp [outputsOf, found]
      · split <;> simp [outputsOf, get?_delete, get?_set, sameSource, Ne.symm sameSource]

variable {outputs : NodeInputConnections}

/-- Removals that go through the clean-up remove their edges exactly if they leave
no gap. -/
theorem hasEdge_iff_keepsPlaces (gone : Edge → Prop)
    {connections after : IConnections} {edge : Edge}
    (cleaned : ∀ source type, outputsOf after source type =
      if source = edge.source ∧ type = edge.type then outputs.filter isFull
      else outputsOf connections source type)
    (removed : ∀ output conn, conn ∈ listAt outputs output ↔
      conn ∈ listAt (outputsOf connections edge.source edge.type) output ∧
        ¬ gone (edge.at output conn)) :
    (∀ other, HasEdge after other ↔ HasEdge connections other ∧
      ¬ (other.source = edge.source ∧ other.type = edge.type ∧ gone other)) ↔
        KeepsPlaces connections edge gone := by
  have allGone (output : Nat) : listAt outputs output = [] ↔
      ∀ conn ∈ listAt (outputsOf connections edge.source edge.type) output,
        gone (edge.at output conn) := by
    simp [eq_nil_iff_forall_not_mem, removed]
  unfold KeepsPlaces
  simp only [← allGone]
  constructor
  · intro removes
    refine settled_of_listAt_filter fun index empty => ?_
    refine eq_nil_iff_forall_not_mem.mpr fun conn mem => ?_
    have stays : HasEdge after (edge.at index conn) :=
      ⟨conn, by rwa [cleaned, if_pos ⟨rfl, rfl⟩], rfl, rfl⟩
    obtain ⟨⟨conn', mem', node, input⟩, notGone⟩ := (removes _).mp stays
    have same : edge.at index conn' = edge.at index conn := by
      rw [Edge.at, node, input]
      rfl
    have inside : conn' ∈ listAt outputs index :=
      (removed index conn').mpr ⟨mem', fun gone => notGone ⟨rfl, rfl, same ▸ gone⟩⟩
    simp [empty] at inside
  · intro settled other
    unfold HasEdge
    rw [cleaned]
    by_cases beside : other.source = edge.source ∧ other.type = edge.type
    · have isAt (conn : IConnection) (node : conn.node = other.target)
          (input : conn.index = other.input) : edge.at other.output conn = other := by
        rw [Edge.at, node, input, ← beside.1, ← beside.2]
      rw [if_pos beside, listAt_filter_isFull settled, beside.1, beside.2]
      constructor
      · rintro ⟨conn, mem, node, input⟩
        obtain ⟨mem, notGone⟩ := (removed _ conn).mp mem
        exact ⟨⟨conn, mem, node, input⟩, fun gone =>
          notGone (isAt conn node input ▸ gone.2.2)⟩
      · rintro ⟨⟨conn, mem, node, input⟩, notGone⟩
        refine ⟨conn, (removed _ conn).mpr ⟨mem, fun gone => notGone ?_⟩, node, input⟩
        exact ⟨rfl, rfl, isAt conn node input ▸ gone⟩
    · rw [if_neg beside]
      exact ⟨fun has => ⟨has, fun gone => beside ⟨gone.1, gone.2.1⟩⟩, fun has => has.1⟩

theorem mem_listAt_removeFrom_some (outputs : NodeInputConnections) (edge : Edge)
    (output : Nat) (conn : IConnection) :
    conn ∈ listAt (removeFrom outputs edge.target (some edge.output) (some edge.input)) output ↔
      conn ∈ listAt outputs output ∧ ¬ edge.at output conn = edge := by
  have isEdge : edge.at output conn = edge ↔ edge.output = output ∧
      conn.node = edge.target ∧ conn.index = edge.input := by
    cases edge
    simp [Edge.at, eq_comm]
  rw [isEdge]
  cases found : outputs[output]? with
  | none => simp [listAt, removeFrom, getElem?_modify, found]
  | some list =>
    by_cases same : edge.output = output
    · cases list <;> simp [listAt, removeFrom, found, same, Classical.or_iff_not_imp_left]
    · simp [listAt, removeFrom, found, same]

theorem mem_listAt_removeFrom_none (outputs : NodeInputConnections) (edge : Edge)
    (output : Nat) (conn : IConnection) :
    conn ∈ listAt (removeFrom outputs edge.target none none) output ↔
      conn ∈ listAt outputs output ∧ ¬ (edge.at output conn).target = edge.target := by
  cases found : outputs[output]? with
  | none => simp [listAt, removeFrom, found]
  | some list => cases list <;> simp [listAt, removeFrom, found, Edge.at]

theorem listAt_set {output : Nat}
    (inside : output < outputs.length) (list : List IConnection) (index : Nat) :
    listAt (outputs.set output (some list)) index =
      if output = index then list else listAt outputs index := by
  rw [listAt, getElem?_set, if_pos inside]
  split
  · rfl
  · rfl

theorem listAt_append_replicate (outputs : NodeInputConnections) (count index : Nat) :
    listAt (outputs ++ List.replicate count (some [])) index = listAt outputs index := by
  rw [listAt, listAt, getElem?_append]
  split
  · rfl
  next beyond =>
    rw [getElem?_eq_none (not_lt.mp beyond), getElem?_replicate]
    split <;> rfl

theorem hasEdge_createConnection (connections : IConnections) (edge other : Edge) :
    HasEdge (createConnection connections edge.source edge.target edge.type edge.output
      edge.input) other ↔ other = edge ∨ HasEdge connections other := by
  have isArray : ((((connections.get? edge.source).getD .empty).get? edge.type).getD
      []) = outputsOf connections edge.source edge.type := by
    cases found : connections.get? edge.source <;> simp [outputsOf, found]
  unfold HasEdge createConnection
  rw [outputsOf_set, isArray]
  by_cases beside : other.source = edge.source ∧ other.type = edge.type
  · rw [if_pos beside, listAt_set (by simp; omega), beside.1, beside.2]
    simp only [listAt_append_replicate]
    have isEdge : other = edge ↔ edge.output = other.output ∧
        edge.target = other.target ∧ edge.input = other.input := by
      cases edge
      cases other
      simp_all [eq_comm]
    rw [isEdge]
    by_cases sameOutput : edge.output = other.output
    · rw [if_pos sameOutput, ← sameOutput]
      split
      next existing =>
        simp only [any_eq_true, decide_eq_true_eq] at existing
        constructor
        · exact .inr
        · rintro (⟨-, target, input⟩ | has)
          · rwa [← target, ← input]
          · exact has
      · simp [or_comm]
    · simp [sameOutput]
  · have ne : other ≠ edge := fun same => beside ⟨same ▸ rfl, same ▸ rfl⟩
    simp [beside, ne]

/-- Edits change one edge exactly if removals leave no gaps. -/
theorem editsEdges_iff (connections : IConnections) (edge : Edge) :
    EditsEdges connections edge ↔ LeavesNoGap connections edge := by
  have one := hasEdge_iff_keepsPlaces (fun other => other = edge)
    (outputsOf_removeConnection connections edge.source edge.target edge.type
      (some edge.output) (some edge.input))
    (mem_listAt_removeFrom_some (outputsOf connections edge.source edge.type) edge)
  have all := hasEdge_iff_keepsPlaces (fun other => other.target = edge.target)
    (outputsOf_removeConnection connections edge.source edge.target edge.type none none)
    (mem_listAt_removeFrom_none (outputsOf connections edge.source edge.type) edge)
  have same (other : Edge) : ¬ (other.source = edge.source ∧ other.type = edge.type ∧
      other = edge) ↔ other ≠ edge :=
    not_congr ⟨fun all => all.2.2, fun same => by simp [same]⟩
  simp only [same] at one
  unfold LeavesNoGap
  rw [← one, ← all]
  exact ⟨fun edits => ⟨edits.removes, edits.removesAll⟩, fun removes =>
    ⟨hasEdge_createConnection connections edge, removes.1, removes.2⟩⟩

namespace ConnectionUtilsExample

def connections : IConnections :=
  ofList [("If", ofList [(.main, [some [{ node := "Yes", type := .main, index := 0 }],
      some [{ node := "No", type := .main, index := 0 }]])])]

/-- With the first output empty, the second one becomes the first. -/
theorem not_editsEdges_firstOutput : ¬ EditsEdges connections
      { source := "If", type := .main, output := 0, target := "Yes", input := 0 } := by
  intro edits
  have moved := (edits.removes
    { source := "If", type := .main, output := 0, target := "No", input := 0 }).mp
      ⟨{ node := "No", type := .main, index := 0 }, by decide +kernel, rfl, rfl⟩
  obtain ⟨⟨conn, mem, node, -⟩, -⟩ := moved
  have only : conn ∈ [({ node := "Yes", type := .main, index := 0 } : IConnection)] := mem
  rw [mem_singleton.mp only] at node
  exact absurd node (by decide)

end ConnectionUtilsExample

end ConnectionUtils

end N8n
