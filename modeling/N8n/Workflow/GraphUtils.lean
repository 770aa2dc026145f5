import N8n.Library.InsertionSet
import N8n.Library.StackSearch
import N8n.Workflow.Interfaces

/-!
# Extractable selections

What a selection of nodes needs so that it can be moved into a workflow of its
own: one way in, one way out, and a path between the two.
-/

namespace N8n

open InsertionSet List

abbrev IConnectionAdjacencyList := OrderedMap String (List IConnection)

namespace GraphUtils

inductive ExtractableErrorResult where
  | multipleInputNodes (nodes : List String)
  | multipleOutputNodes (nodes : List String)
  | inputEdgeToNonRootNode (node : String)
  | outputEdgeFromNonLeafNode (node : String)
  | noContinuousPathFromRootToLeaf (start finish : String)

def ExtractableErrorResult.errorCode : ExtractableErrorResult → String
  | .multipleInputNodes _ => "Multiple Input Nodes"
  | .multipleOutputNodes _ => "Multiple Output Nodes"
  | .inputEdgeToNonRootNode _ => "Input Edge To Non-Root Node"
  | .outputEdgeFromNonLeafNode _ => "Output Edge From Non-Leaf Node"
  | .noContinuousPathFromRootToLeaf _ _ =>
    "No Continuous Path From Root To Leaf In Selection"

structure ExtractableSubgraphData where
  start : Option String
  finish : Option String

inductive ExtractionResult where
  | data (data : ExtractableSubgraphData)
  | errors (errors : List ExtractableErrorResult)

section Selection

variable (graphIds : InsertionSet String) (adjacencyList : IConnectionAdjacencyList)

def getInputEdges : List (String × IConnection) :=
  adjacencyList.entries.flatMap fun entry =>
    if entry.1 ∈ graphIds then []
    else (entry.2.filter fun connection => connection.node ∈ graphIds).map
      fun connection => (entry.1, connection)

def getOutputEdges : List (String × IConnection) :=
  adjacencyList.entries.flatMap fun entry =>
    if entry.1 ∉ graphIds then []
    else (entry.2.filter fun connection => connection.node ∉ graphIds).map
      fun connection => (entry.1, connection)

def otherTargets (nodeId : String) : InsertionSet String :=
  .ofList ((((adjacencyList.get? nodeId).getD []).filter fun connection =>
    connection.type = .main ∧ connection.node ≠ nodeId).map IConnection.node)

/-- Inner nodes have an incoming edge from another node of the selection. -/
def getRootNodes : InsertionSet String :=
  let innerNodes := graphIds.members.foldl (fun innerNodes nodeId =>
    innerNodes.union (otherTargets adjacencyList nodeId)) (.ofList [])
  graphIds.difference innerNodes

def getLeafNodes : InsertionSet String :=
  .ofList (graphIds.members.filter fun nodeId =>
    ((otherTargets adjacencyList nodeId).intersection graphIds).size = 0)

/-- Sub-nodes are no input nodes. -/
def inputNodes : InsertionSet String :=
  .ofList (((getInputEdges graphIds adjacencyList).filter fun edge =>
    edge.2.type = .main).map fun edge => edge.2.node)

def outputNodes : InsertionSet String :=
  .ofList (((getOutputEdges graphIds adjacencyList).filter fun edge =>
    edge.2.type = .main).map Prod.fst)

def mainTargets (nodeId : String) : List String :=
  (InsertionSet.ofList ((((adjacencyList.get? nodeId).getD []).filter
    fun connection => connection.type = .main).map IConnection.node)).members

variable (fuel : Nat)

/-- `none` when the fuel is used up. -/
def hasPath (start finish : String) : Option Bool :=
  StackSearch.search (mainTargets adjacencyList) finish fuel [] [start]

/-- Without any root (or leaf) a single node with connections to the outside is
tolerated. -/
def tolerate (allowed outer : InsertionSet String) : InsertionSet String :=
  if allowed.size = 0 ∧ outer.size = 1 then outer else allowed

/-- The errors of the nodes with connections from (or to) the outside. -/
def outerErrors (notAllowed : String → ExtractableErrorResult)
    (multiple : List String → ExtractableErrorResult)
    (allowed outer : InsertionSet String) : List ExtractableErrorResult :=
  let found := allowed.intersection outer
  (outer.difference allowed).members.map notAllowed ++
    if found.size > 1 then [multiple found.members] else []

/-- Whether a string is true as a condition. -/
def isNonempty (name : String) : Bool := name ≠ ""

def pathErrors (start finish : Option String) : Option (List ExtractableErrorResult) :=
  match start, finish with
  | some start, some finish =>
    if isNonempty start && isNonempty finish then
      (hasPath adjacencyList fuel start finish).map fun found =>
        if found then [] else [.noContinuousPathFromRootToLeaf start finish]
    else some []
  | _, _ => some []

def parseExtractableSubgraphSelection : Option ExtractionResult := do
  let inputNodes := inputNodes graphIds adjacencyList
  let rootNodes := tolerate (getRootNodes graphIds adjacencyList) inputNodes
  let inputErrors := outerErrors .inputEdgeToNonRootNode .multipleInputNodes rootNodes inputNodes
  let outputNodes := outputNodes graphIds adjacencyList
  let leafNodes := tolerate (getLeafNodes graphIds adjacencyList) outputNodes
  let outputErrors := outerErrors .outputEdgeFromNonLeafNode
    .multipleOutputNodes leafNodes outputNodes
  let start := (rootNodes.intersection inputNodes).first?
  let finish := (leafNodes.intersection outputNodes).first?
  let missingPath ← pathErrors adjacencyList fuel start finish
  let errors := inputErrors ++ outputErrors ++ missingPath
  return if errors.isEmpty then .data { start, finish } else .errors errors

end Selection

/-!
## What makes a selection extractable
-/

section Extractable

variable (graphIds : InsertionSet String) (adjacencyList : IConnectionAdjacencyList)

/-- A main connection leads from one node to the other. -/
def MainConnection (source target : String) : Prop :=
  ∃ connections, (source, connections) ∈ adjacencyList.entries ∧
    ∃ connection ∈ connections, connection.type = .main ∧ connection.node = target

section

variable (node : String)

def IsEntered : Prop :=
  node ∈ graphIds ∧ ∃ source, source ∉ graphIds ∧ MainConnection adjacencyList source node

/-- A main connection leaves the selection from the node. -/
def IsLeft : Prop :=
  node ∈ graphIds ∧ ∃ target, target ∉ graphIds ∧ MainConnection adjacencyList node target

def HasSelectedParent : Prop :=
  ∃ parent ∈ graphIds, parent ≠ node ∧ MainConnection adjacencyList parent node

def HasSelectedChild : Prop :=
  ∃ child ∈ graphIds, child ≠ node ∧ MainConnection adjacencyList node child

end

/-- At most this node has connections to the outside, and it has none on that
side from the inside unless all selected nodes have. -/
structure OnlyOuter (isOuter hasInner : String → Prop) (node : Option String) :
    Prop where
  only : ∀ other, isOuter other ↔ node = some other
  inner : ∀ outer, node = some outer → hasInner outer → ∀ other ∈ graphIds, hasInner other

def SelectedConnection (source target : String) : Prop :=
  source ∈ graphIds ∧ target ∈ graphIds ∧ MainConnection adjacencyList source target

/-- The two nodes are joined inside the selection. -/
def IsJoined (start finish : String) : Prop :=
  Relation.ReflTransGen (SelectedConnection graphIds adjacencyList) start finish

structure IsExtractable (data : ExtractableSubgraphData) : Prop where
  start : OnlyOuter graphIds (IsEntered graphIds adjacencyList)
    (HasSelectedParent graphIds adjacencyList) data.start
  finish : OnlyOuter graphIds (IsLeft graphIds adjacencyList)
    (HasSelectedChild graphIds adjacencyList) data.finish
  joined : ∀ start finish, data.start = some start → data.finish = some finish →
    IsJoined graphIds adjacencyList start finish

/-- With enough fuel the parser has a result, which is data exactly for an
extractable selection. -/
def RecognisesExtractable : Prop :=
  ∃ bound result, (∀ fuel, bound ≤ fuel →
      parseExtractableSubgraphSelection graphIds adjacencyList fuel = some result) ∧
    ∀ data, result = .data data ↔ IsExtractable graphIds adjacencyList data

end Extractable

variable {graphIds : InsertionSet String}
  {adjacencyList : IConnectionAdjacencyList} {node source target : String}
  {allowed outer : InsertionSet String} {isOuter hasInner : String → Prop}

theorem mainConnection_iff : MainConnection adjacencyList source target ↔
      ∃ edge ∈ (adjacencyList.get? source).getD [], edge.type = .main ∧ edge.node = target := by
  constructor
  · intro ⟨connections, stored, found⟩
    rw [← OrderedMap.get?_eq_some_iff] at stored
    rw [stored]
    exact found
  · intro ⟨edge, mem, found⟩
    cases stored : adjacencyList.get? source with
    | none =>
      rw [stored] at mem
      cases mem
    | some connections =>
      rw [stored] at mem
      exact ⟨connections, OrderedMap.get?_eq_some_iff.mp stored, edge, mem, found⟩

theorem mem_otherTargets : target ∈ otherTargets adjacencyList source ↔
      target ≠ source ∧ MainConnection adjacencyList source target := by
  rw [otherTargets, mem_ofList, mem_map, mainConnection_iff]
  constructor
  · intro ⟨edge, mem, same⟩
    obtain ⟨stored, isMain⟩ := mem_filter.mp mem
    rw [decide_eq_true_iff, same] at isMain
    exact ⟨isMain.2, edge, stored, isMain.1, same⟩
  · intro ⟨ne, edge, stored, isMain, same⟩
    refine ⟨edge, mem_filter.mpr ⟨stored, ?_⟩, same⟩
    rw [decide_eq_true_iff, same]
    exact ⟨isMain, ne⟩

theorem mem_mainTargets : target ∈ mainTargets adjacencyList source ↔
      MainConnection adjacencyList source target := by
  rw [mainTargets, ← mem_iff, mem_ofList, mem_map, mainConnection_iff]
  simp only [mem_filter, decide_eq_true_eq, and_assoc]

theorem mem_getRootNodes : node ∈ getRootNodes graphIds adjacencyList ↔
      node ∈ graphIds ∧ ¬ HasSelectedParent graphIds adjacencyList node := by
  have inner (nodeIds : List String) (start : InsertionSet String) :
      node ∈ nodeIds.foldl (fun innerNodes nodeId =>
          innerNodes.union (otherTargets adjacencyList nodeId)) start ↔
        node ∈ start ∨ ∃ parent ∈ nodeIds, node ∈ otherTargets adjacencyList parent := by
    induction nodeIds generalizing start with
    | nil => simp
    | cons nodeId nodeIds ih => simp [ih, or_assoc]
  rw [getRootNodes, mem_difference, inner]
  apply and_congr_right
  intro _
  rw [mem_ofList, or_iff_right not_mem_nil]
  apply not_congr
  constructor
  · intro ⟨parent, selected, isTarget⟩
    obtain ⟨other, connected⟩ := mem_otherTargets.mp isTarget
    exact ⟨parent, selected, other.symm, connected⟩
  · intro ⟨parent, selected, other, connected⟩
    exact ⟨parent, selected, mem_otherTargets.mpr ⟨other.symm, connected⟩⟩

theorem mem_getLeafNodes : node ∈ getLeafNodes graphIds adjacencyList ↔
      node ∈ graphIds ∧ ¬ HasSelectedChild graphIds adjacencyList node := by
  rw [getLeafNodes, mem_ofList, mem_filter, decide_eq_true_iff, size_eq_zero_iff, ← mem_iff]
  apply and_congr_right
  intro _
  constructor
  · intro none ⟨child, selected, other, connected⟩
    exact none child (mem_intersection.mpr ⟨mem_otherTargets.mpr ⟨other, connected⟩, selected⟩)
  · intro noChild child mem
    obtain ⟨isTarget, selected⟩ := mem_intersection.mp mem
    exact noChild ⟨child, selected, mem_otherTargets.mp isTarget⟩

theorem mem_inputNodes : node ∈ inputNodes graphIds adjacencyList ↔
      IsEntered graphIds adjacencyList node := by
  rw [inputNodes, mem_ofList]
  simp only [getInputEdges, mem_map, mem_filter, mem_flatMap, decide_eq_true_eq]
  constructor
  · intro ⟨edge, ⟨⟨entry, stored, isEdge⟩, isMain⟩, same⟩
    split at isEdge
    · cases isEdge
    next outside =>
      obtain ⟨connection, mem, isPair⟩ := mem_map.mp isEdge
      obtain ⟨listed, selected⟩ := mem_filter.mp mem
      subst isPair
      rw [← same]
      exact ⟨of_decide_eq_true selected, entry.1, outside, entry.2, stored,
        connection, listed, isMain, rfl⟩
  · intro ⟨selected, source, outside, connections, stored, connection, listed, isMain, same⟩
    refine ⟨(source, connection), ⟨⟨(source, connections), stored, ?_⟩, isMain⟩, same⟩
    rw [if_neg outside]
    exact mem_map.mpr ⟨connection, mem_filter.mpr ⟨listed, decide_eq_true (same ▸ selected)⟩, rfl⟩

theorem mem_outputNodes : node ∈ outputNodes graphIds adjacencyList ↔
      IsLeft graphIds adjacencyList node := by
  rw [outputNodes, mem_ofList]
  simp only [getOutputEdges, mem_map, mem_filter, mem_flatMap, decide_eq_true_eq]
  constructor
  · intro ⟨edge, ⟨⟨entry, stored, isEdge⟩, isMain⟩, same⟩
    split at isEdge
    · cases isEdge
    next inside =>
      obtain ⟨connection, mem, isPair⟩ := mem_map.mp isEdge
      obtain ⟨listed, outside⟩ := mem_filter.mp mem
      subst isPair
      rw [← same]
      exact ⟨not_not.mp inside, connection.node, of_decide_eq_true outside,
        entry.2, stored, connection, listed, isMain, rfl⟩
  · intro ⟨selected, target, outside, connections, stored, connection, listed, isMain, same⟩
    refine ⟨(node, connection), ⟨⟨(node, connections), stored, ?_⟩, isMain⟩, rfl⟩
    rw [if_neg (not_not.mpr selected)]
    exact mem_map.mpr ⟨connection, mem_filter.mpr ⟨listed, decide_eq_true (same ▸ outside)⟩, rfl⟩

section Outer

variable {notAllowed : String → ExtractableErrorResult}
  {multiple : List String → ExtractableErrorResult}

theorem outerErrors_eq_nil_iff : outerErrors notAllowed multiple allowed outer = [] ↔
      (∀ node ∈ outer, node ∈ allowed) ∧ (allowed.intersection outer).size ≤ 1 := by
  rw [outerErrors, append_eq_nil_iff, map_eq_nil_iff, eq_nil_iff_forall_not_mem]
  apply and_congr
  · constructor
    · intro none node isOuter
      by_contra outside
      exact none node (mem_difference.mpr ⟨isOuter, outside⟩)
    · intro all node mem
      obtain ⟨isOuter, outside⟩ := mem_difference.mp mem
      exact outside (all node isOuter)
  · split
    · simp
      omega
    · simp
      omega

theorem onlyOuter_of_noErrors (isOuter_iff : ∀ node, node ∈ outer ↔ isOuter node)
    (allowed_iff : ∀ node, node ∈ allowed ↔ node ∈ graphIds ∧ ¬ hasInner node)
    (noErrors : outerErrors notAllowed multiple (tolerate allowed outer) outer = []) :
    OnlyOuter graphIds isOuter hasInner ((tolerate allowed outer).intersection outer).first? := by
  obtain ⟨all, small⟩ := outerErrors_eq_nil_iff.mp noErrors
  have only : ∀ node, isOuter node ↔
      ((tolerate allowed outer).intersection outer).first? = some node := by
    intro node
    rw [← isOuter_iff, ← mem_iff_first? small, mem_intersection]
    exact ⟨fun mem => ⟨all node mem, mem⟩, And.right⟩
  refine ⟨only, ?_⟩
  intro node isFirst inner other selected
  have mem := (isOuter_iff node).mpr ((only node).mpr isFirst)
  have isTolerated := all node mem
  rw [tolerate] at isTolerated
  split at isTolerated
  next fallback =>
    by_contra noInner
    exact size_eq_zero_iff.mp fallback.1 other ((allowed_iff other).mpr ⟨selected, noInner⟩)
  · exact absurd inner ((allowed_iff node).mp isTolerated).2

theorem noErrors_of_onlyOuter (notAllowed : String → ExtractableErrorResult)
    (multiple : List String → ExtractableErrorResult)
    (isOuter_iff : ∀ node, node ∈ outer ↔ isOuter node)
    (allowed_iff : ∀ node, node ∈ allowed ↔ node ∈ graphIds ∧ ¬ hasInner node)
    (selected : ∀ node, isOuter node → node ∈ graphIds) {found : Option String}
    (onlyOuter : OnlyOuter graphIds isOuter hasInner found) :
    outerErrors notAllowed multiple (tolerate allowed outer) outer = [] ∧
      ((tolerate allowed outer).intersection outer).first? = found := by
  have only : ∀ node, node ∈ outer ↔ found = some node :=
    fun node => (isOuter_iff node).trans (onlyOuter.only node)
  obtain ⟨small, isFirst⟩ := first?_of_mem_iff only
  have all : ∀ node ∈ outer, node ∈ tolerate allowed outer := by
    intro node mem
    rw [tolerate]
    split
    · exact mem
    next notTolerated =>
      rw [allowed_iff]
      refine ⟨selected node ((isOuter_iff node).mp mem), ?_⟩
      intro inner
      apply notTolerated
      constructor
      · rw [size_eq_zero_iff]
        intro other isAllowed
        obtain ⟨otherSelected, noInner⟩ := (allowed_iff other).mp isAllowed
        exact noInner (onlyOuter.inner node ((only node).mp mem) inner other otherSelected)
      · have nonempty : outer.size ≠ 0 := fun isZero =>
          size_eq_zero_iff.mp isZero node mem
        omega
  have sameMembers : ∀ node, node ∈ (tolerate allowed outer).intersection outer ↔
        found = some node := by
    intro node
    rw [mem_intersection, ← only]
    exact ⟨And.right, fun mem => ⟨all node mem, mem⟩⟩
  obtain ⟨smallFound, isFound⟩ := first?_of_mem_iff sameMembers
  exact ⟨outerErrors_eq_nil_iff.mpr ⟨all, smallFound⟩, isFound⟩

end Outer

section

variable (adjacencyList : IConnectionAdjacencyList)

theorem hasPath_spec (start finish : String) :
    ∃ bound found, (∀ fuel, bound ≤ fuel → hasPath adjacencyList fuel start finish = some found) ∧
      (found = true ↔ Relation.ReflTransGen (MainConnection adjacencyList) start finish) := by
  let vertices : Finset String :=
    (start :: adjacencyList.entries.flatMap fun entry =>
      entry.2.map IConnection.node).toFinset
  have closed : ∀ vertex ∈ vertices,
      ∀ other ∈ mainTargets adjacencyList vertex, other ∈ vertices := by
    intro vertex _ other isTarget
    obtain ⟨connections, stored, edge, listed, _, same⟩ := mem_mainTargets.mp isTarget
    rw [mem_toFinset, ← same]
    apply mem_cons_of_mem
    exact mem_flatMap.mpr ⟨_, stored, mem_map_of_mem listed⟩
  have spec := StackSearch.search_spec finish vertices closed (mem_toFinset.mpr mem_cons_self)
  simp only [mem_mainTargets] at spec
  exact spec

theorem pathErrors_spec (start finish : Option String) : ∃ bound missing, (∀ fuel, bound ≤ fuel →
        pathErrors adjacencyList fuel start finish = some missing) ∧
      (missing = [] ↔ ∀ first last, start = some first → finish = some last →
        first ≠ "" → last ≠ "" →
        Relation.ReflTransGen (MainConnection adjacencyList) first last) := by
  cases start with
  | none => exact ⟨0, [], fun _ _ => rfl, by simp⟩
  | some first =>
    cases finish with
    | none => exact ⟨0, [], fun _ _ => rfl, by simp⟩
    | some last =>
      by_cases named : first ≠ "" ∧ last ≠ ""
      · obtain ⟨bound, found, ended, reaches⟩ := hasPath_spec adjacencyList first last
        refine ⟨bound, if found then []
          else [.noContinuousPathFromRootToLeaf first last], ?_, ?_⟩
        · intro fuel le
          rw [pathErrors, isNonempty, isNonempty, decide_eq_true named.1,
            decide_eq_true named.2, Bool.and_self, if_pos rfl,
            ended fuel le]
          rfl
        · cases found with
          | true =>
            have path := reaches.mp rfl
            simp [path]
          | false =>
            have noPath := reaches.not.mp Bool.false_ne_true
            simp [named, noPath]
      · refine ⟨0, [], ?_, ?_⟩
        · intro fuel _
          have unnamed : ¬ (isNonempty first && isNonempty last) = true := by
            rw [isNonempty, isNonempty, Bool.and_eq_true, decide_eq_true_iff, decide_eq_true_iff]
            exact named
          rw [pathErrors, if_neg unnamed]
        · constructor
          · intro _ _ _ isFirst isLast firstNamed lastNamed
            rw [← Option.some.inj isFirst] at firstNamed
            rw [← Option.some.inj isLast] at lastNamed
            exact absurd ⟨firstNamed, lastNamed⟩ named
          · exact fun _ => rfl

end

theorem isJoined_of_path {finish : String}
    (onlyLeft : ∀ node, IsLeft graphIds adjacencyList node → node = finish)
    (path : Relation.ReflTransGen (MainConnection adjacencyList) source finish)
    (selected : source ∈ graphIds) :
    IsJoined graphIds adjacencyList source finish := by
  induction path using Relation.ReflTransGen.head_induction_on with
  | refl => exact .refl
  | @head node next connected _ ih =>
    by_cases inside : next ∈ graphIds
    · exact .head ⟨selected, inside, connected⟩ (ih inside)
    · rw [onlyLeft node ⟨selected, next, inside, connected⟩]
      exact .refl

theorem path_of_isJoined (joined : IsJoined graphIds adjacencyList source target) :
    Relation.ReflTransGen (MainConnection adjacencyList) source target :=
  Relation.ReflTransGen.mono (fun _ _ (connected : SelectedConnection graphIds adjacencyList _ _) =>
      connected.2.2) _ _ joined

variable (graphIds adjacencyList) in
/-- A single way in and a single way out of which one has the empty name are
joined. -/
def EmptyNameIsJoined : Prop :=
  ∀ start finish, OnlyOuter graphIds (IsEntered graphIds adjacencyList)
      (HasSelectedParent graphIds adjacencyList) (some start) →
    OnlyOuter graphIds (IsLeft graphIds adjacencyList)
      (HasSelectedChild graphIds adjacencyList) (some finish) →
    start = "" ∨ finish = "" → IsJoined graphIds adjacencyList start finish

/-- The parser has data without errors in the selection, which are the nodes
with connections to the outside, and a path between those that have names. -/
theorem parse_spec (graphIds : InsertionSet String) (adjacencyList : IConnectionAdjacencyList) :
    ∃ bound result, (∀ fuel, bound ≤ fuel →
        parseExtractableSubgraphSelection graphIds adjacencyList fuel = some result) ∧
      ∀ data, result = .data data ↔ OnlyOuter graphIds (IsEntered graphIds adjacencyList)
          (HasSelectedParent graphIds adjacencyList) data.start ∧
        OnlyOuter graphIds (IsLeft graphIds adjacencyList)
          (HasSelectedChild graphIds adjacencyList) data.finish ∧
        ∀ start finish, data.start = some start → data.finish = some finish →
          start ≠ "" → finish ≠ "" →
          Relation.ReflTransGen (MainConnection adjacencyList) start finish := by
  generalize startEq : ((tolerate (getRootNodes graphIds adjacencyList)
      (inputNodes graphIds adjacencyList)).intersection
        (inputNodes graphIds adjacencyList)).first? = start
  generalize finishEq : ((tolerate (getLeafNodes graphIds adjacencyList)
      (outputNodes graphIds adjacencyList)).intersection
        (outputNodes graphIds adjacencyList)).first? = finish
  obtain ⟨bound, missing, ended, noneMissing⟩ := pathErrors_spec adjacencyList start finish
  generalize errorsEq : outerErrors .inputEdgeToNonRootNode .multipleInputNodes
        (tolerate (getRootNodes graphIds adjacencyList) (inputNodes graphIds adjacencyList))
        (inputNodes graphIds adjacencyList) ++
      outerErrors .outputEdgeFromNonLeafNode .multipleOutputNodes
        (tolerate (getLeafNodes graphIds adjacencyList) (outputNodes graphIds adjacencyList))
        (outputNodes graphIds adjacencyList) ++ missing = errors
  refine ⟨bound, if errors.isEmpty then .data { start, finish }
    else .errors errors, ?_, ?_⟩
  · intro fuel le
    simp only [parseExtractableSubgraphSelection, startEq, finishEq, ended fuel le,
      errorsEq, bind, Option.bind, pure]
  · intro data
    have noErrors : errors = [] ↔ outerErrors .inputEdgeToNonRootNode .multipleInputNodes
            (tolerate (getRootNodes graphIds adjacencyList) (inputNodes graphIds adjacencyList))
            (inputNodes graphIds adjacencyList) = [] ∧
          outerErrors .outputEdgeFromNonLeafNode .multipleOutputNodes
            (tolerate (getLeafNodes graphIds adjacencyList) (outputNodes graphIds adjacencyList))
            (outputNodes graphIds adjacencyList) = [] ∧ missing = [] := by
      rw [← errorsEq, append_eq_nil_iff, append_eq_nil_iff, and_assoc]
    constructor
    · intro isData
      split at isData
      next isEmpty =>
        obtain ⟨noInput, noOutput, noMissing⟩ := noErrors.mp (isEmpty_iff.mp isEmpty)
        rw [← ExtractionResult.data.inj isData, ← startEq, ← finishEq]
        refine ⟨onlyOuter_of_noErrors (fun _ => mem_inputNodes) (fun _ => mem_getRootNodes) noInput,
          onlyOuter_of_noErrors (fun _ => mem_outputNodes) (fun _ => mem_getLeafNodes) noOutput, ?_⟩
        rw [startEq, finishEq]
        exact noneMissing.mp noMissing
      · cases isData
    · intro ⟨entered, left, path⟩
      obtain ⟨noInput, isStart⟩ := noErrors_of_onlyOuter
        .inputEdgeToNonRootNode .multipleInputNodes (fun _ => mem_inputNodes)
        (fun _ => mem_getRootNodes) (fun _ isEntered => isEntered.1) entered
      obtain ⟨noOutput, isFinish⟩ := noErrors_of_onlyOuter
        .outputEdgeFromNonLeafNode .multipleOutputNodes (fun _ => mem_outputNodes)
        (fun _ => mem_getLeafNodes) (fun _ isLeft => isLeft.1) left
      have sameStart := startEq.symm.trans isStart
      have sameFinish := finishEq.symm.trans isFinish
      rw [← sameStart, ← sameFinish] at path
      rw [if_pos (isEmpty_iff.mpr (noErrors.mpr ⟨noInput, noOutput, noneMissing.mpr path⟩)),
        sameStart, sameFinish]

/-- Selections are recognised exactly when a way in and a way out of which one
has the empty name are joined. -/
theorem recognisesExtractable_iff (graphIds : InsertionSet String)
    (adjacencyList : IConnectionAdjacencyList) :
    RecognisesExtractable graphIds adjacencyList ↔ EmptyNameIsJoined graphIds adjacencyList := by
  obtain ⟨bound, result, ended, isData⟩ := parse_spec graphIds adjacencyList
  constructor
  · intro ⟨other, found, endedOther, recognised⟩ start finish entered left empty
    have same := (ended _ (Nat.le_max_left bound other)).symm.trans
      (endedOther _ (Nat.le_max_right bound other))
    rw [← Option.some.inj same] at recognised
    have extractable := (recognised ⟨some start, some finish⟩).mp ((isData _).mpr ⟨entered, left, by
        intro first last isFirst isLast firstNamed lastNamed
        rw [← Option.some.inj isFirst] at firstNamed
        rw [← Option.some.inj isLast] at lastNamed
        rcases empty with isEmpty | isEmpty
        · exact absurd isEmpty firstNamed
        · exact absurd isEmpty lastNamed⟩)
    exact extractable.joined start finish rfl rfl
  · intro emptyJoined
    refine ⟨bound, result, ended, ?_⟩
    intro data
    rw [isData]
    constructor
    · intro ⟨entered, left, path⟩
      refine ⟨entered, left, ?_⟩
      intro start finish isStart isFinish
      by_cases empty : start = "" ∨ finish = ""
      · exact emptyJoined start finish (isStart ▸ entered) (isFinish ▸ left) empty
      · obtain ⟨startNamed, finishNamed⟩ := not_or.mp empty
        apply isJoined_of_path _ (path start finish isStart isFinish startNamed finishNamed)
        · exact ((entered.only start).mpr isStart).1
        · intro node isLeft
          have isOnly := (left.only node).mp isLeft
          rw [isFinish] at isOnly
          exact (Option.some.inj isOnly).symm
    · intro ⟨entered, left, joined⟩
      exact ⟨entered, left, fun start finish isStart isFinish _ _ =>
        path_of_isJoined (joined start finish isStart isFinish)⟩

private def toNode (node : String) : List IConnection :=
  [{ node, type := .main, index := 0 }]

/-- Two nodes without a connection, of which the first has the empty name. -/
theorem not_recognisesExtractable_emptyName : ¬ RecognisesExtractable (.ofList ["", "B"])
      (.ofList [("A", toNode ""), ("B", toNode "C")]) := by
  intro ⟨bound, result, ended, recognised⟩
  have parsed : parseExtractableSubgraphSelection (.ofList ["", "B"])
      (.ofList [("A", toNode ""), ("B", toNode "C")]) bound =
      some (.data ⟨some "", some "B"⟩) := by
    rfl
  rw [ended bound (Nat.le_refl bound)] at parsed
  have extractable := (recognised ⟨some "", some "B"⟩).mp (Option.some.inj parsed)
  have joined := extractable.joined "" "B" rfl rfl
  cases joined.cases_head with
  | inl same => exact absurd same (by decide)
  | inr step =>
    obtain ⟨next, ⟨_, _, connected⟩, _⟩ := step
    obtain ⟨connection, stored, _⟩ := mainConnection_iff.mp connected
    cases stored

end GraphUtils

end N8n
