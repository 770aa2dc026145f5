import N8n.Workflow.GroupWorkflows

/-!
# The rule for additive changes

The rule is meant to let a version go whose nodes are all contained in the
next one.  It compares the nodes of the version before with nodes of the
version that is dropped, which it looks up by name.
-/

namespace N8n

open List

namespace AdditiveChanges

/-- `text.includes(part)` -/
def includes (text part : String) : Bool :=
  text.toList.tails.any part.toList.isPrefixOf

def isPrimitive : JsonValue → Bool
  | .array _ | .object _ => false
  | _ => true

def isString : JsonValue → Bool
  | .string _ => true
  | _ => false

end AdditiveChanges

open AdditiveChanges

def DiffableNode.name (node : DiffableNode) : Option JsonValue :=
  node.properties.lookup "name"

def DiffableNode.parameters (node : DiffableNode) : OrderedMap String JsonValue :=
  match node.properties.lookup "parameters" with
  | some (.object fields) => .ofList fields
  | _ => .empty

/-- `{ ...node, parameters: {} }` -/
def DiffableNode.withoutParameters (node : DiffableNode) : DiffableNode :=
  { node with
    properties := ("parameters", .object []) ::
      node.properties.filter fun property => property.1 ≠ "parameters" }

section Rule

variable (isEqual : JsonValue → JsonValue → Bool)
  (sameObject : DiffableNode → DiffableNode → String → Bool) (prevNode nextNode : DiffableNode)

/-- What a parameter keeps of what it was.  Arrays and objects are equal under
`===` only if the two nodes share them, which `sameObject` tells. -/
def parameterIsAdditive (key : String) (left right : JsonValue) : Bool :=
  match left, right with
  | .string left, .string right => AdditiveChanges.includes right left
  | left, right =>
    left = right && (isPrimitive left || sameObject prevNode nextNode key)

def nodeIsAdditive : Bool :=
  compareNodes isEqual prevNode.withoutParameters nextNode.withoutParameters &&
    prevNode.parameters.entries.all fun entry =>
      match nextNode.parameters.get? entry.1 with
      | none => false
      | some right =>
        parameterIsAdditive sameObject prevNode nextNode entry.1 entry.2 right

/-- `nodes.find((x) => x.name === node.name)` -/
def findByName (nodes : List DiffableNode) (node : DiffableNode) : Option DiffableNode :=
  nodes.find? fun other => other.name = node.name

def mergeLoop (nextFrom : List DiffableNode) : List NodeDiff → Except WorkflowDiffError Bool
  | [] => .ok true
  | d :: diffs =>
    match d.status with
    | .deleted => .ok false
    | .added => mergeLoop nextFrom diffs
    | .eq | .modified =>
      match findByName nextFrom d.node with
      | none => .error .invariantBroken
      | some nextNode =>
        if d.status = .modified ∧ nodeIsAdditive isEqual sameObject d.node nextNode = false
        then .ok false
        else mergeLoop nextFrom diffs

def mergeAdditiveChanges {W : Type} (nodes : W → List DiffableNode)
    (_prev next : GroupedWorkflowHistory W) (diff : WorkflowDiff) :
    Except WorkflowDiffError Bool :=
  mergeLoop isEqual sameObject (nodes next.fromWorkflow) diff.values

/-! ## What the rule is for -/

/-- Nothing of the parameter is lost. -/
def KeepsParameter (left right : JsonValue) : Prop :=
  match left, right with
  | .string left, .string right => AdditiveChanges.includes right left
  | left, right => left = right

/-- The nodes are there by identifier, with all of their parameters. -/
def KeepsText (dropped retained : List DiffableNode) : Prop :=
  ∀ node ∈ dropped, ∃ kept ∈ retained, kept.id = node.id ∧
    ∀ key left, node.parameters.get? key = some left →
      ∃ right, kept.parameters.get? key = some right ∧ KeepsParameter left right

/-- The rule answers, and lets only versions go of which nothing is lost. -/
def NeverLosesText {W : Type} (nodes : W → List DiffableNode)
    (prev next : GroupedWorkflowHistory W) : Prop :=
  ∃ merges, mergeAdditiveChanges isEqual sameObject nodes prev next
      (compareWorkflowsNodes isEqual (nodes prev.fromWorkflow)
        (nodes next.toWorkflow)) = .ok merges ∧
    (merges = true → KeepsText (nodes prev.toWorkflow) (nodes next.toWorkflow))

/-! ## When the rule does so -/

section

variable (nextFrom : List DiffableNode)

/-- No node of the dropped version has the name any more. -/
def LosesName (d : NodeDiff) : Prop :=
  (d.status = .eq ∨ d.status = .modified) ∧ findByName nextFrom d.node = none

/-- The node is gone, or the dropped version has less of it than the version
before. -/
def IsLoss (d : NodeDiff) : Prop :=
  d.status = .deleted ∨ d.status = .modified ∧
    ∃ nextNode, findByName nextFrom d.node = some nextNode ∧
      nodeIsAdditive isEqual sameObject d.node nextNode = false

/-- The rule comes to a loss before it comes to a name that is lost. -/
def StopsAtLoss (diffs : List NodeDiff) : Prop :=
  ∃ before d after, diffs = before ++ d :: after ∧
    IsLoss isEqual sameObject nextFrom d ∧ ∀ other ∈ before, ¬ LosesName nextFrom other

end

variable {isEqual sameObject} {nextFrom : List DiffableNode} {d : NodeDiff} {diffs : List NodeDiff}

theorem mergeLoop_of_isLoss (loss : IsLoss isEqual sameObject nextFrom d) :
    mergeLoop isEqual sameObject nextFrom (d :: diffs) = .ok false := by
  rcases loss with deleted | ⟨modified, nextNode, found, lost⟩
  · simp [mergeLoop, deleted]
  · simp [mergeLoop, modified, found, lost]

theorem mergeLoop_of_losesName (loses : LosesName nextFrom d) :
    mergeLoop isEqual sameObject nextFrom (d :: diffs) = .error .invariantBroken := by
  obtain ⟨status, missing⟩ := loses
  rcases status with status | status
  · simp [mergeLoop, status, missing]
  · simp [mergeLoop, status, missing]

theorem mergeLoop_of_passes (notLoss : ¬ IsLoss isEqual sameObject nextFrom d)
    (notLost : ¬ LosesName nextFrom d) :
    mergeLoop isEqual sameObject nextFrom (d :: diffs) =
      mergeLoop isEqual sameObject nextFrom diffs := by
  cases status : d.status with
  | deleted => exact (notLoss (.inl status)).elim
  | added => simp [mergeLoop, status]
  | eq =>
    cases found : findByName nextFrom d.node with
    | none => exact (notLost ⟨.inl status, found⟩).elim
    | some nextNode => simp [mergeLoop, status, found]
  | modified =>
    cases found : findByName nextFrom d.node with
    | none => exact (notLost ⟨.inr status, found⟩).elim
    | some nextNode =>
      have additive : nodeIsAdditive isEqual sameObject d.node nextNode = true := by
        by_contra less
        exact notLoss (.inr ⟨status, nextNode, found, Bool.eq_false_of_not_eq_true less⟩)
      simp [mergeLoop, status, found, additive]

theorem mergeLoop_eq_false_iff : mergeLoop isEqual sameObject nextFrom diffs = .ok false ↔
      StopsAtLoss isEqual sameObject nextFrom diffs := by
  constructor
  · intro stops
    induction diffs with
    | nil => cases stops
    | cons d diffs ih =>
      by_cases loss : IsLoss isEqual sameObject nextFrom d
      · exact ⟨[], d, diffs, nil_append _, loss, by simp⟩
      · by_cases loses : LosesName nextFrom d
        · rw [mergeLoop_of_losesName loses] at stops
          cases stops
        · rw [mergeLoop_of_passes loss loses] at stops
          obtain ⟨before, last, after, rfl, isLoss, names⟩ := ih stops
          refine ⟨d :: before, last, after, cons_append.symm, isLoss, ?_⟩
          intro other listed
          rcases mem_cons.mp listed with same | listed
          · rw [same]
            exact loses
          · exact names other listed
  · rintro ⟨before, last, after, rfl, isLoss, names⟩
    induction before with
    | nil => exact mergeLoop_of_isLoss isLoss
    | cons d before ih =>
      rw [cons_append]
      by_cases loss : IsLoss isEqual sameObject nextFrom d
      · exact mergeLoop_of_isLoss loss
      · rw [mergeLoop_of_passes loss (names d mem_cons_self)]
        exact ih fun other listed =>
          names other (mem_cons_of_mem _ listed)

theorem mergeLoop_eq_true_iff : mergeLoop isEqual sameObject nextFrom diffs = .ok true ↔
      ∀ d ∈ diffs, ¬ IsLoss isEqual sameObject nextFrom d ∧ ¬ LosesName nextFrom d := by
  induction diffs with
  | nil => simp [mergeLoop]
  | cons d diffs ih =>
    by_cases loss : IsLoss isEqual sameObject nextFrom d
    · rw [mergeLoop_of_isLoss loss]
      simp [loss]
    · by_cases loses : LosesName nextFrom d
      · rw [mergeLoop_of_losesName loses]
        simp [loses]
      · rw [mergeLoop_of_passes loss loses, ih]
        simp [loss, loses]

theorem stopsAtLoss_of_isLoss
    (names : ∀ other ∈ diffs, ¬ LosesName nextFrom other) (listed : d ∈ diffs)
    (loss : IsLoss isEqual sameObject nextFrom d) :
    StopsAtLoss isEqual sameObject nextFrom diffs := by
  obtain ⟨before, after, rfl⟩ := append_of_mem listed
  exact ⟨before, d, after, rfl, loss, fun other earlier =>
    names other (mem_append_left _ earlier)⟩

end Rule

namespace AdditiveChangesExample

def node (name text : String) : DiffableNode where
  id := "1"
  properties := [("name", .string name), ("parameters", .object [("note", .string text)])]

def isEqual (left right : JsonValue) : Bool := left = right

def group (fromWorkflow toWorkflow : List DiffableNode) :
    GroupedWorkflowHistory (List DiffableNode) where
  workflowChangeSet := ⟨.empty⟩
  groupedWorkflows := []
  fromWorkflow := fromWorkflow
  toWorkflow := toWorkflow

end AdditiveChangesExample

end N8n
