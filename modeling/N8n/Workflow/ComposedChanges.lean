import N8n.Workflow.WorkflowDiff

/-!
# Composed changes

What `mergeNext` makes of the changes from `a` to `b` and of those from `b`
to `c` is compared with the changes from `a` to `c`.  A status depends on the
node in the two versions only, so the comparison is one of three optional
nodes.
-/

namespace N8n

open OrderedMap WorkflowChangeSet List

/-- The documented part of lodash's `isEqual` that comparing versions relies
on. -/
structure ComparesAsEqual (isEqual : JsonValue → JsonValue → Bool) : Prop where
  symm : ∀ {left right}, isEqual left right → isEqual right left
  trans : ∀ {left middle right}, isEqual left middle → isEqual middle right → isEqual left right

def nodeStatus (isEqual : JsonValue → JsonValue → Bool) :
    (base target : Option DiffableNode) → Option NodeDiffStatus
  | none, none => none
  | none, some _ => some .added
  | some _, none => some .deleted
  | some base, some target =>
    if compareNodes isEqual base target then some .eq else some .modified

namespace WorkflowChangeSet

def statusOf (changes : WorkflowChangeSet) (id : String) : Option NodeDiffStatus :=
  (changes.nodes.get? id).map NodeDiff.status

end WorkflowChangeSet

section Status

variable {isEqual : JsonValue → JsonValue → Bool}

theorem nodeStatus_baseNodeDiff {targetNodes : OrderedMap String DiffableNode}
    {entry : String × DiffableNode} :
    nodeStatus isEqual (some entry.2) (targetNodes.get? entry.1) =
      some (baseNodeDiff isEqual targetNodes entry).status := by
  rw [baseNodeDiff]
  cases targetNodes.get? entry.1 with
  | none => simp [nodeStatus]
  | some target =>
    simp only [nodeStatus]
    split <;> simp

theorem statusOf_compareWorkflowsNodes (isEqual : JsonValue → JsonValue → Bool)
    (base target : List DiffableNode) (id : String) :
    statusOf ⟨compareWorkflowsNodes isEqual base target⟩ id =
      nodeStatus isEqual ((nodesById base).get? id) ((nodesById target).get? id) := by
  simp only [statusOf]
  rcases compareWorkflowsNodes_cases isEqual base target id with
    ⟨unset, noBase, noTarget⟩ | ⟨entry, mem, rfl, reads⟩ |
    ⟨entry, mem, rfl, noBase, reads⟩
  · rw [unset, get?_eq_none_iff.mpr noBase, get?_eq_none_iff.mpr noTarget]
    simp [nodeStatus]
  · rw [reads, get?_eq_some_iff.mpr mem, nodeStatus_baseNodeDiff]
    simp
  · rw [reads, get?_eq_none_iff.mpr noBase, get?_eq_some_iff.mpr mem]
    simp [nodeStatus]

end Status

/-! ## Merging two change sets -/

/-- The status after an entry was merged into a change set. -/
def mergedStatus (prev : Option NodeDiffStatus) (next : NodeDiffStatus) : Option NodeDiffStatus :=
  match prev with
  | none => some .added
  | some prev =>
    match mergeNodeDiff prev next with
    | .status status => some status
    | .undone | .invariantBroken => none

namespace WorkflowChangeSet

variable {nodes merged : WorkflowDiff} {entry : String × NodeDiff}

theorem mergeEntry_status (merges : mergeEntry nodes entry = .ok merged) :
    statusOf ⟨merged⟩ entry.1 = mergedStatus (statusOf ⟨nodes⟩ entry.1) entry.2.status := by
  simp only [mergeEntry] at merges
  cases found : nodes.get? entry.1 with
  | none =>
    rw [found] at merges
    cases merges
    simp [statusOf, found, mergedStatus]
  | some existing =>
    rw [found] at merges
    simp only at merges
    simp only [statusOf, found, mergedStatus, Option.map_some]
    cases result : mergeNodeDiff existing.status entry.2.status with
    | invariantBroken =>
      rw [result] at merges
      cases merges
    | undone =>
      rw [result] at merges
      cases merges
      simp [get?_delete]
    | status status =>
      rw [result] at merges
      cases merges
      simp

theorem mergeEntry_others (merges : mergeEntry nodes entry = .ok merged)
    {id : String} (ne : id ≠ entry.1) :
    statusOf ⟨merged⟩ id = statusOf ⟨nodes⟩ id := by
  have unset : ∀ value : NodeDiff, (nodes.set entry.1 value).get? id = nodes.get? id :=
    fun value => get?_set_ne nodes value ne.symm
  simp only [mergeEntry] at merges
  unfold statusOf
  cases found : nodes.get? entry.1 with
  | none =>
    rw [found] at merges
    cases merges
    rw [unset]
  | some existing =>
    rw [found] at merges
    simp only at merges
    cases result : mergeNodeDiff existing.status entry.2.status with
    | invariantBroken =>
      rw [result] at merges
      cases merges
    | undone =>
      rw [result] at merges
      cases merges
      rw [get?_delete, if_neg ne.symm]
    | status status =>
      rw [result] at merges
      cases merges
      rw [unset]

theorem mergeEntries_status {entries : List (String × NodeDiff)}
    (nodup : (entries.map Prod.fst).Nodup)
    (merges : entries.foldlM mergeEntry nodes = .ok merged) :
    (∀ entry ∈ entries, statusOf ⟨merged⟩ entry.1 =
      mergedStatus (statusOf ⟨nodes⟩ entry.1) entry.2.status) ∧
      ∀ id, id ∉ entries.map Prod.fst → statusOf ⟨merged⟩ id = statusOf ⟨nodes⟩ id := by
  induction entries generalizing nodes with
  | nil =>
    cases merges
    simp
  | cons entry entries ih =>
    obtain ⟨first, mergesFirst, mergesLater⟩ := Except.bind_eq_ok_iff.mp merges
    rw [map_cons, nodup_cons] at nodup
    obtain ⟨later, others⟩ := ih nodup.2 mergesLater
    constructor
    · intro other listed
      rcases mem_cons.mp listed with same | listed
      · subst same
        rw [others other.1 nodup.1]
        exact mergeEntry_status mergesFirst
      · have ne : other.1 ≠ entry.1 := by
          intro same
          apply nodup.1
          rw [← same]
          exact mem_map_of_mem listed
        rw [later other listed, mergeEntry_others mergesFirst ne]
    · intro id absent
      rw [map_cons, mem_cons, not_or] at absent
      rw [others id absent.2, mergeEntry_others mergesFirst absent.1]

theorem mergeNext_status {changes wcs merged : WorkflowChangeSet}
    (merges : changes.mergeNext wcs = .ok merged) (id : String) :
    merged.statusOf id =
      match wcs.statusOf id with
      | none => changes.statusOf id
      | some next => mergedStatus (changes.statusOf id) next := by
  rw [mergeNext] at merges
  obtain ⟨nodes, folds, rfl⟩ : ∃ nodes,
      wcs.nodes.entries.foldlM mergeEntry changes.nodes = .ok nodes ∧ merged = ⟨nodes⟩ := by
    cases folds : wcs.nodes.entries.foldlM mergeEntry changes.nodes with
    | error failure =>
      rw [folds] at merges
      cases merges
    | ok nodes =>
      rw [folds] at merges
      exact ⟨nodes, rfl, (Except.ok.inj merges).symm⟩
  obtain ⟨listed, others⟩ := mergeEntries_status wcs.nodes.nodup folds
  cases found : wcs.nodes.get? id with
  | none =>
    simp only [statusOf, found, Option.map_none]
    exact others id (get?_eq_none_iff.mp found)
  | some diff =>
    simp only [statusOf, found, Option.map_some]
    exact listed (id, diff) (get?_eq_some_iff.mp found)

end WorkflowChangeSet

section Composition

variable {isEqual : JsonValue → JsonValue → Bool}

/-- The statuses of one node over three versions.  The last case is the node
that is as at first, but not in between. -/
theorem mergedStatus_composes (lawful : ComparesAsEqual isEqual)
    (base middle target : Option DiffableNode) :
    let merged :=
      match nodeStatus isEqual middle target with
      | none => nodeStatus isEqual base middle
      | some next => mergedStatus (nodeStatus isEqual base middle) next
    merged = nodeStatus isEqual base target ∨
      (merged = some .modified ∧ nodeStatus isEqual base target = some .eq ∧
        nodeStatus isEqual base middle ≠ some .eq) := by
  cases base with
  | none =>
    left
    cases middle with
    | none => cases target <;> simp [nodeStatus, mergedStatus]
    | some middle =>
      cases target with
      | none => simp [nodeStatus, mergedStatus, mergeNodeDiff]
      | some target =>
        by_cases second : compareNodes isEqual middle target <;>
          simp [nodeStatus, second, mergedStatus, mergeNodeDiff]
  | some base =>
    cases middle with
    | none =>
      cases target with
      | none => simp [nodeStatus]
      | some target =>
        by_cases direct : compareNodes isEqual base target <;>
          simp [nodeStatus, direct, mergedStatus, mergeNodeDiff]
    | some middle =>
      by_cases first : compareNodes isEqual base middle
      · left
        cases target with
        | none => simp [nodeStatus, first, mergedStatus, mergeNodeDiff]
        | some target =>
          have same : compareNodes isEqual middle target = compareNodes isEqual base target := by
            rw [Bool.eq_iff_iff]
            exact ⟨lawful.trans first, lawful.trans (lawful.symm first)⟩
          by_cases second : compareNodes isEqual base target <;>
            simp [nodeStatus, first, same, second, mergedStatus, mergeNodeDiff]
      · cases target with
        | none => simp [nodeStatus, first, mergedStatus, mergeNodeDiff]
        | some target =>
          by_cases direct : compareNodes isEqual base target <;>
            by_cases second : compareNodes isEqual middle target <;>
              simp [nodeStatus, first, direct, second, mergedStatus, mergeNodeDiff]

/-- Merging the changes of two versions in a row succeeds and reports each
node as comparing the outer versions does, apart from nodes that were changed
and changed back. -/
theorem mergeNext_composes (lawful : ComparesAsEqual isEqual) (a b c : List DiffableNode) :
    ∃ merged : WorkflowChangeSet,
      (⟨compareWorkflowsNodes isEqual a b⟩ : WorkflowChangeSet).mergeNext
          ⟨compareWorkflowsNodes isEqual b c⟩ = .ok merged ∧
        ∀ id, merged.statusOf id = statusOf ⟨compareWorkflowsNodes isEqual a c⟩ id ∨
          (merged.statusOf id = some .modified ∧ statusOf
              ⟨compareWorkflowsNodes isEqual a c⟩ id = some .eq ∧
            statusOf ⟨compareWorkflowsNodes isEqual a b⟩ id ≠ some .eq) := by
  obtain ⟨merged, merges, _⟩ := mergeNext_fits (compareWorkflowsNodes_fits isEqual a b)
    (compareWorkflowsNodes_fits isEqual b c)
  refine ⟨merged, merges, fun id => ?_⟩
  rw [mergeNext_status merges]
  simp only [statusOf_compareWorkflowsNodes]
  exact mergedStatus_composes lawful _ _ _

end Composition

namespace ComposedChangesExample

def node (text : String) : DiffableNode where
  id := "1"
  properties := [("name", .string "Set Fields"), ("parameters", .object [("value", .string text)])]

def isEqual (left right : JsonValue) : Bool := left = right

theorem comparesAsEqual : ComparesAsEqual isEqual where
  symm same := decide_eq_true (of_decide_eq_true same).symm
  trans first second := decide_eq_true ((of_decide_eq_true first).trans (of_decide_eq_true second))

/-- A node that is changed and changed back. -/
theorem mergeNext_composes_changedBack : ∃ merged : WorkflowChangeSet,
      (⟨compareWorkflowsNodes isEqual [node "a"] [node "b"]⟩ : WorkflowChangeSet).mergeNext
          ⟨compareWorkflowsNodes isEqual [node "b"] [node "a"]⟩ = .ok merged ∧
        ∀ id, merged.statusOf id = statusOf
            ⟨compareWorkflowsNodes isEqual [node "a"] [node "a"]⟩ id ∨
          (merged.statusOf id = some .modified ∧ statusOf
              ⟨compareWorkflowsNodes isEqual [node "a"] [node "a"]⟩ id = some .eq ∧
            statusOf ⟨compareWorkflowsNodes isEqual [node "a"] [node "b"]⟩ id ≠ some .eq) :=
  mergeNext_composes comparesAsEqual [node "a"] [node "b"] [node "a"]

end ComposedChangesExample

end N8n
