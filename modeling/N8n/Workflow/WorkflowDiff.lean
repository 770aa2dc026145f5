import N8n.Library.FoldExcept
import N8n.Library.JsonValue
import N8n.Library.OrderedMap

/-!
# Differences between versions of a workflow

A change set says for each node how it differs between two versions.  The
change sets of two versions in a row are merged entry by entry, and merging
never breaks the invariant that `mergeNodeDiff` checks for, because a change
set knows in which of its two versions each node occurs.
-/

namespace N8n

open OrderedMap List

/-- A node with its own properties, of which `id` is one. -/
structure DiffableNode where
  id : String
  properties : List (String × JsonValue)
deriving DecidableEq

inductive NodeDiffStatus where
  | eq
  | modified
  | added
  | deleted
deriving DecidableEq

structure NodeDiff where
  status : NodeDiffStatus
  node : DiffableNode
deriving DecidableEq

abbrev WorkflowDiff := OrderedMap String NodeDiff

def propsToCompare : List String :=
  ["name", "type", "typeVersion", "webhookId", "credentials", "parameters"]

/-- `pick(node, propsToCompare)` -/
def DiffableNode.picked (node : DiffableNode) : JsonValue :=
  .object (propsToCompare.filterMap fun name =>
    (node.properties.lookup name).map fun value => (name, value))

section Compare

variable (isEqual : JsonValue → JsonValue → Bool)

def compareNodes (base target : DiffableNode) : Bool :=
  isEqual base.picked target.picked

/-- The nodes under their identifiers; a later node replaces an earlier one. -/
def nodesById (nodes : List DiffableNode) : OrderedMap String DiffableNode :=
  nodes.foldl (fun acc node => acc.set node.id node) OrderedMap.empty

def baseNodeDiff (targetNodes : OrderedMap String DiffableNode)
    (entry : String × DiffableNode) : NodeDiff :=
  match targetNodes.get? entry.1 with
  | none => ⟨.deleted, entry.2⟩
  | some target =>
    if compareNodes isEqual entry.2 target then ⟨.eq, entry.2⟩
    else ⟨.modified, entry.2⟩

def compareWorkflowsNodes (base target : List DiffableNode) : WorkflowDiff :=
  let baseNodes := nodesById base
  let targetNodes := nodesById target
  let diff : WorkflowDiff := baseNodes.entries.foldl (fun diff entry =>
      diff.set entry.1 (baseNodeDiff isEqual targetNodes entry))
    OrderedMap.empty
  targetNodes.entries.foldl (fun diff entry =>
      if baseNodes.has entry.1 then diff
      else diff.set entry.1 ⟨.added, entry.2⟩)
    diff

end Compare

inductive MergedNodeDiff where
  | status (status : NodeDiffStatus)
  | undone
  | invariantBroken

def mergeNodeDiff : (prev next : NodeDiffStatus) → MergedNodeDiff
  | .added, .added => .invariantBroken
  | .added, .deleted => .undone
  | .added, _ => .status .added
  | .deleted, .added => .status .modified
  | .deleted, _ => .invariantBroken
  | .eq, .added => .invariantBroken
  | .eq, next => .status next
  | .modified, .added => .invariantBroken
  | .modified, .deleted => .status .deleted
  | .modified, _ => .status .modified

inductive WorkflowDiffError where
  | invariantBroken
deriving DecidableEq

structure WorkflowChangeSet where
  nodes : WorkflowDiff
deriving DecidableEq

namespace WorkflowChangeSet

def mergeEntry (nodes : WorkflowDiff) (entry : String × NodeDiff) :
    Except WorkflowDiffError WorkflowDiff :=
  match nodes.get? entry.1 with
  | some existing =>
    match mergeNodeDiff existing.status entry.2.status with
    | .invariantBroken => .error .invariantBroken
    | .undone => .ok (nodes.delete entry.1)
    | .status diffStatus =>
      .ok (nodes.set entry.1 { entry.2 with status := diffStatus })
  | none => .ok (nodes.set entry.1 { entry.2 with status := .added })

def mergeNext (changes wcs : WorkflowChangeSet) : Except WorkflowDiffError WorkflowChangeSet :=
  (wcs.nodes.entries.foldlM mergeEntry changes.nodes).map (⟨·⟩)

end WorkflowChangeSet

/-- The status is right for a node that occurs, or does not occur, in the two
versions. -/
def NodeDiffStatus.Fits (inBase inTarget : Prop) : NodeDiffStatus → Prop
  | .eq | .modified => inBase ∧ inTarget
  | .added => ¬ inBase ∧ inTarget
  | .deleted => inBase ∧ ¬ inTarget

/-- An entry is missing when the node occurs in neither version. -/
def FitsAt (inBase inTarget : Prop) : Option NodeDiff → Prop
  | some diff => diff.status.Fits inBase inTarget
  | none => ¬ inBase ∧ ¬ inTarget

/-- A node with this identifier occurs in the version. -/
def HasNode (nodes : List DiffableNode) (id : String) : Prop :=
  ∃ node ∈ nodes, node.id = id

/-- The changes are those between two versions with these nodes. -/
def WorkflowChangeSet.Fits (changes : WorkflowChangeSet) (base target : List DiffableNode) : Prop :=
  ∀ id, FitsAt (HasNode base id) (HasNode target id) (changes.nodes.get? id)

section Lookup

variable {κ α β : Type} [DecidableEq κ]

theorem get?_foldl_setWhen (keep : κ × β → Bool) (value : κ × β → α)
    (entries : List (κ × β)) (start : OrderedMap κ α) (key : κ) :
    let last := entries.foldl (fun map entry =>
        if keep entry then map else map.set entry.1 (value entry)) start
    (last.get? key = start.get? key ∧ ∀ entry ∈ entries, entry.1 = key → keep entry = true) ∨
      ∃ entry ∈ entries, entry.1 = key ∧ keep entry = false ∧
        last.get? key = some (value entry) := by
  induction entries generalizing start with
  | nil => simp
  | cons entry entries ih =>
    rcases ih (if keep entry then start
      else start.set entry.1 (value entry)) with ⟨same, kept⟩ | found
    · cases keeps : keep entry with
      | true =>
        left
        constructor
        · simpa [keeps] using same
        · intro other mem matched
          rcases mem_cons.mp mem with rfl | mem
          · exact keeps
          · exact kept other mem matched
      | false =>
        by_cases matched : entry.1 = key
        · right
          refine ⟨entry, by simp, matched, keeps, ?_⟩
          simpa [keeps, get?_set, matched] using same
        · left
          constructor
          · simpa [keeps, get?_set, matched] using same
          · intro other mem otherMatched
            rcases mem_cons.mp mem with rfl | mem
            · exact absurd otherMatched matched
            · exact kept other mem otherMatched
    · right
      obtain ⟨other, mem, matched, keeps, reads⟩ := found
      exact ⟨other, by simp [mem], matched, keeps, reads⟩

end Lookup

theorem mem_keys_nodesById {nodes : List DiffableNode} {id : String} :
    id ∈ (nodesById nodes).keys ↔ HasNode nodes id := by
  have general : ∀ (later : List DiffableNode) (built : OrderedMap String DiffableNode),
      id ∈ (later.foldl (fun acc node => acc.set node.id node) built).keys ↔
        id ∈ built.keys ∨ HasNode later id := by
    intro later
    induction later with
    | nil => simp [HasNode]
    | cons node later ih =>
      intro built
      rw [foldl_cons, ih, mem_keys_set]
      rw [HasNode, HasNode, exists_mem_cons_iff, or_assoc, or_left_comm, eq_comm]
  rw [nodesById, general]
  simp [OrderedMap.keys, OrderedMap.empty]

theorem baseNodeDiff_fits {isEqual : JsonValue → JsonValue → Bool}
    {targetNodes : OrderedMap String DiffableNode}
    {entry : String × DiffableNode} {inBase : Prop} (holds : inBase) :
    (baseNodeDiff isEqual targetNodes entry).status.Fits inBase (entry.1 ∈ targetNodes.keys) := by
  rw [baseNodeDiff]
  cases found : targetNodes.get? entry.1 with
  | none => exact ⟨holds, get?_eq_none_iff.mp found⟩
  | some target =>
    have mem : entry.1 ∈ targetNodes.keys := by
      rw [← has_iff, has, found]
      rfl
    dsimp only
    split
    · exact ⟨holds, mem⟩
    · exact ⟨holds, mem⟩

section

variable (isEqual : JsonValue → JsonValue → Bool) (base target : List DiffableNode)

/-- A node without an entry is on neither side; the entry of a node of the base
compares it, and the other nodes of the target are added. -/
theorem compareWorkflowsNodes_cases (id : String) :
    let found := (compareWorkflowsNodes isEqual base target).get? id
    (found = none ∧ id ∉ (nodesById base).keys ∧ id ∉ (nodesById target).keys) ∨
    (∃ entry ∈ (nodesById base).entries, entry.1 = id ∧
      found = some (baseNodeDiff isEqual (nodesById target) entry)) ∨
    ∃ entry ∈ (nodesById target).entries, entry.1 = id ∧
      id ∉ (nodesById base).keys ∧ found = some ⟨.added, entry.2⟩ := by
  have added := get?_foldl_setWhen
    (fun entry : String × DiffableNode => (nodesById base).has entry.1)
    (fun entry => (⟨.added, entry.2⟩ : NodeDiff)) (nodesById target).entries
    ((nodesById base).entries.foldl (fun diff entry => diff.set entry.1
        (baseNodeDiff isEqual (nodesById target) entry)) OrderedMap.empty) id
  have compared := get?_foldl_setWhen (fun _ : String × DiffableNode => false)
    (baseNodeDiff isEqual (nodesById target)) (nodesById base).entries
    OrderedMap.empty id
  simp only [Bool.false_eq_true, if_false] at compared
  rcases added with ⟨same, kept⟩ | ⟨entry, mem, matched, absent, reads⟩
  · simp only [compareWorkflowsNodes, same]
    rcases compared with ⟨unset, missing⟩ | ⟨entry, mem, matched, -, reads⟩
    · have noBase : id ∉ (nodesById base).keys := by
        intro present
        obtain ⟨entry, mem, matched⟩ := mem_map.mp present
        exact missing entry mem matched
      refine .inl ⟨unset, noBase, fun present => ?_⟩
      obtain ⟨entry, mem, matched⟩ := mem_map.mp present
      exact noBase (matched ▸ has_iff.mp (kept entry mem matched))
    · exact .inr (.inl ⟨entry, mem, matched, reads⟩)
  · refine .inr (.inr ⟨entry, mem, matched, ?_, reads⟩)
    rw [← has_iff, ← matched, absent]
    exact Bool.false_ne_true

theorem compareWorkflowsNodes_fits :
    WorkflowChangeSet.Fits ⟨compareWorkflowsNodes isEqual base target⟩ base target := by
  intro id
  rw [← mem_keys_nodesById, ← mem_keys_nodesById]
  rcases compareWorkflowsNodes_cases isEqual base target id with
    ⟨unset, neither⟩ | ⟨entry, mem, rfl, reads⟩ | ⟨entry, mem, rfl, noBase, reads⟩
  · simp only [unset]
    exact neither
  · simp only [reads]
    exact baseNodeDiff_fits (mem_keys_of_mem_entries mem)
  · simp only [reads]
    exact ⟨noBase, mem_keys_of_mem_entries mem⟩

end

namespace WorkflowChangeSet

variable {nodes : WorkflowDiff} {key : String} {diff : NodeDiff} {inBase inMiddle inTarget : Prop}

theorem mergeEntry_fits (left : FitsAt inBase inMiddle (nodes.get? key))
    (right : FitsAt inMiddle inTarget (some diff)) :
    ∃ merged, mergeEntry nodes (key, diff) = .ok merged ∧ FitsAt inBase inTarget (merged.get? key) ∧
      ∀ other, other ≠ key → merged.get? other = nodes.get? other := by
  have unset : ∀ other, other ≠ key → ∀ value : NodeDiff,
      (nodes.set key value).get? other = nodes.get? other := by
    intro other ne value
    exact get?_set_ne nodes value ne.symm
  simp only [mergeEntry]
  cases found : nodes.get? key with
  | none =>
    refine ⟨_, rfl, ?_, fun other ne => unset other ne _⟩
    obtain ⟨status, node⟩ := diff
    cases status <;> simp_all [FitsAt, NodeDiffStatus.Fits]
  | some existing =>
    obtain ⟨leftStatus, leftNode⟩ := existing
    obtain ⟨status, node⟩ := diff
    have removed : ∀ other, other ≠ key → (nodes.delete key).get? other = nodes.get? other := by
      intro other ne
      rw [get?_delete, if_neg ne.symm]
    have gone : (nodes.delete key).get? key = none := by
      simp [get?_delete]
    cases leftStatus <;> cases status <;> simp_all [FitsAt, NodeDiffStatus.Fits, mergeNodeDiff]

theorem mergeEntries_fits {entries : List (String × NodeDiff)}
    (inBase inMiddle inTarget : String → Prop)
    (nodup : (entries.map Prod.fst).Nodup) (left : ∀ entry ∈ entries,
      FitsAt (inBase entry.1) (inMiddle entry.1) (nodes.get? entry.1))
    (right : ∀ entry ∈ entries, FitsAt (inMiddle entry.1) (inTarget entry.1) (some entry.2)) :
    ∃ merged, entries.foldlM mergeEntry nodes = .ok merged ∧ (∀ entry ∈ entries,
        FitsAt (inBase entry.1) (inTarget entry.1) (merged.get? entry.1)) ∧
      ∀ other, other ∉ entries.map Prod.fst → merged.get? other = nodes.get? other := by
  induction entries generalizing nodes with
  | nil => exact ⟨nodes, rfl, by simp, by simp⟩
  | cons entry entries ih =>
    simp only [map_cons, nodup_cons] at nodup
    obtain ⟨first, merges, fits, same⟩ :=
      mergeEntry_fits (left entry (by simp)) (right entry (by simp))
    have others : ∀ other ∈ entries, other.1 ≠ entry.1 := by
      intro other mem matched
      exact nodup.1 (matched ▸ mem_map_of_mem mem)
    obtain ⟨merged, mergesLater, fitsLater, sameLater⟩ := ih nodup.2 (fun other mem => by
        rw [same other.1 (others other mem)]
        exact left other (by simp [mem]))
      (fun other mem => right other (by simp [mem]))
    refine ⟨merged, ?_, ?_, ?_⟩
    · rw [foldlM_cons, merges]
      exact mergesLater
    · intro other mem
      rcases mem_cons.mp mem with rfl | mem
      · rw [sameLater _ nodup.1]
        exact fits
      · exact fitsLater other mem
    · intro other absent
      simp only [map_cons, mem_cons, not_or] at absent
      rw [sameLater other absent.2, same other absent.1]

/-- The changes up to a version and the changes from there on can be merged,
and give the changes between the outer versions. -/
theorem mergeNext_fits {changes wcs : WorkflowChangeSet} {base middle target : List DiffableNode}
    (left : changes.Fits base middle) (right : wcs.Fits middle target) :
    ∃ merged, changes.mergeNext wcs = .ok merged ∧ merged.Fits base target := by
  obtain ⟨merged, merges, fits, same⟩ := mergeEntries_fits
    (HasNode base) (HasNode middle) (HasNode target) wcs.nodes.nodup
    (fun entry _ => left entry.1)
    (fun entry mem => by
      have fits := right entry.1
      rwa [get?_eq_some_iff.mpr mem] at fits)
  refine ⟨⟨merged⟩, by rw [mergeNext, merges]; rfl, ?_⟩
  intro id
  by_cases present : id ∈ wcs.nodes.keys
  · obtain ⟨entry, mem, rfl⟩ := mem_map.mp present
    exact fits entry mem
  · have before := left id
    have after := right id
    rw [get?_eq_none_iff.mpr present] at after
    rw [same id present]
    cases found : changes.nodes.get? id with
    | none =>
      rw [found] at before
      exact ⟨before.1, after.2⟩
    | some diff =>
      obtain ⟨status, node⟩ := diff
      cases status <;> simp_all [FitsAt, NodeDiffStatus.Fits]

end WorkflowChangeSet

end N8n
