import Mathlib.Data.List.Chain
import N8n.Workflow.WorkflowDiff

/-!
# Grouping the versions of a workflow

`groupWorkflows` starts with one group for each two versions in a row and
merges groups as the rules decide.  A merge removes the last group, whichever
group was to be merged, so the groups stay a chain of versions exactly when
each merge happens at the last index.
-/

namespace N8n

/-- A group of versions: the changes from `fromWorkflow` to `toWorkflow`, and
the versions between these two. -/
structure GroupedWorkflowHistory (W : Type) where
  workflowChangeSet : WorkflowChangeSet
  groupedWorkflows : List W
  fromWorkflow : W
  toWorkflow : W
deriving DecidableEq

abbrev DiffRule (W : Type) :=
  GroupedWorkflowHistory W → GroupedWorkflowHistory W → WorkflowDiff → Bool

namespace GroupedWorkflowHistory

variable {W : Type}

/-- The versions of the group behind its first one. -/
def versions (group : GroupedWorkflowHistory W) : List W :=
  group.groupedWorkflows ++ [group.toWorkflow]

variable (left right : GroupedWorkflowHistory W) (changes : WorkflowChangeSet)

/-- The left group after the right one was folded into it. -/
def fold : GroupedWorkflowHistory W :=
  { workflowChangeSet := changes
    groupedWorkflows := left.groupedWorkflows ++ [left.toWorkflow] ++ right.groupedWorkflows
    fromWorkflow := left.fromWorkflow
    toWorkflow := right.toWorkflow }

@[simp] theorem versions_fold :
    (left.fold right changes).versions = left.versions ++ right.versions := by
  simp [versions, fold]

theorem exists_versions_eq_cons (group : GroupedWorkflowHistory W) :
    ∃ version behind, group.versions = version :: behind := by
  rw [versions]
  cases group.groupedWorkflows with
  | nil | cons version behind => exact ⟨_, _, rfl⟩

@[simp] theorem fromWorkflow_fold :
    (left.fold right changes).fromWorkflow = left.fromWorkflow := rfl

@[simp] theorem toWorkflow_fold : (left.fold right changes).toWorkflow = right.toWorkflow := rfl

end GroupedWorkflowHistory

section Grouping

variable {W : Type} (nodes : W → List DiffableNode) (isEqual : JsonValue → JsonValue → Bool)

def compareWorkflows (previous next : W) : GroupedWorkflowHistory W :=
  { workflowChangeSet := ⟨compareWorkflowsNodes isEqual (nodes previous) (nodes next)⟩
    groupedWorkflows := []
    fromWorkflow := previous
    toWorkflow := next }

def pairwiseGroups : List W → List (GroupedWorkflowHistory W)
  | previous :: next :: later =>
    compareWorkflows nodes isEqual previous next :: pairwiseGroups (next :: later)
  | _ => []

variable (rules : List (DiffRule W))

section

variable (diffs : List (GroupedWorkflowHistory W))

/-- One of the rules merges the groups at `index - 1` and `index`. -/
def shouldMerge (index : Nat) : Bool :=
  match diffs[index - 1]?, diffs[index]? with
  | some left, some right =>
    let diff := compareWorkflowsNodes isEqual (nodes left.fromWorkflow) (nodes right.toWorkflow)
    rules.any fun rule => rule left right diff
  | _, _ => false

def mergeAt (index : Nat) : Except WorkflowDiffError (List (GroupedWorkflowHistory W)) :=
  if shouldMerge nodes isEqual rules diffs index then
    match diffs.getLast?, diffs.dropLast[index - 1]? with
    | some right, some left => do
      let changes ← left.workflowChangeSet.mergeNext right.workflowChangeSet
      return diffs.dropLast.set (index - 1) (left.fold right changes)
    | _, _ => .error .invariantBroken
  else .ok diffs

end

def mergePass : Nat → List (GroupedWorkflowHistory W) →
    Except WorkflowDiffError (List (GroupedWorkflowHistory W))
  | 0, diffs => .ok diffs
  | index + 1, diffs => do
    let later ← mergeAt nodes isEqual rules diffs (index + 1)
    mergePass index later

variable {diffs later : List (GroupedWorkflowHistory W)}

theorem length_mergeAt {index : Nat}
    (merges : mergeAt nodes isEqual rules diffs index = .ok later) :
    later.length ≤ diffs.length := by
  simp only [mergeAt] at merges
  split at merges
  · split at merges
    · obtain ⟨changes, -, result⟩ := Except.bind_eq_ok_iff.mp merges
      cases result
      simp
    · cases merges
  · cases merges
    exact le_refl _

theorem length_mergePass {index : Nat}
    (merges : mergePass nodes isEqual rules index diffs = .ok later) :
    later.length ≤ diffs.length := by
  induction index generalizing diffs with
  | zero =>
    cases merges
    exact le_refl _
  | succ index ih =>
    obtain ⟨middle, first, rest⟩ := Except.bind_eq_ok_iff.mp merges
    have shorter := length_mergeAt nodes isEqual rules first
    exact le_trans (ih rest) shorter

def mergePasses (diffs : List (GroupedWorkflowHistory W)) :
    Except WorkflowDiffError (List (GroupedWorkflowHistory W)) :=
  match _ : mergePass nodes isEqual rules (diffs.length - 1) diffs with
  | .error failure => .error failure
  | .ok later =>
    if later.length ≠ diffs.length then mergePasses later else .ok later
termination_by diffs.length
decreasing_by
  have shorter := length_mergePass nodes isEqual rules ‹_›
  omega

def groupWorkflows (workflows : List W) :
    Except WorkflowDiffError (List (GroupedWorkflowHistory W)) :=
  match workflows with
  | [] => .ok []
  | [workflow] =>
    .ok [⟨⟨OrderedMap.empty⟩, [], workflow, workflow⟩]
  | _ =>
    mergePasses nodes isEqual rules (pairwiseGroups nodes isEqual workflows)

end Grouping

variable {W : Type} {nodes : W → List DiffableNode}
  {isEqual : JsonValue → JsonValue → Bool} {rules : List (DiffRule W)}

/-- The groups are a chain from the first version to the last one, and lead
through each version once. -/
structure ContiguousChain (first : W) (later : List W)
    (groups : List (GroupedWorkflowHistory W)) : Prop where
  starts : groups.head?.map (·.fromWorkflow) = some first
  ends : groups.getLast?.map (·.toWorkflow) = (first :: later).getLast?
  linked : groups.IsChain fun left right =>
    left.toWorkflow = right.fromWorkflow
  covers : groups.flatMap (·.versions) = later

/-- The loops come to an index with these groups, in a pass that began with
`atStart` groups. -/
inductive ReachesIndex (nodes : W → List DiffableNode)
    (isEqual : JsonValue → JsonValue → Bool) (rules : List (DiffRule W))
    (start : List (GroupedWorkflowHistory W)) :
    (atStart : Nat) → List (GroupedWorkflowHistory W) → (index : Nat) → Prop
  | first : ReachesIndex nodes isEqual rules start start.length start (start.length - 1)
  | next {atStart index : Nat} {diffs later : List (GroupedWorkflowHistory W)} :
      ReachesIndex nodes isEqual rules start atStart diffs (index + 1) →
      mergeAt nodes isEqual rules diffs (index + 1) = .ok later →
      ReachesIndex nodes isEqual rules start atStart later index
  | again {atStart : Nat} {diffs : List (GroupedWorkflowHistory W)} :
      ReachesIndex nodes isEqual rules start atStart diffs 0 →
      diffs.length ≠ atStart →
      ReachesIndex nodes isEqual rules start diffs.length diffs (diffs.length - 1)

/-- Whenever the rules merge two groups, the right one is the last group. -/
def MergesAtEnd (nodes : W → List DiffableNode)
    (isEqual : JsonValue → JsonValue → Bool) (rules : List (DiffRule W))
    (workflows : List W) : Prop :=
  ∀ atStart diffs index, ReachesIndex nodes isEqual rules (pairwiseGroups nodes isEqual workflows)
      atStart diffs index →
    0 < index → shouldMerge nodes isEqual rules diffs index = true → index + 1 = diffs.length

/-- The groups while all merges happened at the end: a chain whose change sets
belong to the outer versions of their groups. -/
structure Unbroken (nodes : W → List DiffableNode) (first : W)
    (later : List W) (diffs : List (GroupedWorkflowHistory W)) : Prop where
  chain : ContiguousChain first later diffs
  fits : ∀ group ∈ diffs, group.workflowChangeSet.Fits
    (nodes group.fromWorkflow) (nodes group.toWorkflow)

/-- The versions of each group still stand next to each other in a group. -/
def KeepsRows (diffs later : List (GroupedWorkflowHistory W)) : Prop :=
  ∀ group ∈ diffs, ∃ other ∈ later, group.versions <:+: other.versions

theorem KeepsRows.refl (diffs : List (GroupedWorkflowHistory W)) : KeepsRows diffs diffs :=
  fun group mem => ⟨group, mem, List.infix_refl _⟩

theorem KeepsRows.trans {first second third : List (GroupedWorkflowHistory W)}
    (left : KeepsRows first second) (right : KeepsRows second third) :
    KeepsRows first third := by
  intro group mem
  obtain ⟨middle, middleMem, before⟩ := left group mem
  obtain ⟨last, lastMem, after⟩ := right middle middleMem
  exact ⟨last, lastMem, before.trans after⟩

variable {diffs : List (GroupedWorkflowHistory W)} {index : Nat}

theorem exists_parts (positive : 0 < index) (below : index < diffs.length) :
    ∃ before left between right, diffs = before ++ left :: (between ++ [right]) ∧
        before.length + 1 = index := by
  have split : diffs = diffs.take (index - 1) ++ diffs.drop (index - 1) :=
    (List.take_append_drop _ _).symm
  have length : (diffs.drop (index - 1)).length = diffs.length - (index - 1) := List.length_drop
  cases rest : diffs.drop (index - 1) with
  | nil =>
    rw [rest] at length
    simp only [List.length_nil] at length
    omega
  | cons left others =>
    have present : others ≠ [] := by
      intro empty
      rw [rest, empty] at length
      simp only [List.length_cons, List.length_nil] at length
      omega
    refine ⟨diffs.take (index - 1), left, others.dropLast, others.getLast present, ?_, ?_⟩
    · rw [List.dropLast_append_getLast present, ← rest]
      exact split
    · rw [List.length_take]
      omega

theorem mergeAt_of_shouldMerge {before : List (GroupedWorkflowHistory W)}
    (between : List (GroupedWorkflowHistory W))
    {left right : GroupedWorkflowHistory W} (merge : shouldMerge nodes isEqual rules
      (before ++ left :: (between ++ [right])) (before.length + 1) = true) :
    mergeAt nodes isEqual rules (before ++ left :: (between ++ [right])) (before.length + 1) =
      (left.workflowChangeSet.mergeNext right.workflowChangeSet).map
        fun changes => before ++ left.fold right changes :: between := by
  have shape : before ++ left :: (between ++ [right]) =
      (before ++ left :: between) ++ [right] := by simp
  have reads : (before ++ left :: between)[before.length]? = some left := by
    simp
  rw [mergeAt, if_pos merge, shape, List.getLast?_concat,
    List.dropLast_concat, Nat.add_sub_cancel, reads]
  cases changed : left.workflowChangeSet.mergeNext right.workflowChangeSet with
  | error failure => simp [changed, Except.map, bind, Except.bind]
  | ok changes =>
    simp [changed, Except.map, bind, Except.bind, pure, Except.pure]

variable {later : List (GroupedWorkflowHistory W)}

theorem mergeAt_keepsRows (positive : 0 < index) (below : index < diffs.length)
    (merges : mergeAt nodes isEqual rules diffs index = .ok later) :
    KeepsRows diffs later := by
  cases merge : shouldMerge nodes isEqual rules diffs index with
  | false =>
    rw [mergeAt, merge] at merges
    cases merges
    exact KeepsRows.refl diffs
  | true =>
    obtain ⟨before, left, between, right, rfl, rfl⟩ := exists_parts positive below
    rw [mergeAt_of_shouldMerge _ merge] at merges
    obtain ⟨changes, changed, merges⟩ := Except.bind_eq_ok_iff.mp merges
    cases merges
    intro group mem
    have folded : left.fold right changes ∈ before ++ left.fold right changes :: between := by simp
    simp only [List.mem_append, List.mem_cons, List.not_mem_nil, or_false] at mem
    rcases mem with mem | rfl | mem | rfl
    · exact ⟨group, by simp [mem], List.infix_refl _⟩
    · refine ⟨_, folded, ?_⟩
      rw [GroupedWorkflowHistory.versions_fold]
      exact (List.prefix_append _ _).isInfix
    · exact ⟨group, by simp [mem], List.infix_refl _⟩
    · refine ⟨_, folded, ?_⟩
      rw [GroupedWorkflowHistory.versions_fold]
      exact (List.suffix_append _ _).isInfix

theorem length_mergeAt_succ (merges : mergeAt nodes isEqual rules diffs index = .ok later) :
    diffs.length ≤ later.length + 1 := by
  simp only [mergeAt] at merges
  split at merges
  · split at merges
    · obtain ⟨changes, -, result⟩ := Except.bind_eq_ok_iff.mp merges
      cases result
      simp only [List.length_set, List.length_dropLast]
      omega
    · cases merges
  · cases merges
    omega

theorem mergePass_keepsRows (below : index ≤ diffs.length - 1)
    (merges : mergePass nodes isEqual rules index diffs = .ok later) :
    KeepsRows diffs later := by
  induction index generalizing diffs with
  | zero =>
    obtain rfl := Except.ok.inj merges
    exact KeepsRows.refl diffs
  | succ index ih =>
    obtain ⟨middle, first, rest⟩ := Except.bind_eq_ok_iff.mp merges
    have shorter := length_mergeAt_succ first
    have before := mergeAt_keepsRows (by omega) (by omega) first
    exact before.trans (ih (by omega) rest)

/-- What follows a pass that began with `atStart` groups. -/
def finishPass (nodes : W → List DiffableNode)
    (isEqual : JsonValue → JsonValue → Bool) (rules : List (DiffRule W))
    (atStart : Nat) (later : List (GroupedWorkflowHistory W)) :
    Except WorkflowDiffError (List (GroupedWorkflowHistory W)) :=
  if later.length ≠ atStart then mergePasses nodes isEqual rules later
  else .ok later

theorem mergePasses_eq (diffs : List (GroupedWorkflowHistory W)) :
    mergePasses nodes isEqual rules diffs =
      mergePass nodes isEqual rules (diffs.length - 1) diffs >>=
        finishPass nodes isEqual rules diffs.length := by
  rw [mergePasses]
  cases pass : mergePass nodes isEqual rules (diffs.length - 1) diffs with
  | error failure => rfl
  | ok later => rfl

theorem mergePasses_keepsRows (merges : mergePasses nodes isEqual rules diffs = .ok later) :
    KeepsRows diffs later := by
  induction size : diffs.length using Nat.strong_induction_on generalizing diffs with
  | _ size ih =>
    rw [mergePasses_eq] at merges
    obtain ⟨middle, pass, rest⟩ := Except.bind_eq_ok_iff.mp merges
    have shorter := length_mergePass nodes isEqual rules pass
    have kept := mergePass_keepsRows (le_refl _) pass
    rw [finishPass] at rest
    split at rest
    · apply kept.trans
      exact ih middle.length (by omega) rest rfl
    · cases rest
      exact kept

namespace ReachesIndex

variable {start diffs : List (GroupedWorkflowHistory W)} {atStart index : Nat}

theorem index_le (reaches : ReachesIndex nodes isEqual rules start atStart diffs index) :
    index ≤ diffs.length - 1 := by
  induction reaches with
  | first | again => exact le_refl _
  | next _ merges below =>
    have shorter := length_mergeAt_succ merges
    omega

theorem mergePasses_eq_rest (reaches : ReachesIndex nodes isEqual rules start atStart diffs index) :
    mergePasses nodes isEqual rules start = mergePass nodes isEqual rules index diffs >>=
        finishPass nodes isEqual rules atStart := by
  induction reaches with
  | first => exact mergePasses_eq start
  | next _ merges rest =>
    rw [rest, mergePass, merges]
    rfl
  | @again atStart diffs _ shrunk rest =>
    rw [rest, ← mergePasses_eq]
    exact if_pos shrunk

end ReachesIndex

namespace ContiguousChain

variable {first : W} {later : List W} {groups : List (GroupedWorkflowHistory W)}

theorem versions_infix (chain : ContiguousChain first later groups)
    {group : GroupedWorkflowHistory W} (mem : group ∈ groups) :
    group.versions <:+: later := by
  obtain ⟨before, behind, rfl⟩ := List.append_of_mem mem
  rw [← chain.covers, List.flatMap_append, List.flatMap_cons]
  exact ⟨_, _, List.append_assoc _ _ _⟩

theorem fold {before : List (GroupedWorkflowHistory W)} {left right : GroupedWorkflowHistory W}
    (chain : ContiguousChain first later (before ++ [left, right]))
    (changes : WorkflowChangeSet) :
    ContiguousChain first later (before ++ [left.fold right changes]) := by
  constructor
  · have starts := chain.starts
    cases before with
    | nil | cons group before => simpa using starts
  · have ends := chain.ends
    simpa using ends
  · have linked := chain.linked
    rw [List.isChain_append] at linked ⊢
    refine ⟨linked.1, by simp, ?_⟩
    intro group last other head
    have joined := linked.2.2 group last left (by simp)
    obtain rfl : left.fold right changes = other := by simpa using head
    exact joined
  · rw [← chain.covers]
    simp

end ContiguousChain

/-- Two versions that do not follow each other are not neighbours. -/
theorem not_infix_of_nodup {α : Type} {left middle right : α} {before between behind : List α}
    (distinct : (before ++ left :: middle :: (between ++ right :: behind)).Nodup) :
    ¬ [left, right] <:+: before ++ left :: middle :: (between ++ right :: behind) := by
  intro neighbours
  obtain ⟨start, rest, equal⟩ := neighbours
  rw [List.append_assoc, List.cons_append, List.cons_append, List.nil_append] at equal
  have absent : left ∉ start ++ right :: rest := by
    rw [← equal] at distinct
    exact (List.nodup_cons.mp (List.nodup_middle.mp distinct)).1
  rw [List.mem_append, not_or] at absent
  obtain ⟨-, -, tails⟩ := (List.append_cons_inj_of_notMem absent.1 absent.2).mp equal
  obtain ⟨rfl, -⟩ := List.cons.inj tails
  have onlyOnce := (List.nodup_append.mp distinct).2.1
  simp at onlyOnce

namespace Unbroken

variable {first : W} {later : List W} {diffs : List (GroupedWorkflowHistory W)} {index : Nat}

theorem mergeAt_end {before : List (GroupedWorkflowHistory W)}
    {left right : GroupedWorkflowHistory W}
    (unbroken : Unbroken nodes first later (before ++ [left, right]))
    (merge : shouldMerge nodes isEqual rules (before ++ [left, right]) (before.length + 1) = true) :
    ∃ last, mergeAt nodes isEqual rules (before ++ [left, right])
        (before.length + 1) = .ok last ∧ Unbroken nodes first later last := by
  have joined : left.toWorkflow = right.fromWorkflow := by
    have linked := unbroken.chain.linked
    rw [List.isChain_append] at linked
    exact (List.isChain_cons_cons.mp linked.2.1).1
  have rightFits := unbroken.fits right (by simp)
  rw [← joined] at rightFits
  obtain ⟨changes, merges, fits⟩ :=
    WorkflowChangeSet.mergeNext_fits (unbroken.fits left (by simp)) rightFits
  have merged := mergeAt_of_shouldMerge [] merge
  rw [merges] at merged
  refine ⟨_, merged, unbroken.chain.fold changes, ?_⟩
  intro group mem
  rcases List.mem_append.mp mem with mem | mem
  · exact unbroken.fits group (by simp [mem])
  · obtain rfl : group = left.fold right changes := by simpa using mem
    exact fits

theorem mergeAt (unbroken : Unbroken nodes first later diffs)
    (positive : 0 < index) (below : index < diffs.length)
    (atEnd : shouldMerge nodes isEqual rules diffs index = true → index + 1 = diffs.length) :
    ∃ last, mergeAt nodes isEqual rules diffs index = .ok last ∧
      Unbroken nodes first later last := by
  cases merge : shouldMerge nodes isEqual rules diffs index with
  | false =>
    refine ⟨diffs, ?_, unbroken⟩
    rw [N8n.mergeAt, merge]
    rfl
  | true =>
    have reached := atEnd merge
    obtain ⟨before, left, between, right, rfl, rfl⟩ := exists_parts positive below
    obtain rfl : between = [] := by
      apply List.eq_nil_of_length_eq_zero
      simp only [List.length_append, List.length_cons, List.length_nil] at reached
      omega
    exact unbroken.mergeAt_end merge

theorem mergeAt_elsewhere (unbroken : Unbroken nodes first later diffs)
    (distinct : later.Nodup) (positive : 0 < index) (below : index < diffs.length)
    (merge : shouldMerge nodes isEqual rules diffs index = true)
    (elsewhere : index + 1 ≠ diffs.length) {last : List (GroupedWorkflowHistory W)}
    (merges : N8n.mergeAt nodes isEqual rules diffs index = .ok last) :
    ∃ left right, ¬ [left, right] <:+: later ∧
      ∃ group ∈ last, [left, right] <:+: group.versions := by
  obtain ⟨before, left, between, right, rfl, rfl⟩ := exists_parts positive below
  rw [mergeAt_of_shouldMerge _ merge] at merges
  obtain ⟨middle, others, rfl⟩ : ∃ middle others, between = middle :: others := by
    cases between with
    | nil => simp at elsewhere
    | cons middle others => exact ⟨middle, others, rfl⟩
  obtain ⟨next, behindNext, nextVersions⟩ := middle.exists_versions_eq_cons
  obtain ⟨moved, behindMoved, movedVersions⟩ := right.exists_versions_eq_cons
  have covers := unbroken.chain.covers
  simp only [List.flatMap_append, List.flatMap_cons, List.flatMap_nil,
    nextVersions, movedVersions, List.append_nil] at covers
  have shape : later = (before.flatMap (·.versions) ++ left.groupedWorkflows) ++
        left.toWorkflow :: next :: ((behindNext ++ others.flatMap (·.versions)) ++
            moved :: behindMoved) := by
    rw [← covers]
    simp [GroupedWorkflowHistory.versions]
  obtain ⟨changes, changed, merges⟩ := Except.bind_eq_ok_iff.mp merges
  cases merges
  refine ⟨left.toWorkflow, moved, ?_, left.fold right changes, by simp, ?_⟩
  · rw [shape] at distinct ⊢
    exact not_infix_of_nodup distinct
  · refine ⟨left.groupedWorkflows, behindMoved, ?_⟩
    rw [GroupedWorkflowHistory.versions_fold, movedVersions]
    simp [GroupedWorkflowHistory.versions]

end Unbroken

variable {first next : W} {later : List W}

theorem pairwiseGroups_unbroken (first next : W) (later : List W) :
    Unbroken nodes first (next :: later)
      (pairwiseGroups nodes isEqual (first :: next :: later)) := by
  induction later generalizing first next with
  | nil =>
    constructor
    · constructor <;> simp [pairwiseGroups, compareWorkflows, GroupedWorkflowHistory.versions]
    · intro group mem
      obtain rfl : group = compareWorkflows nodes isEqual first next := by
        simpa [pairwiseGroups] using mem
      exact compareWorkflowsNodes_fits isEqual _ _
  | cons other later ih =>
    have rest := ih next other
    rw [pairwiseGroups]
    constructor
    · constructor
      · rfl
      · have ends := rest.chain.ends
        rw [pairwiseGroups] at ends ⊢
        simpa using ends
      · rw [List.isChain_cons]
        constructor
        · intro group head
          obtain rfl : compareWorkflows nodes isEqual next other = group := by
            simpa [pairwiseGroups] using head
          rfl
        · exact rest.chain.linked
      · rw [List.flatMap_cons, rest.chain.covers]
        rfl
    · intro group mem
      rcases List.mem_cons.mp mem with rfl | mem
      · exact compareWorkflowsNodes_fits isEqual _ _
      · exact rest.fits group mem

/-- The grouping succeeds with a contiguous chain. -/
def GroupsContiguously (nodes : W → List DiffableNode)
    (isEqual : JsonValue → JsonValue → Bool) (rules : List (DiffRule W))
    (first : W) (later : List W) : Prop :=
  ∃ groups, groupWorkflows nodes isEqual rules (first :: later) = .ok groups ∧
    ContiguousChain first later groups

variable {start : List (GroupedWorkflowHistory W)}

theorem mergePass_unbroken {atStart index : Nat} (atEnd : ∀ atStart diffs index,
      ReachesIndex nodes isEqual rules start atStart diffs index → 0 < index →
        shouldMerge nodes isEqual rules diffs index = true → index + 1 = diffs.length)
    (reaches : ReachesIndex nodes isEqual rules start atStart diffs index)
    (unbroken : Unbroken nodes first later diffs) :
    ∃ last, mergePass nodes isEqual rules index diffs = .ok last ∧ Unbroken nodes first later last ∧
      ReachesIndex nodes isEqual rules start atStart last 0 := by
  induction index generalizing diffs with
  | zero => exact ⟨diffs, rfl, unbroken, reaches⟩
  | succ index ih =>
    have below := reaches.index_le
    obtain ⟨middle, merges, kept⟩ := unbroken.mergeAt (by omega) (by omega)
      (atEnd _ _ _ reaches (by omega))
    obtain ⟨last, passes, result⟩ := ih (reaches.next merges) kept
    refine ⟨last, ?_, result⟩
    rw [mergePass, merges]
    exact passes

theorem mergePasses_unbroken (atEnd : ∀ atStart diffs index,
      ReachesIndex nodes isEqual rules start atStart diffs index → 0 < index →
        shouldMerge nodes isEqual rules diffs index = true → index + 1 = diffs.length)
    (reaches : ReachesIndex nodes isEqual rules start diffs.length diffs
      (diffs.length - 1)) (unbroken : Unbroken nodes first later diffs) :
    ∃ last, mergePasses nodes isEqual rules diffs = .ok last ∧ Unbroken nodes first later last := by
  induction size : diffs.length using Nat.strong_induction_on generalizing diffs with
  | _ size ih =>
    obtain ⟨middle, passes, kept, reached⟩ := mergePass_unbroken atEnd reaches unbroken
    have shorter := length_mergePass nodes isEqual rules passes
    rw [mergePasses_eq, passes]
    change ∃ last, finishPass nodes isEqual rules diffs.length middle = .ok last ∧ _
    rw [finishPass]
    split
    next shrunk =>
      exact ih middle.length (by omega) (reached.again shrunk) kept rfl
    · exact ⟨middle, rfl, kept⟩

theorem finishPass_keepsRows {middle last : List (GroupedWorkflowHistory W)} {atStart : Nat}
    (finishes : finishPass nodes isEqual rules atStart middle = .ok last) :
    KeepsRows middle last := by
  rw [finishPass] at finishes
  split at finishes
  · exact mergePasses_keepsRows finishes
  · cases finishes
    exact KeepsRows.refl middle

namespace ReachesIndex

variable {start diffs last : List (GroupedWorkflowHistory W)} {atStart index : Nat}

theorem atEnd_of_unbroken (reaches : ReachesIndex nodes isEqual rules start atStart diffs index)
    (unbroken : Unbroken nodes first later diffs) (distinct : later.Nodup)
    (result : mergePasses nodes isEqual rules start = .ok last)
    (chain : ContiguousChain first later last) (positive : 0 < index)
    (merge : shouldMerge nodes isEqual rules diffs index = true) :
    index + 1 = diffs.length := by
  by_contra elsewhere
  have below := reaches.index_le
  rw [reaches.mergePasses_eq_rest] at result
  obtain ⟨middle, passes, finishes⟩ := Except.bind_eq_ok_iff.mp result
  obtain ⟨previous, rfl⟩ := Nat.exists_eq_succ_of_ne_zero positive.ne'
  obtain ⟨merged, merges, rest⟩ := Except.bind_eq_ok_iff.mp passes
  obtain ⟨left, right, apart, group, mem, neighbours⟩ :=
    unbroken.mergeAt_elsewhere distinct positive (by omega) merge elsewhere merges
  have shorter := length_mergeAt_succ merges
  have kept := (mergePass_keepsRows (by omega) rest).trans (finishPass_keepsRows finishes)
  obtain ⟨other, otherMem, inOther⟩ := kept group mem
  apply apart
  exact (neighbours.trans inOther).trans (chain.versions_infix otherMem)

theorem unbroken (reaches : ReachesIndex nodes isEqual rules start atStart diffs index)
    (begun : Unbroken nodes first later start) (distinct : later.Nodup)
    (result : mergePasses nodes isEqual rules start = .ok last)
    (chain : ContiguousChain first later last) :
    Unbroken nodes first later diffs := by
  induction reaches with
  | first => exact begun
  | @next atStart index diffs merged before merges ih =>
    have below := before.index_le
    obtain ⟨other, otherMerges, kept⟩ := ih.mergeAt (Nat.succ_pos index) (by omega)
        (before.atEnd_of_unbroken ih distinct result chain (Nat.succ_pos index))
    rw [merges] at otherMerges
    cases otherMerges
    exact kept
  | again _ _ ih => exact ih

end ReachesIndex

/-- The groups are a contiguous chain when each merge happens at the last
index, and, for pairwise distinct versions, only then. -/
theorem groupWorkflows_contiguous_iff (nodes : W → List DiffableNode)
    (isEqual : JsonValue → JsonValue → Bool) (rules : List (DiffRule W))
    (first next : W) (later : List W) :
    (MergesAtEnd nodes isEqual rules (first :: next :: later) →
        GroupsContiguously nodes isEqual rules first (next :: later)) ∧
      ((first :: next :: later).Nodup →
        GroupsContiguously nodes isEqual rules first (next :: later) →
          MergesAtEnd nodes isEqual rules (first :: next :: later)) := by
  have begun : Unbroken nodes first (next :: later)
      (pairwiseGroups nodes isEqual (first :: next :: later)) :=
    pairwiseGroups_unbroken first next later
  constructor
  · intro atEnd
    obtain ⟨groups, result, unbroken⟩ := mergePasses_unbroken atEnd .first begun
    exact ⟨groups, result, unbroken.chain⟩
  · intro distinct contiguous atStart diffs index reaches positive merge
    obtain ⟨groups, result, chain⟩ := contiguous
    have laterDistinct := (List.nodup_cons.mp distinct).2
    exact reaches.atEnd_of_unbroken
      (reaches.unbroken begun laterDistinct result chain) laterDistinct
      result chain positive merge

/-- A rule for numbered versions that merges the changes up to version 2 into
those from version 0. -/
private def mergeUpToTwo : DiffRule Nat :=
  fun prev next _ => prev.fromWorkflow == 0 && next.toWorkflow == 2

/-- The merge at index 1 removes the group from version 2 to version 3. -/
theorem groupWorkflows_middle_not_contiguous :
    ¬ GroupsContiguously (fun _ => []) (fun _ _ => true) [mergeUpToTwo] 0 [1, 2, 3] := by
  intro contiguous
  obtain ⟨groups, result, chain⟩ := contiguous
  have computed : groupWorkflows (fun _ => []) (fun _ _ => true)
      [mergeUpToTwo] [0, 1, 2, 3] = .ok [⟨⟨OrderedMap.empty⟩, [1, 3], 0, 2⟩] := by
    decide +kernel
  rw [computed] at result
  cases result
  exact absurd chain.covers (by decide)

end N8n
