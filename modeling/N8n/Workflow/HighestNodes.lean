import N8n.Workflow.Workflow

/-!
# Highest nodes

The search for the highest nodes shares its checked nodes between all branches
and takes a node for a highest one if it finds nothing above it.  So every
enabled node above the start has a result above it, and where the nodes above
the start are not shared between branches, the results are the nodes without
enabled nodes above them.
-/

namespace N8n

open List OrderedMap

namespace Workflow

section Relations

variable (workflow : Workflow)

def IsLeaf (name : String) : Prop := workflow.mainInputs name = none

def FedBy (name parent : String) : Prop :=
  workflow.connectionsByDestinationNode.Linked .main name parent ∧ (workflow.getNode parent).isSome

/-- The node itself or a node above it. -/
def Upstream : String → String → Prop := Relation.ReflTransGen workflow.FedBy

def Enabled (name : String) : Prop :=
  ∃ node, workflow.getNode name = some node ∧ node.disabled ≠ some true

/-- If the node is enabled, it or a node above it was found. -/
def Covers (found : List String) (name : String) : Prop :=
  workflow.Enabled name → ∃ highest ∈ found, workflow.Upstream name highest

/-- No other enabled node is above the node. -/
def IsRoot (name : String) : Prop :=
  ∀ above, workflow.Upstream name above → workflow.Enabled above → above = name

end Relations

variable {workflow : Workflow}

theorem IsLeaf.not_fedBy {name parent : String}
    (leaf : workflow.IsLeaf name) : ¬ workflow.FedBy name parent := by
  intro fed
  obtain ⟨inputs, found, _⟩ := IConnections.linked_iff_mem.mp fed.1
  rw [IsLeaf, mainInputs, found] at leaf
  cases leaf

theorem IsLeaf.upstream {name above : String} (leaf : workflow.IsLeaf name)
    (upstream : workflow.Upstream name above) : above = name := by
  rcases Relation.ReflTransGen.cases_head upstream with same | ⟨_, fed, _⟩
  · exact same.symm
  · exact absurd fed leaf.not_fedBy

theorem Covers.mono {found more : List String} {name : String} (covers : workflow.Covers found name)
    (subset : ∀ highest ∈ found, highest ∈ more) :
    workflow.Covers more name := by
  intro enabled
  obtain ⟨highest, mem, upstream⟩ := covers enabled
  exact ⟨highest, subset highest mem, upstream⟩

section Step

/-- `if (returnNodes.indexOf(name) === -1) returnNodes.push(name)` -/
def addName (returnNodes : List String) (name : String) : List String :=
  if name ∈ returnNodes then returnNodes else returnNodes ++ [name]

variable {returnNodes : List String} {name : String}

theorem mem_foldl_addName {addNodes : List String} :
    name ∈ addNodes.foldl addName returnNodes ↔ name ∈ returnNodes ∨ name ∈ addNodes := by
  induction addNodes generalizing returnNodes with
  | nil => simp
  | cons first addNodes ih =>
    rw [foldl_cons, ih, addName]
    split
    next present =>
      constructor
      · grind
      · grind
    · rw [mem_append, mem_singleton, mem_cons, or_assoc]

theorem nodup_foldl_addName {addNodes : List String} (nodup : returnNodes.Nodup) :
    (addNodes.foldl addName returnNodes).Nodup := by
  induction addNodes generalizing returnNodes with
  | nil => exact nodup
  | cons first addNodes ih =>
    apply ih
    rw [addName]
    split
    · exact nodup
    next absent =>
      exact (nodup_append.mpr ⟨nodup, nodup_singleton first, by
        intro left leftMem right rightMem same
        rw [mem_singleton] at rightMem
        exact absent (rightMem ▸ same ▸ leftMem)⟩)

/-- A parent without highest nodes above it is one itself. -/
def orItself (parent : INode) (name : String) (found : List String) : List String :=
  if found = [] ∧ parent.disabled ≠ some true then [name] else found

/-- The loop body of `getHighestNode`, given the recursive call. -/
def visitParent (workflow : Workflow) (highest : String → List String → List String × List String)
    (state : List String × List String) (connection : IConnection) :
    List String × List String :=
  if connection.node ∈ state.2 then state
  else
    match workflow.getNode connection.node with
    | none => state
    | some parent =>
      ((orItself parent connection.node (highest connection.node state.2).1).foldl addName state.1,
        (highest connection.node state.2).2)

/-- The start of a call: the node itself when it is not disabled. -/
def currentHighest (workflow : Workflow) (name : String) : List String :=
  match workflow.getNode name with
  | some node => if node.disabled = some false then [name] else []
  | none => []

variable {checkedNodes : List String}

theorem getHighestNodeFrom_leaf {fuel : Nat} (leaf : workflow.IsLeaf name) :
    workflow.getHighestNodeFrom (fuel + 1) name none checkedNodes =
      (workflow.currentHighest name, checkedNodes) := by
  rw [getHighestNodeFrom, leaf]
  rfl

variable {inputs : NodeInputConnections}

theorem getHighestNodeFrom_succ {fuel : Nat} (found : workflow.mainInputs name = some inputs)
    (unchecked : name ∉ checkedNodes) :
    workflow.getHighestNodeFrom (fuel + 1) name none checkedNodes =
      (inputs.flatMap (Option.getD · [])).foldl (workflow.visitParent fun parent checkedNodes =>
          workflow.getHighestNodeFrom fuel parent none checkedNodes)
        ([], checkedNodes ++ [name]) := by
  rw [getHighestNodeFrom, found]
  simp only [if_neg unchecked]
  have connections : inputs.zipIdx.flatMap (fun entry =>
      Option.getD entry.1 []) = inputs.flatMap (Option.getD · []) := by
    calc inputs.zipIdx.flatMap (fun entry => Option.getD entry.1 [])
        = (inputs.zipIdx.map Prod.fst).flatMap (Option.getD · []) := by
          rw [flatMap_map]
      _ = inputs.flatMap (Option.getD · []) := by rw [zipIdx_map_fst]
  rw [filter_eq_self.mpr, connections]
  · rfl
  · intro entry _
    rfl

theorem fedBy_iff {name parent : String} (found : workflow.mainInputs name = some inputs) :
    workflow.FedBy name parent ↔ (∃ edge ∈ inputs.flatMap (Option.getD · []),
        edge.node = parent) ∧ (workflow.getNode parent).isSome := by
  rw [FedBy, IConnections.linked_iff_mem]
  rw [mainInputs] at found
  simp [found]

end Step

section Search

/-- Nodes are checked once, and only nodes of the workflow with main inputs. -/
def ValidChecked (workflow : Workflow) (checkedNodes : List String) : Prop :=
  checkedNodes.Nodup ∧ ∀ name ∈ checkedNodes,
    (workflow.getNode name).isSome ∧ ¬ workflow.IsLeaf name

variable {checkedNodes : List String}

theorem ValidChecked.length_le (valid : workflow.ValidChecked checkedNodes) :
    checkedNodes.length ≤ workflow.nodes.size := by
  have bounded : checkedNodes.length ≤ workflow.nodes.keys.length := by
    apply List.Nodup.length_le_of_subset valid.1
    intro name mem
    by_contra absent
    have present := (valid.2 name mem).1
    rw [getNode, get?_eq_none_iff.mpr absent] at present
    cases present
  simpa only [OrderedMap.keys, OrderedMap.size, length_map] using bounded

theorem ValidChecked.append {name : String}
    (valid : workflow.ValidChecked checkedNodes) (unchecked : name ∉ checkedNodes)
    (isNode : (workflow.getNode name).isSome) (inner : ¬ workflow.IsLeaf name) :
    workflow.ValidChecked (checkedNodes ++ [name]) := by
  constructor
  · rw [nodup_append]
    refine ⟨valid.1, nodup_singleton name, ?_⟩
    intro left leftMem right rightMem same
    rw [mem_singleton] at rightMem
    exact unchecked (rightMem ▸ same ▸ leftMem)
  · intro other mem
    rcases mem_append.mp mem with old | new
    · exact valid.2 other old
    · rw [mem_singleton.mp new]
      exact ⟨isNode, inner⟩

/-- The parents of the nodes which were checked meanwhile. -/
def ParentsReached (workflow : Workflow) (before found after : List String) : Prop :=
  ∀ name ∈ after, name ∉ before → ∀ parent, workflow.FedBy name parent →
    parent ∈ after ∨ (workflow.IsLeaf parent ∧ workflow.Covers found parent)

/-- What a call for a node finds above it. -/
structure Explored (workflow : Workflow) (name : String)
    (before found after : List String) : Prop where
  valid : workflow.ValidChecked after
  grows : ∀ checked ∈ before, checked ∈ after
  nodup : found.Nodup
  sound : ∀ highest ∈ found, workflow.Enabled highest ∧
    workflow.Upstream name highest ∧ highest ∉ before
  others : ¬ workflow.IsLeaf name → name ∉ found
  reached : workflow.IsLeaf name ∨ name ∈ after
  parents : workflow.ParentsReached before found after
  covered : ∀ checked ∈ after, checked ∉ before → checked ≠ name → workflow.Covers found checked

/-- The loop of a call, behind some of the connections. -/
structure Looped (workflow : Workflow) (name : String)
    (before : List String) (conns : List IConnection)
    (state : List String × List String) : Prop where
  valid : workflow.ValidChecked state.2
  grows : ∀ checked ∈ before, checked ∈ state.2
  nodup : state.1.Nodup
  sound : ∀ highest ∈ state.1, workflow.Enabled highest ∧
    workflow.Upstream name highest ∧ highest ∉ before
  parents : workflow.ParentsReached before state.1 state.2
  covered : ∀ checked ∈ state.2, checked ∉ before → workflow.Covers state.1 checked
  visited : ∀ connection ∈ conns, (workflow.getNode connection.node).isSome →
    connection.node ∈ state.2 ∨ (workflow.IsLeaf connection.node ∧
      workflow.Covers state.1 connection.node)

variable {node : INode} {before found after : List String}

theorem Explored.covers_orItself {name : String}
    (explored : workflow.Explored name before found after)
    (isNode : workflow.getNode name = some node) :
    workflow.Covers (orItself node name found) name := by
  intro enabled
  rw [orItself]
  split
  · exact ⟨name, mem_singleton_self name, .refl⟩
  next kept =>
    obtain ⟨other, otherFound, notDisabled⟩ := enabled
    rw [isNode] at otherFound
    cases otherFound
    cases found with
    | nil => exact absurd ⟨rfl, notDisabled⟩ kept
    | cons highest found =>
      exact ⟨highest, mem_cons_self, (explored.sound highest mem_cons_self).2.1⟩

theorem subset_orItself {name : String} {found : List String} :
    ∀ highest ∈ found, highest ∈ orItself node name found := by
  intro highest mem
  rw [orItself]
  split
  next replaced =>
    rw [replaced.1] at mem
    cases mem
  · exact mem

theorem mem_orItself {name highest : String}
    {found : List String} (mem : highest ∈ orItself node name found) :
    highest ∈ found ∨ (highest = name ∧ found = [] ∧ node.disabled ≠ some true) := by
  rw [orItself] at mem
  split at mem
  · exact .inr ⟨mem_singleton.mp mem, ‹_›⟩
  · exact .inl mem

variable {state : List String × List String}
  {highest : String → List String → List String × List String}

theorem Looped.next {name : String} {before : List String} {conns : List IConnection}
    {edge : IConnection}
    (looped : workflow.Looped name before conns state)
    (fed : (workflow.getNode edge.node).isSome → workflow.FedBy name edge.node)
    (explores : edge.node ∉ state.2 → (workflow.getNode edge.node).isSome →
      workflow.Explored edge.node state.2 (highest edge.node state.2).1
        (highest edge.node state.2).2) :
    workflow.Looped name before (conns ++ [edge]) (workflow.visitParent highest state edge) := by
  have visitedBefore : ∀ {next : List String × List String},
      (∀ checked ∈ state.2, checked ∈ next.2) →
      (∀ found ∈ state.1, found ∈ next.1) →
      ((workflow.getNode edge.node).isSome → edge.node ∈ next.2 ∨ (workflow.IsLeaf edge.node ∧
          workflow.Covers next.1 edge.node)) →
      ∀ other ∈ conns ++ [edge], (workflow.getNode other.node).isSome →
        other.node ∈ next.2 ∨ (workflow.IsLeaf other.node ∧ workflow.Covers next.1 other.node) := by
    intro next checkedGrows foundGrows last other mem isNode
    rcases mem_append.mp mem with old | new
    · rcases looped.visited other old isNode with checked | ⟨leaf, covers⟩
      · exact .inl (checkedGrows _ checked)
      · exact .inr ⟨leaf, covers.mono foundGrows⟩
    · rw [mem_singleton.mp new] at isNode ⊢
      exact last isNode
  rw [visitParent]
  by_cases checked : edge.node ∈ state.2
  · rw [if_pos checked]
    exact ⟨looped.valid, looped.grows, looped.nodup, looped.sound, looped.parents, looped.covered,
      visitedBefore (fun _ => id) (fun _ => id) fun _ => .inl checked⟩
  rw [if_neg checked]
  cases isNode : workflow.getNode edge.node with
  | none =>
    refine ⟨looped.valid, looped.grows, looped.nodup, looped.sound, looped.parents, looped.covered,
      visitedBefore (fun _ => id) (fun _ => id) ?_⟩
    intro present
    rw [isNode] at present
    cases present
  | some parent =>
    have present : (workflow.getNode edge.node).isSome := by
      rw [isNode]
      rfl
    have explored := explores checked present
    generalize highest edge.node state.2 = result at explored
    obtain ⟨found, after⟩ := result
    have upstream : workflow.Upstream name edge.node := .single (fed present)
    have kept : ∀ other ∈ state.1, other ∈
        (orItself parent edge.node found).foldl addName state.1 :=
      fun other mem => mem_foldl_addName.mpr (.inl mem)
    have added : ∀ other ∈ orItself parent edge.node found, other ∈
        (orItself parent edge.node found).foldl addName state.1 :=
      fun other mem => mem_foldl_addName.mpr (.inr mem)
    have addedFound : ∀ other ∈ found, other ∈
        (orItself parent edge.node found).foldl addName state.1 :=
      fun other mem => added other (subset_orItself other mem)
    have own := (explored.covers_orItself isNode).mono added
    refine ⟨explored.valid, ?_, nodup_foldl_addName looped.nodup, ?_, ?_, ?_,
      visitedBefore explored.grows kept ?_⟩
    · intro other mem
      exact explored.grows other (looped.grows other mem)
    · intro other mem
      rcases mem_foldl_addName.mp mem with old | new
      · exact looped.sound other old
      · rcases mem_orItself new with inner | ⟨same, _, notDisabled⟩
        · obtain ⟨enabled, above, fresh⟩ := explored.sound other inner
          exact ⟨enabled, upstream.trans above, fun listed =>
            fresh (looped.grows other listed)⟩
        · subst same
          exact ⟨⟨parent, isNode, notDisabled⟩, upstream, fun listed =>
            checked (looped.grows _ listed)⟩
    · intro other mem fresh above fedBy
      by_cases old : other ∈ state.2
      · rcases looped.parents other old fresh above fedBy with
          there | ⟨leaf, covers⟩
        · exact .inl (explored.grows above there)
        · exact .inr ⟨leaf, covers.mono kept⟩
      · rcases explored.parents other mem old above fedBy with
          there | ⟨leaf, covers⟩
        · exact .inl there
        · exact .inr ⟨leaf, covers.mono addedFound⟩
    · intro other mem fresh
      by_cases old : other ∈ state.2
      · exact (looped.covered other old fresh).mono kept
      · by_cases same : other = edge.node
        · subst same
          exact own
        · exact (explored.covered other mem old same).mono addedFound
    · intro _
      rcases explored.reached with leaf | there
      · exact .inr ⟨leaf, own⟩
      · exact .inl there

theorem Looped.foldl {name : String} {before : List String} {conns done : List IConnection}
    (looped : workflow.Looped name before done state)
    (fed : ∀ edge ∈ conns, (workflow.getNode edge.node).isSome → workflow.FedBy name edge.node)
    (explores : ∀ parent checkedNodes, workflow.ValidChecked checkedNodes →
      (∀ checked ∈ before, checked ∈ checkedNodes) →
      parent ∉ checkedNodes → (workflow.getNode parent).isSome →
      workflow.Explored parent checkedNodes (highest parent checkedNodes).1
        (highest parent checkedNodes).2) :
    workflow.Looped name before (done ++ conns)
      (conns.foldl (workflow.visitParent highest) state) := by
  induction conns generalizing done state with
  | nil =>
    rw [append_nil]
    exact looped
  | cons edge conns ih =>
    rw [forall_mem_cons] at fed
    rw [foldl_cons, append_cons]
    exact ih (looped.next fed.1 (explores edge.node state.2 looped.valid looped.grows)) fed.2

theorem explored_getHighestNodeFrom {fuel : Nat} {name : String}
    {checkedNodes : List String} (valid : workflow.ValidChecked checkedNodes)
    (unchecked : name ∉ checkedNodes) (isNode : (workflow.getNode name).isSome)
    (enough : workflow.nodes.size + 1 ≤ fuel + checkedNodes.length) :
    workflow.Explored name checkedNodes (workflow.getHighestNodeFrom fuel name none checkedNodes).1
      (workflow.getHighestNodeFrom fuel name none checkedNodes).2 := by
  induction fuel generalizing name checkedNodes with
  | zero =>
    have bound := valid.length_le
    omega
  | succ fuel ih =>
    cases found : workflow.mainInputs name with
    | none =>
      rw [getHighestNodeFrom_leaf found]
      obtain ⟨node, nodeFound⟩ := Option.isSome_iff_exists.mp isNode
      have current : ∀ highest ∈ workflow.currentHighest name,
          highest = name ∧ node.disabled = some false := by
        intro highest mem
        simp only [currentHighest, nodeFound] at mem
        split at mem
        · exact ⟨mem_singleton.mp mem, ‹_›⟩
        · cases mem
      have nodup : (workflow.currentHighest name).Nodup := by
        simp only [currentHighest, nodeFound]
        split <;> simp
      refine ⟨valid, fun _ => id, nodup, ?_, fun inner => absurd found inner, .inl found, ?_, ?_⟩
      · intro highest mem
        obtain ⟨same, notDisabled⟩ := current highest mem
        subst same
        refine ⟨⟨node, nodeFound, ?_⟩, .refl, unchecked⟩
        rw [notDisabled]
        decide
      · intro other mem fresh
        exact absurd mem fresh
      · intro other mem fresh
        exact absurd mem fresh
    | some inputs =>
      have inner : ¬ workflow.IsLeaf name := by
        intro leaf
        rw [IsLeaf, found] at leaf
        cases leaf
      rw [getHighestNodeFrom_succ found unchecked]
      have validNext := valid.append unchecked isNode inner
      have start : workflow.Looped name (checkedNodes ++ [name]) []
          ([], checkedNodes ++ [name]) := by
        refine ⟨validNext, fun _ => id, nodup_nil, ?_, ?_, ?_, ?_⟩
        · simp
        · intro other mem fresh
          exact absurd mem fresh
        · intro other mem fresh
          exact absurd mem fresh
        · simp
      have looped := start.foldl (fun edge mem present => (fedBy_iff found).mpr
          ⟨⟨edge, mem, rfl⟩, present⟩)
        (fun parent checkedNow validNow grows parentUnchecked isParent =>
          ih validNow parentUnchecked isParent (by
            have subset := List.Nodup.length_le_of_subset validNext.1 grows
            rw [length_append, length_singleton] at subset
            omega))
      generalize (inputs.flatMap (Option.getD · [])).foldl
        (workflow.visitParent fun parent checkedNodes =>
          workflow.getHighestNodeFrom fuel parent none checkedNodes)
        ([], checkedNodes ++ [name]) = result at looped ⊢
      have apart : ∀ {other : String}, other ∉ checkedNodes →
          other ≠ name → other ∉ checkedNodes ++ [name] := by
        intro other fresh ne mem
        rcases mem_append.mp mem with old | new
        · exact fresh old
        · exact ne (mem_singleton.mp new)
      have checked : name ∈ result.2 := looped.grows name (mem_append_right _
          (mem_singleton_self name))
      refine ⟨looped.valid, ?_, looped.nodup, ?_, ?_, .inr checked, ?_, ?_⟩
      · intro other mem
        exact looped.grows other (mem_append_left _ mem)
      · intro highest mem
        obtain ⟨enabled, upstream, fresh⟩ := looped.sound highest mem
        exact ⟨enabled, upstream, fun listed =>
          fresh (mem_append_left _ listed)⟩
      · intro _ mem
        exact (looped.sound name mem).2.2 (mem_append_right _ (mem_singleton_self name))
      · intro other mem fresh parent fedBy
        by_cases same : other = name
        · subst same
          obtain ⟨⟨edge, listed, target⟩, isParent⟩ := (fedBy_iff found).mp fedBy
          subst target
          exact looped.visited edge listed isParent
        · exact looped.parents other mem (apart fresh same) parent fedBy
      · intro other mem fresh ne
        exact looped.covered other mem (apart fresh ne)

theorem Explored.upstream {name above : String}
    (explored : workflow.Explored name before found after)
    (apart : ∀ other, workflow.Upstream name other → other ∉ before)
    (upstream : workflow.Upstream name above) (ne : above ≠ name) :
    workflow.Covers found above := by
  have reached : above ∈ after ∨ (workflow.IsLeaf above ∧
      (above = name ∨ workflow.Covers found above)) := by
    clear ne
    induction upstream with
    | refl =>
      rcases explored.reached with leaf | there
      · exact .inr ⟨leaf, .inl rfl⟩
      · exact .inl there
    | @tail other above upstream fed ih =>
      rcases ih with there | ⟨leaf, _⟩
      · rcases explored.parents other there (apart other upstream) above fed
          with parent | ⟨leaf, covers⟩
        · exact .inl parent
        · exact .inr ⟨leaf, .inr covers⟩
      · exact absurd fed leaf.not_fedBy
  rcases reached with there | ⟨_, covers⟩
  · exact explored.covered above there (apart above upstream) ne
  · exact covers.resolve_left ne

end Search

section Unshared

/-- No node above the start is above it on two ways, and the start is not
above itself. -/
structure Unshared (workflow : Workflow) (start : String) : Prop where
  unfed : ∀ name, workflow.Upstream start name → ¬ workflow.FedBy name start
  single : ∀ first second parent, workflow.Upstream start first →
    workflow.Upstream start second → workflow.FedBy first parent →
      workflow.FedBy second parent → first = second

/-- The checked nodes are above the start, each with one below it. -/
def Attached (workflow : Workflow) (start : String) (checkedNodes : List String) : Prop :=
  ∀ name ∈ checkedNodes, workflow.Upstream start name ∧
    (name = start ∨ ∃ below ∈ checkedNodes, workflow.FedBy below name)

variable {start : String} {checkedNodes : List String}

theorem Attached.append {name : String} (attached : workflow.Attached start checkedNodes)
    (upstream : workflow.Upstream start name) (below : name = start ∨
      ∃ below ∈ checkedNodes, workflow.FedBy below name) :
    workflow.Attached start (checkedNodes ++ [name]) := by
  intro other mem
  rcases mem_append.mp mem with old | new
  · obtain ⟨otherUpstream, otherBelow⟩ := attached other old
    refine ⟨otherUpstream, otherBelow.imp_right ?_⟩
    intro found
    obtain ⟨child, listed, fed⟩ := found
    exact ⟨child, mem_append_left _ listed, fed⟩
  · rw [mem_singleton.mp new]
    refine ⟨upstream, below.imp_right ?_⟩
    intro found
    obtain ⟨child, listed, fed⟩ := found
    exact ⟨child, mem_append_left _ listed, fed⟩

theorem Attached.apart {name above : String} (unshared : workflow.Unshared start)
    (attached : workflow.Attached start checkedNodes)
    (unchecked : name ∉ checkedNodes) (nameUpstream : workflow.Upstream start name)
    (upstream : workflow.Upstream name above) : above ∉ checkedNodes := by
  induction upstream with
  | refl => exact unchecked
  | @tail other above upstream fed ih =>
    intro checked
    have otherUpstream := nameUpstream.trans upstream
    rcases (attached above checked).2 with same | ⟨below, listed, fedToo⟩
    · subst same
      exact unshared.unfed other otherUpstream fed
    · have same := unshared.single below other above
        (attached below listed).1 otherUpstream fedToo fed
      exact ih (same ▸ listed)

theorem isRoot_getHighestNodeFrom {fuel : Nat} {name : String} (unshared : workflow.Unshared start)
    (valid : workflow.ValidChecked checkedNodes) (unchecked : name ∉ checkedNodes)
    (isNode : (workflow.getNode name).isSome)
    (enough : workflow.nodes.size + 1 ≤ fuel + checkedNodes.length)
    (attached : workflow.Attached start checkedNodes)
    (upstream : workflow.Upstream start name) (below : name = start ∨
      ∃ below ∈ checkedNodes, workflow.FedBy below name) :
    workflow.Attached start (workflow.getHighestNodeFrom fuel name none checkedNodes).2 ∧
      ∀ highest ∈ (workflow.getHighestNodeFrom fuel name none checkedNodes).1,
        workflow.IsRoot highest := by
  induction fuel generalizing name checkedNodes with
  | zero =>
    have bound := valid.length_le
    omega
  | succ fuel ih =>
    cases found : workflow.mainInputs name with
    | none =>
      have leaf : workflow.IsLeaf name := found
      have explored := explored_getHighestNodeFrom valid unchecked isNode enough
      rw [getHighestNodeFrom_leaf leaf] at explored ⊢
      refine ⟨attached, ?_⟩
      intro highest mem
      have same := leaf.upstream (explored.sound highest mem).2.1
      subst same
      exact fun above upstream _ => leaf.upstream upstream
    | some inputs =>
      have inner : ¬ workflow.IsLeaf name := by
        intro leaf
        rw [IsLeaf, found] at leaf
        cases leaf
      rw [getHighestNodeFrom_succ found unchecked]
      have fed : ∀ edge ∈ inputs.flatMap (Option.getD · []),
          (workflow.getNode edge.node).isSome → workflow.FedBy name edge.node :=
        fun edge mem present => (fedBy_iff found).mpr ⟨⟨edge, mem, rfl⟩, present⟩
      have validNext := valid.append unchecked isNode inner
      have loop : ∀ (conns : List IConnection) (state : List String × List String), (∀ edge ∈ conns,
            (workflow.getNode edge.node).isSome → workflow.FedBy name edge.node) →
          workflow.ValidChecked state.2 →
          (∀ checked ∈ checkedNodes ++ [name], checked ∈ state.2) →
          workflow.Attached start state.2 →
          (∀ highest ∈ state.1, workflow.IsRoot highest) →
          let last := conns.foldl (workflow.visitParent fun parent checkedNodes =>
              workflow.getHighestNodeFrom fuel parent none checkedNodes)
            state
          workflow.Attached start last.2 ∧ ∀ highest ∈ last.1, workflow.IsRoot highest := by
        intro conns
        induction conns with
        | nil =>
          intro state _ _ _ attached roots
          exact ⟨attached, roots⟩
        | cons edge conns rest =>
          intro state fed validNow grows attached roots
          rw [forall_mem_cons] at fed
          rw [foldl_cons, visitParent]
          by_cases checked : edge.node ∈ state.2
          · rw [if_pos checked]
            exact rest state fed.2 validNow grows attached roots
          rw [if_neg checked]
          cases parentFound : workflow.getNode edge.node with
          | none => exact rest state fed.2 validNow grows attached roots
          | some parent =>
            have present : (workflow.getNode edge.node).isSome := by
              rw [parentFound]
              rfl
            have fedBy := fed.1 present
            have isBelow : name ∈ state.2 := grows name
              (mem_append_right _ (mem_singleton_self name))
            have above : workflow.Upstream start edge.node := upstream.tail fedBy
            have subset := List.Nodup.length_le_of_subset validNext.1 grows
            rw [length_append, length_singleton] at subset
            have explored := @explored_getHighestNodeFrom workflow fuel
              _ _ validNow checked present (by omega)
            obtain ⟨attachedNext, rootsNext⟩ := ih validNow checked
              present (by omega) attached above
              (.inr ⟨name, isBelow, fedBy⟩)
            refine rest ((orItself parent edge.node (workflow.getHighestNodeFrom fuel edge.node none
                  state.2).1).foldl addName state.1,
                (workflow.getHighestNodeFrom fuel edge.node none
                  state.2).2) fed.2 explored.valid ?_ ?_ ?_
            · intro other mem
              exact explored.grows other (grows other mem)
            · exact attachedNext
            · intro highest mem
              rcases mem_foldl_addName.mp mem with old | new
              · exact roots highest old
              · rcases mem_orItself new with inner | ⟨same, none, _⟩
                · exact rootsNext highest inner
                · subst same
                  rw [none] at explored
                  intro other otherUpstream enabled
                  by_contra ne
                  obtain ⟨_, mem, _⟩ := explored.upstream
                    (fun _ => attached.apart unshared checked above)
                    otherUpstream ne enabled
                  cases mem
      apply loop _ _ fed validNext (fun _ => id)
      · exact attached.append upstream below
      · intro highest mem
        cases mem

end Unshared

/-- A start without inputs is its own highest node, by its `disabled` flag.
Otherwise every enabled node above the start has a result above it, and the
results have no other enabled nodes above them if nothing is shared. -/
structure SearchesHighest (workflow : Workflow) (start : String)
    (result : List String) : Prop where
  nodup : result.Nodup
  withoutInputs : workflow.IsLeaf start → ∀ node, workflow.getNode start = some node →
      (node.disabled = some false → result = [start]) ∧ (node.disabled = some true → result = [])
  sound : ¬ workflow.IsLeaf start → ∀ highest ∈ result,
    highest ≠ start ∧ workflow.Upstream start highest ∧ workflow.Enabled highest
  covers : ¬ workflow.IsLeaf start → ∀ name, name ≠ start →
    workflow.Upstream start name → workflow.Covers result name
  roots : ¬ workflow.IsLeaf start → ∀ name, name ≠ start →
    workflow.Upstream start name → workflow.Enabled name → workflow.IsRoot name → name ∈ result
  exact : ¬ workflow.IsLeaf start → workflow.Unshared start →
    ∀ highest ∈ result, workflow.IsRoot highest

theorem getHighestNode_searchesHighest {workflow : Workflow} {start : String}
    (isNode : (workflow.getNode start).isSome) :
    workflow.SearchesHighest start (workflow.getHighestNode start) := by
  rw [getHighestNode]
  have valid : workflow.ValidChecked [] := ⟨nodup_nil, by simp⟩
  have explored := @explored_getHighestNodeFrom workflow
    (workflow.nodes.size + 2) start [] valid (by simp) isNode (by simp)
  have covers : ∀ name, name ≠ start → workflow.Upstream start name →
      workflow.Covers (workflow.getHighestNodeFrom (workflow.nodes.size + 2)
        start none []).1 name :=
    fun name ne upstream =>
      explored.upstream (by simp) upstream ne
  refine ⟨explored.nodup, ?_, ?_, fun _ => covers, ?_, ?_⟩
  · intro leaf node found
    rw [getHighestNodeFrom_leaf leaf, currentHighest, found]
    constructor
    · intro enabled
      simp [enabled]
    · intro disabled
      simp [disabled]
  · intro inner highest mem
    obtain ⟨enabled, upstream, _⟩ := explored.sound highest mem
    refine ⟨?_, upstream, enabled⟩
    intro same
    exact explored.others inner (same ▸ mem)
  · intro _ name ne upstream enabled root
    obtain ⟨highest, mem, above⟩ := covers name ne upstream enabled
    rwa [← root highest above (explored.sound highest mem).1]
  · intro _ unshared
    exact (isRoot_getHighestNodeFrom unshared valid (by simp) isNode (by simp)
      (by simp [Attached]) .refl (.inl rfl)).2

/-- The enabled nodes above the start, or the start itself, without other
enabled nodes above them. -/
def ReturnsRoots (workflow : Workflow) (start : String) (result : List String) : Prop :=
  result.Nodup ∧ ∀ name, name ∈ result ↔ workflow.Upstream start name ∧
    workflow.Enabled name ∧ workflow.IsRoot name

namespace HighestNodesExample

def highestNode (name : String) (disabled : Bool) : INode :=
  { name := name, type := "set", disabled := some disabled }

def disabledParent : Workflow where
  nodes := (empty.set "Fetch" (highestNode "Fetch" true)).set "Target" (highestNode "Target" false)
  connectionsBySourceNode := empty.set "Fetch" (empty.set .main [some [⟨"Target", .main, 0⟩]])

def chain : Workflow where
  nodes := (empty.set "Fetch" (highestNode "Fetch" false)).set "Target" (highestNode "Target" false)
  connectionsBySourceNode := empty.set "Fetch" (empty.set .main [some [⟨"Target", .main, 0⟩]])

theorem getHighestNode_searchesHighest_chain : chain.getHighestNode "Target" = ["Fetch"] ∧
      chain.SearchesHighest "Target" (chain.getHighestNode "Target") :=
  ⟨by decide +kernel, getHighestNode_searchesHighest (by decide +kernel)⟩

theorem not_returnsRoots_disabledParent : disabledParent.getHighestNode "Target" = [] ∧
      ¬ disabledParent.ReturnsRoots "Target" (disabledParent.getHighestNode "Target") := by
  have none : disabledParent.getHighestNode "Target" = [] := by
    decide +kernel
  refine ⟨none, ?_⟩
  intro returnsRoots
  have mem := (returnsRoots.2 "Target").mpr ⟨.refl, ?_, ?_⟩
  · cases mem
  · exact ⟨highestNode "Target" false, by decide +kernel, by decide⟩
  · intro above upstream enabled
    rcases Relation.ReflTransGen.cases_tail upstream with same |
      ⟨child, _, ⟨index, connection, entry, same⟩, _⟩
    · exact same
    · obtain ⟨source, listed, _, origin⟩ := entry_mapConnectionsByDestination.mp entry
      have onlyFetch : ∀ source ∈ disabledParent.connectionsBySourceNode.enumerate,
            source.fromNode = "Fetch" := by decide +kernel
      have fetch : above = "Fetch" := by
        rw [← same, origin, SourceConnection.origin, onlyFetch source listed]
      obtain ⟨node, found, notDisabled⟩ := enabled
      have disabled : (disabledParent.getNode "Fetch").bind INode.disabled =
          some true := by decide +kernel
      rw [fetch] at found
      rw [found] at disabled
      exact absurd disabled notDisabled

end HighestNodesExample

end Workflow

end N8n
