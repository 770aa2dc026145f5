import N8n.Workflow.Connections

/-!
# Connected nodes

The search for connected nodes finds each node it should find, and on a table
without cycles it lists a node before those that lead to it.  It may list a
node twice: the nodes which the start is linked to are put in front without a
look at the nodes found before.
-/

namespace N8n

open List Nat Relation

variable {connections : IConnections} {connectionType : ConnectionTypeSelector} {depth : Int}

section Once

variable {returnNodes : List String}

theorem nodup_moveToFront {addNodes : List String} :
    (moveToFront addNodes returnNodes).Nodup ↔ returnNodes.Nodup := by
  induction addNodes with
  | nil => exact Iff.rfl
  | cons name addNodes ih =>
    have unfolded : moveToFront (name :: addNodes) returnNodes =
        name :: (moveToFront addNodes returnNodes).erase name := rfl
    rw [unfolded, ← ih]
    by_cases mem : name ∈ moveToFront addNodes returnNodes
    · exact (perm_cons_erase mem).symm.nodup_iff
    · rw [erase_of_not_mem mem, nodup_cons]
      exact and_iff_right mem

theorem nodup_foldl_visitConnection {connectedNodes : String → List String}
    {checkedNodes : List String} {conns : List IConnection} :
    (conns.foldl (visitConnection connectedNodes checkedNodes) returnNodes).Nodup ↔
      returnNodes.Nodup ∧ (∀ target ∈ (conns.map IConnection.node).filter
          (fun target => target ∉ checkedNodes), target ∉ returnNodes) ∧
        ((conns.map IConnection.node).filter
          (fun target => target ∉ checkedNodes)).Pairwise fun earlier later =>
              later ≠ earlier ∧ later ∉ connectedNodes earlier := by
  induction conns generalizing returnNodes with
  | nil => simp
  | cons first conns ih =>
    rw [foldl_cons, ih, visitConnection, map_cons]
    by_cases checked : first.node ∈ checkedNodes
    · simp [checked]
    · rw [if_neg checked, nodup_moveToFront, nodup_cons,
        filter_cons_of_pos (by simpa using checked),
        pairwise_cons, forall_mem_cons]
      simp only [mem_moveToFront, mem_cons, not_or]
      constructor
      · intro visited
        obtain ⟨⟨fresh, nodup⟩, later, pairwise⟩ := visited
        exact ⟨nodup, ⟨fresh, fun target mem =>
          (later target mem).2.2⟩, fun target mem =>
            ⟨(later target mem).2.1, (later target mem).1⟩, pairwise⟩
      · intro visited
        obtain ⟨nodup, ⟨fresh, later⟩, apart, pairwise⟩ := visited
        exact ⟨⟨fresh, nodup⟩, fun target mem =>
          ⟨(apart target mem).2, (apart target mem).1, later target mem⟩, pairwise⟩

/-- `later` is reached from `start` over `earlier` without a way back to
`start`. -/
def ReachedOver (connections : IConnections) (connectionType : ConnectionTypeSelector) (depth : Int)
    (start earlier later : String) : Prop :=
  ∃ left, VertexPath (connections.LinkedOver connectionType) earlier left later ∧
    start ∉ left ++ [later] ∧ WithinDepth depth (left.length + 1)

/-- The start is linked to no node which it reaches over a node it is linked
to before. -/
def TargetsApart (connections : IConnections) (nodeName : String)
    (connectionType : ConnectionTypeSelector) (depth : Int) : Prop :=
  (((connections.selected connectionType nodeName).map
    IConnection.node).filter fun target => target ≠ nodeName).Pairwise fun earlier later =>
        ¬ ReachedOver connections connectionType depth nodeName earlier later

theorem reachedOver_iff {start earlier later : String} (positive : depth ≠ 0) (ne : later ≠ start) :
    ReachedOver connections connectionType depth start earlier later ↔ later = earlier ∨
        later ∈ getConnectedNodesFrom connections connectionType
          connections.size earlier (if depth = -1 then depth else depth - 1)
          ([] ++ [start]) := by
  rw [mem_getConnectedNodesFrom]
  constructor
  · intro reached
    obtain ⟨left, path, avoids, within⟩ := reached
    obtain ⟨simple, isSimple, sublist⟩ := path.exists_simple
    by_cases last : simple = []
    · subst last
      cases isSimple.1
      exact .inl rfl
    · refine .inr ⟨simple, last, isSimple, ?_,
        SimplePath.length_le_size isSimple, (withinDepth_succ positive).mp ?_⟩
      · intro visited mem present
        apply avoids
        rw [← mem_singleton.mp present]
        exact (sublist.append (List.Sublist.refl [later])).subset mem
      · have shorter := sublist.length_le
        unfold WithinDepth at within ⊢
        omega
  · intro reached
    rcases reached with same | found
    · subst same
      refine ⟨[], .nil later, by simpa using Ne.symm ne, ?_⟩
      apply (withinDepth_succ positive).mpr
      unfold WithinDepth
      split <;> simp <;> omega
    · obtain ⟨left, _, ⟨path, _⟩, avoids, _, within⟩ := found
      refine ⟨left, path, fun present => ?_, (withinDepth_succ positive).mpr within⟩
      exact avoids start present (by simp)

theorem nodup_getConnectedNodes {nodeName : String} :
    (getConnectedNodes connections nodeName connectionType depth).Nodup ↔
      TargetsApart connections nodeName connectionType depth := by
  rw [getConnectedNodes, getConnectedNodesFrom_succ, TargetsApart]
  by_cases stopped : depth = 0
  · subst stopped
    simp only [true_or, if_true, nodup_nil, true_iff]
    apply pairwise_of_forall
    intro earlier later reached
    obtain ⟨left, _, _, within⟩ := reached
    simp only [WithinDepth] at within
    omega
  · rw [if_neg (by simp [stopped]), nodup_foldl_visitConnection]
    simp only [nodup_nil, not_mem_nil, not_false_eq_true,
      implies_true, true_and, nil_append, mem_singleton]
    apply List.Pairwise.iff_of_mem
    intro earlier later _ mem
    have ne : later ≠ nodeName := by
      simpa using (mem_filter.mp mem).2
    rw [reachedOver_iff stopped ne, not_or, nil_append]

end Once

section Order

variable {second : String}

theorem idxOf_erase_lt {first removed : String} (firstKept : first ≠ removed)
    (secondKept : second ≠ removed) (names : List String) :
    (names.erase removed).idxOf first < (names.erase removed).idxOf second ↔
      names.idxOf first < names.idxOf second := by
  induction names with
  | nil => simp
  | cons name names ih =>
    by_cases same : name = removed
    · subst same
      rw [erase_cons_head, idxOf_cons_ne _ firstKept.symm, idxOf_cons_ne _ secondKept.symm]
      omega
    · rw [erase_cons_tail (by simpa using same)]
      by_cases atFirst : name = first
      · by_cases atSecond : name = second
        · simp [atFirst, ← atSecond]
        · subst atFirst
          simp [idxOf_cons_ne _ atSecond]
      · by_cases atSecond : name = second
        · simp [atSecond]
        · rw [idxOf_cons_ne _ atFirst, idxOf_cons_ne _ atSecond,
            idxOf_cons_ne _ atFirst, idxOf_cons_ne _ atSecond]
          omega

variable {returnNodes : List String}

/-- The moved nodes come first, in their order, and the others follow in
theirs. -/
theorem idxOf_moveToFront_lt {first : String} {addNodes : List String}
    (before : if first ∈ addNodes then
        second ∈ addNodes → addNodes.idxOf first < addNodes.idxOf second
      else second ∉ addNodes ∧ returnNodes.idxOf first < returnNodes.idxOf second) :
    (moveToFront addNodes returnNodes).idxOf first <
      (moveToFront addNodes returnNodes).idxOf second := by
  induction addNodes with
  | nil => simpa [moveToFront] using before
  | cons name addNodes ih =>
    have unfolded : moveToFront (name :: addNodes) returnNodes =
        name :: (moveToFront addNodes returnNodes).erase name := rfl
    have ne : first ≠ second := by
      intro same
      subst same
      split at before
      · exact absurd (before ‹_›) (lt_irrefl _)
      · exact absurd before.2 (lt_irrefl _)
    rw [unfolded]
    by_cases atFirst : name = first
    · subst atFirst
      rw [idxOf_cons_self, idxOf_cons_ne _ ne]
      exact succ_pos _
    · by_cases atSecond : name = second
      · subst atSecond
        split at before
        · rw [idxOf_cons_ne _ atFirst, idxOf_cons_self] at before
          exact absurd (before mem_cons_self) (not_lt_zero _)
        · exact absurd mem_cons_self before.1
      · rw [idxOf_cons_ne _ atFirst, idxOf_cons_ne _ atSecond]
        apply succ_lt_succ
        rw [idxOf_erase_lt (Ne.symm atFirst) (Ne.symm atSecond)]
        apply ih
        simp only [mem_cons, Ne.symm atFirst, Ne.symm atSecond, false_or, idxOf_cons_ne _ atFirst,
          idxOf_cons_ne _ atSecond, succ_lt_succ_iff] at before
        exact before

def LeadsBefore (step : String → String → Prop) (names : List String) : Prop :=
  ∀ name ∈ names, ∀ later, TransGen step name later →
    later ∈ names ∧ names.idxOf later < names.idxOf name

variable {checkedNodes : List String}

theorem leadsBefore_visitConnection {step : String → String → Prop}
    {connectedNodes : String → List String} {edge : IConnection}
    (found : ∀ name, name ∈ connectedNodes edge.node ↔ TransGen step edge.node name)
    (inner : LeadsBefore step (connectedNodes edge.node))
    (before : LeadsBefore step returnNodes) :
    LeadsBefore step (visitConnection connectedNodes checkedNodes returnNodes edge) := by
  rw [visitConnection]
  by_cases checked : edge.node ∈ checkedNodes
  · rwa [if_pos checked]
  rw [if_neg checked]
  intro name mem later leads
  rw [mem_moveToFront, mem_cons] at mem
  by_cases moved : name ∈ connectedNodes edge.node
  · obtain ⟨laterMoved, order⟩ := inner name moved later leads
    refine ⟨mem_moveToFront.mpr (.inl laterMoved), idxOf_moveToFront_lt ?_⟩
    rw [if_pos laterMoved]
    exact fun _ => order
  by_cases laterMoved : later ∈ connectedNodes edge.node
  · refine ⟨mem_moveToFront.mpr (.inl laterMoved), idxOf_moveToFront_lt ?_⟩
    rw [if_pos laterMoved]
    exact fun present => absurd present moved
  -- The node led to is not below the connection, so neither is the connection.
  have notTarget : name ≠ edge.node := by
    intro same
    subst same
    exact laterMoved ((found later).mpr leads)
  have old := (mem.resolve_left moved).resolve_left notTarget
  obtain ⟨laterOld, order⟩ := before name old later leads
  refine ⟨mem_moveToFront.mpr (.inr (mem_cons_of_mem _ laterOld)), idxOf_moveToFront_lt ?_⟩
  rw [if_neg laterMoved]
  refine ⟨moved, ?_⟩
  rw [idxOf_cons_ne _ (Ne.symm notTarget)]
  by_cases atTarget : edge.node = later
  · rw [atTarget, idxOf_cons_self]
    exact succ_pos _
  · rw [idxOf_cons_ne _ atTarget]
    exact succ_lt_succ order

/-- No node leads back to itself. -/
def IConnections.Acyclic (connections : IConnections)
    (connectionType : ConnectionTypeSelector) : Prop :=
  ∀ name, ¬ TransGen (connections.LinkedOver connectionType) name name

/-- Without cycles the checked nodes are never met again. -/
theorem mem_getConnectedNodesFrom_acyclic {fuel : Nat}
    {nodeName name : String} (unlimited : depth < 0)
    (acyclic : connections.Acyclic connectionType)
    (enough : ∀ left finish, VertexPath (connections.LinkedOver connectionType)
      nodeName left finish → left.length ≤ fuel)
    (apart : ∀ checked ∈ checkedNodes, ¬ ReflTransGen
      (connections.LinkedOver connectionType) nodeName checked) :
    name ∈ getConnectedNodesFrom connections connectionType fuel nodeName depth checkedNodes ↔
      TransGen (connections.LinkedOver connectionType) nodeName
        name := by
  rw [mem_getConnectedNodesFrom]
  constructor
  · intro found
    obtain ⟨left, nonempty, ⟨path, _⟩, _⟩ := found
    exact path.transGen nonempty
  · intro leads
    obtain ⟨left, path, nodup⟩ := SimplePath.exists_of_reachable leads.to_reflTransGen
    refine ⟨left, ?_, ⟨path, nodup⟩, ?_, enough left name path, .inl unlimited⟩
    · intro empty
      subst empty
      cases path
      exact acyclic nodeName leads
    · intro visited mem checked
      exact apart visited checked (path.reachable_of_mem mem)

theorem leadsBefore_getConnectedNodesFrom {fuel : Nat} {nodeName : String}
    (unlimited : depth < 0) (acyclic : connections.Acyclic connectionType)
    (enough : ∀ left finish, VertexPath (connections.LinkedOver connectionType)
      nodeName left finish → left.length ≤ fuel)
    (apart : ∀ checked ∈ checkedNodes, ¬ ReflTransGen
      (connections.LinkedOver connectionType) nodeName checked) :
    LeadsBefore (connections.LinkedOver connectionType)
      (getConnectedNodesFrom connections connectionType fuel nodeName depth checkedNodes) := by
  have empty : LeadsBefore (connections.LinkedOver connectionType) [] := by
    intro name mem
    simp at mem
  induction fuel generalizing nodeName depth checkedNodes with
  | zero => rwa [getConnectedNodesFrom]
  | succ fuel ih =>
    rw [getConnectedNodesFrom_succ]
    by_cases stopped : depth = 0 ∨ nodeName ∈ checkedNodes
    · rwa [if_pos stopped]
    rw [if_neg stopped]
    have stillUnlimited : (if depth = -1 then depth else depth - 1) < 0 := by
      split <;> omega
    have linkedTo : ∀ edge ∈ connections.selected connectionType nodeName,
        connections.LinkedOver connectionType nodeName edge.node :=
      fun edge mem => IConnections.linkedOver_iff_mem.mpr ⟨edge, mem, rfl⟩
    have shorter : ∀ target, connections.LinkedOver connectionType nodeName target →
        ∀ left finish, VertexPath (connections.LinkedOver connectionType)
          target left finish → left.length ≤ fuel := by
      intro target linked left finish path
      have longer := enough _ finish (.cons linked path)
      simpa using longer
    have stillApart : ∀ target, connections.LinkedOver connectionType nodeName target →
        ∀ checked ∈ checkedNodes ++ [nodeName], ¬ ReflTransGen
          (connections.LinkedOver connectionType) target checked := by
      intro target linked checked mem leads
      rcases mem_append.mp mem with old | new
      · exact apart checked old (.head linked leads)
      · rw [mem_singleton.mp new] at leads
        exact acyclic nodeName (.head' linked leads)
    have loop : ∀ (conns : List IConnection) (returnNodes : List String),
        (∀ edge ∈ conns, connections.LinkedOver connectionType nodeName edge.node) →
        LeadsBefore (connections.LinkedOver connectionType) returnNodes →
        LeadsBefore (connections.LinkedOver connectionType)
          (conns.foldl (visitConnection (fun name =>
            getConnectedNodesFrom connections connectionType fuel name
              (if depth = -1 then depth else depth - 1)
              (checkedNodes ++ [nodeName])) (checkedNodes ++ [nodeName]))
            returnNodes) := by
      intro conns
      induction conns with
      | nil => exact fun _ _ before => before
      | cons edge conns rest =>
        intro returnNodes linked before
        rw [forall_mem_cons] at linked
        apply rest _ linked.2
        apply leadsBefore_visitConnection _ _ before
        · intro name
          exact mem_getConnectedNodesFrom_acyclic stillUnlimited acyclic
            (shorter _ linked.1) (stillApart _ linked.1)
        · exact ih stillUnlimited (shorter _ linked.1) (stillApart _ linked.1)
    exact loop _ _ linkedTo empty

theorem leadsBefore_getConnectedNodes {nodeName : String}
    (unlimited : depth < 0) (acyclic : connections.Acyclic connectionType) :
    LeadsBefore (connections.LinkedOver connectionType)
      (getConnectedNodes connections nodeName connectionType depth) := by
  apply leadsBefore_getConnectedNodesFrom unlimited acyclic
  · intro left finish path
    -- Without cycles every path is simple.
    have simple : SimplePath (connections.LinkedOver connectionType) nodeName left finish := by
      refine ⟨path, ?_⟩
      clear unlimited
      induction path with
      | nil finish => simp
      | @cons start next finish left first path ih =>
        rw [cons_append, nodup_cons]
        refine ⟨fun mem => ?_, ih⟩
        exact acyclic start (.head' first (path.reachable_of_mem mem))
    exact le_succ_of_le (SimplePath.length_le_size simple)
  · simp

end Order

/-- The nodes a search should return, each once, and in an order which puts a
node before those that lead to it. -/
structure GetConnectedNodesExact (connections : IConnections)
    (nodeName : String) (connectionType : ConnectionTypeSelector)
    (depth : Int) : Prop where
  exactly : ∀ name, name ∈ getConnectedNodes connections nodeName connectionType depth ↔
      name ≠ nodeName ∧ ∃ left,
        VertexPath (connections.LinkedOver connectionType) nodeName left name ∧
          WithinDepth depth left.length
  once : (getConnectedNodes connections nodeName connectionType depth).Nodup
  ordered : depth < 0 → connections.Acyclic connectionType →
    ∀ name ∈ getConnectedNodes connections nodeName connectionType depth,
      ∀ later ∈ getConnectedNodes connections nodeName connectionType depth,
        TransGen (connections.LinkedOver connectionType) name later →
          (getConnectedNodes connections nodeName connectionType depth).idxOf later <
            (getConnectedNodes connections nodeName connectionType depth).idxOf name

/-- The search is exact if and only if no target of the start is listed again
or reached over an earlier one. -/
theorem getConnectedNodes_exact_iff (connections : IConnections)
    (nodeName : String) (connectionType : ConnectionTypeSelector) (depth : Int) :
    GetConnectedNodesExact connections nodeName connectionType depth ↔
      TargetsApart connections nodeName connectionType depth := by
  constructor
  · intro isExact
    exact nodup_getConnectedNodes.mp isExact.once
  · intro apart
    refine ⟨fun name => mem_getConnectedNodes_iff, nodup_getConnectedNodes.mpr apart, ?_⟩
    intro unlimited acyclic name mem later _ leads
    exact (leadsBefore_getConnectedNodes unlimited acyclic name mem later leads).2

namespace ConnectedNodesExample

/-- Both outputs of the node lead to the same one. -/
def bothOutputs : IConnections :=
  OrderedMap.empty.set "Check" (OrderedMap.empty.set .main
    [some [⟨"Send", .main, 0⟩], some [⟨"Send", .main, 0⟩]])

theorem not_getConnectedNodesExact_bothOutputs :
    getConnectedNodes bothOutputs "Check" (.only .main) (-1) = ["Send", "Send"] ∧
      ¬ ∀ connections nodeName connectionType depth,
        GetConnectedNodesExact connections nodeName connectionType depth := by
  have twice : getConnectedNodes bothOutputs "Check" (.only .main) (-1) =
      ["Send", "Send"] := by decide +kernel
  refine ⟨twice, ?_⟩
  intro always
  have once := (always bothOutputs "Check" (.only .main) (-1)).once
  rw [twice] at once
  simp at once

end ConnectedNodesExample

end N8n
