import N8n.Utils.RemoveCircularRefs

/-!
# Back edges

What the end of a traversal tells about the slots, and when this amounts to a
value without cycles that differs on back edges only.
-/

namespace N8n

open GraphCells Option Relation

variable {cells : GraphCells} {slot : CellSlot}

theorem GraphCells.inside_of_content {value : GraphValue} (held : cells.content slot = some value) :
    slot.1 < cells.size := by
  by_contra outside
  rw [content, ObjectStore.read_of_size_le (Nat.le_of_not_lt outside)] at held
  cases part : slot.2 with
  | field key | item index =>
    rw [part] at held
    cases held

theorem ObjectGraph.below_of_content (graph : ObjectGraph)
    {address : Nat} (held : graph.cells.content slot = some (.ref address)) :
    address < graph.cells.size :=
  graph.closed_read slot.1 _ (GraphCell.mem_children.mpr ⟨slot.2, held⟩)

variable {visit : Visit}

theorem GraphCells.Meets.target_eq {slot other : CellSlot}
    {target another : Nat} (meets : cells.Meets visit slot target)
    (also : cells.Meets visit other another) :
    other = slot ∧ another = target := by
  obtain rfl := some.inj (meets.isSlot.symm.trans also.isSlot)
  have same := some.inj (meets.held.symm.trans also.held)
  exact ⟨rfl, (GraphValue.ref.inj same).symm⟩

theorem GraphCells.Meets.owner_holds {target : Nat} (meets : cells.Meets visit slot target) :
    ∃ value, cells.content (visit.owner, .field visit.key) = some value := by
  have isSlot := meets.isSlot
  unfold GraphCells.slot at isSlot
  split at isSlot
  · cases isSlot
    exact ⟨_, meets.held⟩
  · split at isSlot
    case h_1 array holds => exact ⟨_, holds⟩
    case h_2 => cases isSlot

theorem GraphCells.Meets.cases_held
    {target : Nat} (meets : cells.Meets visit slot target) {value : GraphValue}
    (held : cells.content (visit.owner, .field visit.key) = some value) :
    (visit.index = none ∧ value = .ref target) ∨
      ∃ index array, visit.index = some index ∧ value = .ref array ∧
        cells.content (array, .item index) = some (.ref target) := by
  have isSlot := meets.isSlot
  unfold GraphCells.slot at isSlot
  split at isSlot
  case h_1 isField =>
    cases isSlot
    have same := some.inj (held.symm.trans meets.held)
    exact .inl ⟨isField, same⟩
  case h_2 index isItem =>
    split at isSlot
    case h_1 array holds =>
      cases isSlot
      have same := some.inj (held.symm.trans holds)
      exact .inr ⟨index, array, isItem, same, meets.held⟩
    case h_2 => cases isSlot

namespace ObjectGraph

variable {graph : ObjectGraph} {way : List Visit}

theorem start_mem_passed {object : Nat} (simple : graph.SimpleWay way object) :
    graph.start ∈ passed way object := by
  induction simple with
  | root => exact List.mem_cons_self
  | visit _ _ _ ih => exact List.mem_cons_of_mem _ ih

theorem exists_meetsOn_of_passed {object target : Nat} (simple : graph.SimpleWay way object)
    (isPassed : target ∈ passed way object) (notStart : target ≠ graph.start) :
    ∃ way' visit slot, graph.MeetsOn way' visit slot target ∧ target ∉ passed way' visit.owner := by
  induction simple with
  | root => exact absurd (List.mem_singleton.mp isPassed) notStart
  | @visit way visit slot last before meets absent ih =>
    rcases List.mem_cons.mp isPassed with isLast | earlier
    · subst isLast
      exact ⟨way, visit, slot, ⟨before, meets⟩, absent⟩
    · exact ih earlier

/-- The state when the traversal has made its visits.  Of several visits which
meet the same object at most one still finds it in its slot, and what is
missing from a slot was met before in another one. -/
structure Traversed (graph : ObjectGraph) (state : RemovalState) : Prop where
  once : ∀ {way visit slot way' visit' slot' target}, graph.MeetsOn way visit slot target →
    graph.MeetsOn way' visit' slot' target →
    state.cells.content slot = some (.ref target) →
    state.cells.content slot' = some (.ref target) → visit' = visit
  start : ∀ {way visit slot}, graph.MeetsOn way visit slot graph.start →
    state.cells.content slot ≠ some (.ref graph.start)
  changed : ∀ {slot : CellSlot}, slot.1 < graph.cells.size →
    state.cells.content slot ≠ graph.cells.content slot →
    (∃ mark, graph.cells.size ≤ mark ∧ state.cells.content slot = some (.ref mark)) ∧
    ∃ way visit target, graph.MeetsOn way visit slot target ∧
      (target = graph.start ∨ ∃ way' visit' slot', visit' ≠ visit ∧
        graph.MeetsOn way' visit' slot' target ∧
        target ∉ passed way' visit'.owner)
  marks : ∀ {address}, graph.cells.size ≤ address →
    ∀ child ∈ (state.cells.read address).children, ∃ value, child = .primitive value

section Traversed

variable {state : RemovalState} {way : List Visit} {slot : CellSlot}

theorem unchanged_of_meetsOn (only : graph.OnlyBackEdges state) {visit : Visit} {target : Nat}
    (meets : graph.MeetsOn way visit slot target)
    (forward : target ∉ passed way visit.owner) :
    state.cells.content slot = some (.ref target) := by
  have notBack : ¬ graph.OnBackEdge slot := fun back =>
    forward (back.2 way visit target meets)
  rw [only slot (inside_of_content meets.2.held) notBack]
  exact meets.2.held

theorem simpleWay_unique (traversed : graph.Traversed state)
    (only : graph.OnlyBackEdges state) {way' : List Visit} {object : Nat}
    (simple : graph.SimpleWay way object)
    (simple' : graph.SimpleWay way' object) : way' = way := by
  induction simple generalizing way' with
  | root =>
    cases simple' with
    | root => rfl
    | visit before meets absent => exact absurd (start_mem_passed before) absent
  | @visit way visit slot target before meets absent ih =>
    cases simple' with
    | root => exact absurd (start_mem_passed before) absent
    | @visit way' visit' slot' _ before' meets' absent' =>
      have held := unchanged_of_meetsOn only ⟨before, meets⟩ absent
      have held' := unchanged_of_meetsOn only ⟨before', meets'⟩ absent'
      obtain rfl := traversed.once ⟨before, meets⟩ ⟨before', meets'⟩ held held'
      rw [ih before']

theorem onePlace_of_onlyBackEdges (traversed : graph.Traversed state)
    (only : graph.OnlyBackEdges state) : graph.OnePlace := by
  intro way visit slot target way' visit' slot' meets forward meets'
  have held := unchanged_of_meetsOn only meets forward
  by_cases isPassed : target ∈ passed way' visit'.owner
  · by_cases sameSlot : slot' = slot
    · subst sameSlot
      obtain rfl := traversed.once meets meets' held held
      obtain rfl := simpleWay_unique traversed only meets.1 meets'.1
      exact absurd isPassed forward
    · exact .inr ⟨isPassed, sameSlot⟩
  · have held' := unchanged_of_meetsOn only meets' isPassed
    obtain rfl := traversed.once meets meets' held held'
    exact .inl ⟨rfl, simpleWay_unique traversed only meets.1 meets'.1⟩

theorem onBackEdge_of_passed (onePlace : graph.OnePlace) {visit : Visit} {target : Nat} (meets : graph.MeetsOn way visit slot target)
    (isPassed : target ∈ passed way visit.owner) : graph.OnBackEdge slot := by
  refine ⟨⟨way, visit, target, meets⟩, ?_⟩
  intro way' visit' target' meets'
  obtain rfl : target' = target := by
    have same := meets.2.held.symm.trans meets'.2.held
    exact (GraphValue.ref.inj (some.inj same)).symm
  by_contra forward
  rcases onePlace meets' forward meets with ⟨rfl, rfl⟩ | ⟨_, ne⟩
  · exact forward isPassed
  · exact ne rfl

theorem onlyBackEdges_of_onePlace (traversed : graph.Traversed state)
    (onePlace : graph.OnePlace) : graph.OnlyBackEdges state := by
  intro slot inside notBack
  by_contra isChanged
  obtain ⟨_, way, visit, target, meets, reason⟩ := traversed.changed inside isChanged
  have forward : target ∉ passed way visit.owner := fun isPassed =>
    notBack (onBackEdge_of_passed onePlace meets isPassed)
  rcases reason with isStart | ⟨way', visit', slot', ne, meets', first⟩
  · rw [isStart] at forward
    exact forward (start_mem_passed meets.1)
  · rcases onePlace meets forward meets' with ⟨same, _⟩ | ⟨isPassed, _⟩
    · exact ne same
    · exact first isPassed

theorem mark_of_onBackEdge (traversed : graph.Traversed state)
    (onePlace : graph.OnePlace) (back : graph.OnBackEdge slot) :
    ∃ mark, graph.cells.size ≤ mark ∧ state.cells.content slot = some (.ref mark) := by
  obtain ⟨⟨way, visit, target, meets⟩, all⟩ := back
  have isPassed := all way visit target meets
  suffices isChanged : state.cells.content slot ≠ some (.ref target) by
    rw [← meets.2.held] at isChanged
    exact (traversed.changed (inside_of_content meets.2.held) isChanged).1
  by_cases isStart : target = graph.start
  · subst isStart
    exact traversed.start meets
  · obtain ⟨way', visit', slot', meets', forward⟩ :=
      exists_meetsOn_of_passed meets.1 isPassed isStart
    intro held
    have held' := unchanged_of_meetsOn (onlyBackEdges_of_onePlace traversed onePlace) meets' forward
    have same := traversed.once meets meets' held held'
    rcases onePlace meets' forward meets with ⟨_, sameWay⟩ | ⟨_, ne⟩
    · subst same sameWay
      exact forward isPassed
    · subst same
      exact ne (meets'.2.target_eq meets.2).1

variable {value child : GraphValue}

theorem leads_of_leadsForward (only : graph.OnlyBackEdges state) (step : graph.LeadsForward value child) :
    state.cells.Leads value child := by
  obtain ⟨address, part, rfl, held, notBack⟩ := step
  have inside : address < graph.cells.size := inside_of_content held
  refine ⟨address, rfl, GraphCell.mem_children.mpr ⟨part, ?_⟩⟩
  exact (only (address, part) inside notBack).trans held

/-- A primitive, or a mark that the traversal made. -/
def Ends (graph : ObjectGraph) : GraphValue → Prop
  | .primitive _ => True
  | .ref address => graph.cells.size ≤ address

theorem primitive_of_leads (traversed : graph.Traversed state) (ends : graph.Ends value)
    (step : state.cells.Leads value child) :
    ∃ primitive, child = .primitive primitive := by
  obtain ⟨address, rfl, mem⟩ := step
  exact traversed.marks ends child mem

theorem not_transGen_of_ends (traversed : graph.Traversed state)
    {value : GraphValue} (ends : graph.Ends value) :
    ¬ TransGen state.cells.Leads value value := by
  intro cycle
  obtain ⟨child, step, rest⟩ := TransGen.head'_iff.mp cycle
  obtain ⟨primitive, rfl⟩ := primitive_of_leads traversed ends step
  rcases ReflTransGen.cases_head rest with same | ⟨next, onward, _⟩
  · obtain ⟨address, isRef, _⟩ := step
    rw [← same] at isRef
    cases isRef
  · obtain ⟨address, isRef, _⟩ := onward
    cases isRef

theorem leadsForward_of_leads (traversed : graph.Traversed state) (onePlace : graph.OnePlace)
    (notEnd : ¬ graph.Ends child) (step : state.cells.Leads value child) :
    ¬ graph.Ends value ∧ graph.LeadsForward value child := by
  have live : ¬ graph.Ends value := by
    intro ends
    obtain ⟨primitive, rfl⟩ := primitive_of_leads traversed ends step
    exact notEnd trivial
  refine ⟨live, ?_⟩
  obtain ⟨address, rfl, mem⟩ := step
  obtain ⟨part, held⟩ := GraphCell.mem_children.mp mem
  have notBack : ¬ graph.OnBackEdge (address, part) := by
    intro back
    obtain ⟨mark, outside, isMark⟩ := mark_of_onBackEdge traversed onePlace back
    obtain rfl := some.inj (isMark.symm.trans held)
    exact notEnd outside
  have same := onlyBackEdges_of_onePlace traversed onePlace (address, part)
    (Nat.lt_of_not_le live) notBack
  exact ⟨address, part, rfl, same.symm.trans held, notBack⟩

theorem transGen_leadsForward (traversed : graph.Traversed state)
    (onePlace : graph.OnePlace) {value other : GraphValue}
    (way : TransGen state.cells.Leads value other)
    (notEnd : ¬ graph.Ends other) :
    TransGen graph.LeadsForward value other := by
  induction way with
  | single step => exact .single (leadsForward_of_leads traversed onePlace notEnd step).2
  | tail _ step ih =>
    obtain ⟨live, forward⟩ := leadsForward_of_leads traversed onePlace notEnd step
    exact (ih live).tail forward

theorem acyclic_iff (traversed : graph.Traversed state) (onePlace : graph.OnePlace) :
    (∀ value, state.cells.Reaches graph.root value → ¬ TransGen state.cells.Leads value value) ↔
      graph.CyclesComeBack := by
  have only := onlyBackEdges_of_onePlace traversed onePlace
  constructor
  · intro acyclic value reaches cycle
    apply acyclic value
    · exact ReflTransGen.mono (fun _ _ => leads_of_leadsForward only) _ _ reaches
    · exact TransGen.mono (fun _ _ => leads_of_leadsForward only) _ _ cycle
  · intro comeBack value reaches cycle
    have notEnd : ¬ graph.Ends value := fun ends =>
      not_transGen_of_ends traversed ends cycle
    apply comeBack value
    · rcases reflTransGen_iff_eq_or_transGen.mp reaches with
        same | way
      · rw [same]
      · exact (transGen_leadsForward traversed onePlace way notEnd).to_reflTransGen
    · exact transGen_leadsForward traversed onePlace cycle notEnd

end Traversed

end ObjectGraph

end N8n
