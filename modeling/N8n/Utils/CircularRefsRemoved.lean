import N8n.Utils.CompletedTraversal

/-!
# Removed circular references

The traversal ends for every graph.  Its result is free of cycles, and changed
on back edges only, for graphs without sharing whose cycles all have a back
edge.
-/

namespace N8n

open ObjectGraph

namespace ObjectGraph

variable {graph : ObjectGraph}

theorem removeCircularRefs_ends (graph : ObjectGraph) :
    ∃ fuel state, graph.removeCircularRefs fuel = .ok state ∧ graph.start ∈ state.seen ∧
      ∃ trail, state.Sound graph (fun _ => False) trail := by
  have inside : graph.start < graph.cells.size := by
    have rooted := graph.rooted
    rw [graph.root_eq] at rooted
    exact rooted
  have standing : Standing graph _ _ ⟨fun _ => False, fun _ _ => False⟩
      { cells := graph.cells, seen := OrderedSet.add [] graph.start }
      [] graph.start :=
    { sound := graph.sound_start
      within := Finset.Subset.refl _
      simple := .root
      passedSeen := fun _ isPassed => isPassed }
  obtain ⟨fields, isObject⟩ : ∃ fields, graph.cells.read graph.start = .object fields := by
    have notArray := graph.isObject
    cases isCell : graph.cells.read graph.start with
    | object fields => exact ⟨fields, rfl⟩
    | array items =>
      rw [isCell] at notArray
      cases notArray
  obtain ⟨fuel, state, run, trail, handled⟩ := @call_handled graph _ _
    ⟨graph.cells, []⟩ _ _ (callsEnd graph _) _ standing inside _ isObject
    False.elim
  exact ⟨fuel, state, run, handled.seen List.mem_cons_self, trail, handled.sound.close handled.made⟩

section Final

variable {trail : Trail} {state : RemovalState}

theorem seen_of_simpleWay (sound : state.Sound graph (fun _ => False) trail)
    (start : graph.start ∈ state.seen) {way : List Visit} {object : Nat}
    (simple : graph.SimpleWay way object) : object ∈ state.seen := by
  induction simple with
  | root => exact start
  | visit _ meets _ ih => exact (sound.met (sound.complete ih id meets) meets).1

theorem simpleWay_of_seen (sound : state.Sound graph (fun _ => False) trail)
    {object : Nat} (seen : object ∈ state.seen)
    (inside : object < graph.cells.size) :
    ∃ way, graph.SimpleWay way object := by
  rcases sound.seen seen inside with rfl | ⟨visit, found⟩
  · exact ⟨[], .root⟩
  · obtain ⟨_, way, slot, meets, forward⟩ := sound.found found
    exact ⟨visit :: way, .visit meets.1 meets.2 forward⟩

theorem traversed_of_sound (sound : state.Sound graph (fun _ => False) trail)
    (start : graph.start ∈ state.seen) : graph.Traversed state := by
  have found : ∀ {way visit slot target}, graph.MeetsOn way visit slot target →
      state.cells.content slot = some (.ref target) →
      trail.found target visit := by
    intro way visit slot target meets still
    have ownerSeen := seen_of_simpleWay sound start meets.1
    exact (sound.met (sound.complete ownerSeen id meets.2) meets.2).2 still
  exact
    { once := fun meets meets' still still' =>
        sound.once (found meets still) (found meets' still')
      start := by
        intro way visit slot meets still
        obtain ⟨_, way', _, meets', forward⟩ := sound.found (found meets still)
        exact forward (start_mem_passed meets'.1)
      changed := by
        intro slot inside isChanged
        rcases sound.contents inside with same | ⟨visit, target, mark, replaced⟩
        · exact absurd same isChanged
        · obtain ⟨_, ownerHolds⟩ := replaced.meets.owner_holds
          obtain ⟨way, simple⟩ := simpleWay_of_seen sound (sound.owner replaced.visited)
            (GraphCells.inside_of_content ownerHolds)
          refine ⟨⟨mark, replaced.outside, replaced.holds⟩, way, visit, target,
            ⟨simple, replaced.meets⟩, ?_⟩
          have targetSeen := (sound.met replaced.visited replaced.meets).1
          rcases sound.seen targetSeen
            (graph.below_of_content replaced.meets.held) with isStart | ⟨other, isFound⟩
          · exact .inl isStart
          · obtain ⟨_, otherWay, otherSlot, meets, forward⟩ := sound.found isFound
            refine .inr ⟨otherWay, other, otherSlot, ?_, meets, forward⟩
            intro same
            exact replaced.notFound (same ▸ isFound)
      marks := by
        intro address outside child mem
        by_cases inside : address < state.cells.size
        · rw [sound.marks outside inside] at mem
          exact ⟨_, List.mem_singleton.mp mem⟩
        · rw [ObjectStore.read_of_size_le (Nat.le_of_not_lt inside)] at mem
          cases mem }

end Final

end ObjectGraph

/-- The traversal always ends.  It leaves no cycle and changes nothing but back
edges exactly when what it meets is in one place and every cycle has a back
edge. -/
theorem removesCircularRefs_iff (graph : ObjectGraph) :
    graph.RemovesCircularRefs ↔ graph.OnePlace ∧ graph.CyclesComeBack := by
  obtain ⟨fuel, state, run, start, trail, sound⟩ := graph.removeCircularRefs_ends
  have traversed := traversed_of_sound sound start
  constructor
  · intro ⟨otherFuel, other, otherRun, acyclic, only⟩
    have same : other = state := by
      have first := removeCircularRefsFrom_mono (Nat.le_max_left fuel otherFuel) run
      have second := removeCircularRefsFrom_mono (Nat.le_max_right fuel otherFuel) otherRun
      exact Except.ok.inj (second.symm.trans first)
    subst same
    have onePlace : graph.OnePlace := onePlace_of_onlyBackEdges traversed only
    exact ⟨onePlace, (acyclic_iff traversed onePlace).mp acyclic⟩
  · intro ⟨onePlace, comeBack⟩
    exact ⟨fuel, state, run, (acyclic_iff traversed onePlace).mpr comeBack,
      onlyBackEdges_of_onePlace traversed onePlace⟩

namespace CircularRefsExample

/-- `const object = {}; object.list = [[object]]`. -/
def nested : ObjectGraph :=
  { cells := ⟨[.object (OrderedMap.empty.set "list" (.ref 1)), .array [.ref 2], .array [.ref 0]]⟩
    root := .ref 0
    closed := by decide
    rooted := by decide
    start := 0
    root_eq := rfl
    isObject := rfl }

theorem removeCircularRefs_nested (fuel : Nat) :
    nested.removeCircularRefs (fuel + 1) = .ok ⟨nested.cells, [0]⟩ := by
  rfl

theorem not_removesCircularRefs_nested : ¬ ∀ graph : ObjectGraph, graph.RemovesCircularRefs := by
  intro all
  obtain ⟨fuel, state, run, acyclic, _⟩ := all nested
  cases fuel with
  | zero => cases run
  | succ fuel =>
    obtain rfl := Except.ok.inj ((removeCircularRefs_nested fuel).symm.trans run)
    have inObject : nested.cells.Leads (.ref 0) (.ref 1) := ⟨0, rfl, by decide⟩
    have inList : nested.cells.Leads (.ref 1) (.ref 2) := ⟨1, rfl, by decide⟩
    have inNested : nested.cells.Leads (.ref 2) (.ref 0) := ⟨2, rfl, by decide⟩
    exact acyclic (.ref 0) .refl (.tail (.tail (.single inObject) inList) inNested)

end CircularRefsExample

end N8n
