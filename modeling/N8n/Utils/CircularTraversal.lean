import Mathlib.Data.Finset.Card
import N8n.Utils.BackEdges

/-!
# The traversal for circular references

The invariant keeps a trail: which visits were made, and which of them found an
object that was new.  A slot that has changed holds a mark, and one of its
visits found nothing new.
-/

namespace N8n

open GraphCells ObjectStore OrderedSet RemovalState GraphCell Nat

variable {cells : GraphCells} {address : Nat}

theorem isTraversableObject_iff : isTraversableObject cells (.ref address) = true ↔
      ∃ key value, cells.content (address, .field key) = some value := by
  simp only [isTraversableObject, content]
  cases cells.read address with
  | object fields =>
    simp only [GraphCell.get, OrderedMap.size, bne_iff_ne, ne_eq, List.length_eq_zero_iff]
    constructor
    · intro notEmpty
      obtain ⟨entry, mem⟩ := List.exists_mem_of_ne_nil _ notEmpty
      exact ⟨entry.1, entry.2, OrderedMap.get?_eq_some_iff.mpr mem⟩
    · rintro ⟨key, value, held⟩ isEmpty
      have mem := OrderedMap.get?_eq_some_iff.mp held
      rw [isEmpty] at mem
      cases mem
  | array items => simp [GraphCell.get]

theorem GraphCells.content_item_of_field {key : String} {value : GraphValue}
    (holds : cells.content (address, .field key) = some value) (index : Nat)
    (other : GraphValue) :
    cells.content (address, .item index) ≠ some other := by
  simp only [content] at holds ⊢
  cases isCell : cells.read address with
  | object fields => simp [GraphCell.get]
  | array items =>
    rw [isCell] at holds
    cases holds

namespace RemovalState

variable {state : RemovalState} {slot other : CellSlot}

@[simp] theorem size_replace (state : RemovalState) (address : Nat) (part : Part) :
    (state.replace address part).cells.size = state.cells.size + 1 := by
  simp [replace]

variable {address : Nat}

theorem read_replace_ne {other : Nat} (ne : other ≠ address)
    (inside : other < state.cells.size) (part : Part) :
    (state.replace address part).cells.read other = state.cells.read other := by
  rw [replace, read_write_ne ne, read_allocate_of_lt inside]

theorem read_replace_mark (inside : address < state.cells.size) (part : Part) :
    (state.replace address part).cells.read state.cells.size =
      circularReference := by
  rw [replace, read_write_ne (Nat.ne_of_gt inside), read_allocate_self]

theorem content_replace_self {value : GraphValue} (held : state.cells.content slot = some value) :
    (state.replace slot.1 slot.2).cells.content slot = some (.ref state.cells.size) := by
  have inside := inside_of_content held
  have more : slot.1 < (state.cells.allocate circularReference).1.size := by
    rw [size_allocate]
    exact lt_succ_of_lt inside
  rw [replace, content, read_write_self more, read_allocate_of_lt inside]
  exact get_put_self held _

theorem content_replace_ne (inside : slot.1 < state.cells.size)
    (ne : other ≠ slot) (otherInside : other.1 < state.cells.size) :
    (state.replace slot.1 slot.2).cells.content other = state.cells.content other := by
  by_cases same : other.1 = slot.1
  · have otherPart : other.2 ≠ slot.2 := fun samePart =>
      ne (Prod.ext same samePart)
    have more : slot.1 < (state.cells.allocate circularReference).1.size := by
      rw [size_allocate]
      exact lt_succ_of_lt inside
    rw [replace, content, content, same, read_write_self more, read_allocate_of_lt inside]
    exact get_put_ne _ otherPart _
  · rw [content, read_replace_ne same otherInside]
    rfl

end RemovalState

/-- The visits made so far, and those that found a new object. -/
structure Trail where
  visited : Visit → Prop
  found : Nat → Visit → Prop

namespace Trail

def visit (trail : Trail) (visit : Visit) : Trail :=
  { trail with visited := fun other => trail.visited other ∨ other = visit }

def find (trail : Trail) (target : Nat) (visit : Visit) : Trail :=
  { visited := fun other => trail.visited other ∨ other = visit
    found := fun object other =>
      trail.found object other ∨ (object = target ∧ other = visit) }

end Trail

/-- The slot has changed since one of its visits found nothing new. -/
structure Replaced (graph : ObjectGraph) (trail : Trail) (state : RemovalState)
    (slot : CellSlot) (visit : Visit) (target mark : Nat) : Prop where
  outside : graph.cells.size ≤ mark
  inside : mark < state.cells.size
  holds : state.cells.content slot = some (.ref mark)
  visited : trail.visited visit
  meets : graph.cells.Meets visit slot target
  notFound : ¬ trail.found target visit

structure RemovalState.Sound (graph : ObjectGraph) (isOpen : Nat → Prop)
    (trail : Trail) (state : RemovalState) : Prop where
  size : graph.cells.size ≤ state.cells.size
  marks : ∀ {address}, graph.cells.size ≤ address →
    address < state.cells.size → state.cells.read address = circularReference
  contents : ∀ {slot : CellSlot}, slot.1 < graph.cells.size →
    state.cells.content slot = graph.cells.content slot ∨
      ∃ visit target mark, Replaced graph trail state slot visit target mark
  owner : ∀ {visit}, trail.visited visit → visit.owner ∈ state.seen
  found : ∀ {target visit}, trail.found target visit →
    trail.visited visit ∧ ∃ way slot, graph.MeetsOn way visit slot target ∧
      target ∉ passed way visit.owner
  once : ∀ {target visit other}, trail.found target visit → trail.found target other → other = visit
  met : ∀ {visit slot target}, trail.visited visit → graph.cells.Meets visit slot target →
    target ∈ state.seen ∧ (state.cells.content slot = some (.ref target) → trail.found target visit)
  seen : ∀ {target}, target ∈ state.seen → target < graph.cells.size →
    target = graph.start ∨ ∃ visit, trail.found target visit
  complete : ∀ {visit slot target}, visit.owner ∈ state.seen →
    ¬ isOpen visit.owner → graph.cells.Meets visit slot target →
    trail.visited visit

namespace RemovalState.Sound

variable {graph : ObjectGraph} {isOpen : Nat → Prop} {trail : Trail}
  {state : RemovalState} {visit : Visit} {slot : CellSlot} {target : Nat}

theorem holds_of_holds (sound : state.Sound graph isOpen trail)
    {value : GraphValue} (held : graph.cells.content slot = some value) :
    ∃ value, state.cells.content slot = some value := by
  rcases sound.contents (inside_of_content held) with
    same | ⟨_, _, mark, replaced⟩
  · exact ⟨value, same.trans held⟩
  · exact ⟨.ref mark, replaced.holds⟩

theorem held_of_holds (sound : state.Sound graph isOpen trail)
    (inside : slot.1 < graph.cells.size) {value : GraphValue}
    (held : state.cells.content slot = some value) :
    ∃ value, graph.cells.content slot = some value := by
  rcases sound.contents inside with same | ⟨_, target, _, replaced⟩
  · exact ⟨value, same.symm.trans held⟩
  · exact ⟨.ref target, replaced.meets.held⟩

theorem isTraversableObject_eq (sound : state.Sound graph isOpen trail)
    {address : Nat} (inside : address < graph.cells.size) :
    isTraversableObject state.cells (.ref address) =
      isTraversableObject graph.cells (.ref address) := by
  rw [Bool.eq_iff_iff, isTraversableObject_iff, isTraversableObject_iff]
  constructor
  · intro ⟨key, value, held⟩
    exact ⟨key, sound.held_of_holds inside held⟩
  · intro ⟨key, value, held⟩
    exact ⟨key, sound.holds_of_holds held⟩

theorem replace (sound : state.Sound graph isOpen trail)
    (meets : graph.cells.Meets visit slot target)
    (ownerSeen : visit.owner ∈ state.seen) (isNew : ¬ trail.visited visit)
    (targetSeen : target ∈ state.seen) :
    (state.replace slot.1 slot.2).Sound graph isOpen (trail.visit visit) := by
  have inside := inside_of_content meets.held
  have within : slot.1 < state.cells.size := Nat.lt_of_lt_of_le inside sound.size
  obtain ⟨old, held⟩ := sound.holds_of_holds meets.held
  have isMark := content_replace_self held
  have notFound : ¬ trail.found target visit := fun found =>
    isNew (sound.found found).1
  have keeps : ∀ {other : CellSlot}, other ≠ slot → other.1 < state.cells.size →
      (state.replace slot.1 slot.2).cells.content other = state.cells.content other := fun ne =>
    content_replace_ne within ne
  exact
    { size := by
        rw [size_replace]
        exact le_succ_of_le sound.size
      marks := by
        intro address outside more
        rw [size_replace] at more
        rcases Nat.lt_succ_iff_lt_or_eq.mp more with before | same
        · have ne : address ≠ slot.1 := Nat.ne_of_gt (Nat.lt_of_lt_of_le inside outside)
          rw [read_replace_ne ne before]
          exact sound.marks outside before
        · rw [same]
          exact read_replace_mark within _
      contents := by
        intro other otherInside
        by_cases same : other = slot
        · subst same
          exact .inr ⟨visit, target, state.cells.size,
            { outside := sound.size
              inside := by simp
              holds := isMark
              visited := .inr rfl
              meets := meets
              notFound := notFound }⟩
        · rw [keeps same (Nat.lt_of_lt_of_le otherInside sound.size)]
          rcases sound.contents otherInside with 
            unchanged | ⟨visit, target, mark, old⟩
          · exact .inl unchanged
          · refine .inr ⟨visit, target, mark, { old with
                inside := ?_
                holds := ?_
                visited := .inl old.visited }⟩
            · rw [size_replace]
              exact lt_succ_of_lt old.inside
            · rw [keeps same (Nat.lt_of_lt_of_le otherInside sound.size)]
              exact old.holds
      owner := by
        intro other visited
        rcases visited with visited | same
        · exact sound.owner visited
        · exact same ▸ ownerSeen
      found := by
        intro object other found
        obtain ⟨visited, rest⟩ := sound.found found
        exact ⟨.inl visited, rest⟩
      once := sound.once
      met := by
        intro other otherSlot object visited otherMeets
        have otherInside := inside_of_content otherMeets.held
        have objectInside : object < graph.cells.size := graph.below_of_content otherMeets.held
        constructor
        · rcases visited with visited | same
          · exact (sound.met visited otherMeets).1
          · subst same
            exact (meets.target_eq otherMeets).2 ▸ targetSeen
        · intro still
          have ne : otherSlot ≠ slot := by
            intro same
            rw [same, isMark] at still
            obtain rfl := GraphValue.ref.inj (Option.some.inj still)
            exact absurd sound.size (Nat.not_le_of_lt objectInside)
          rcases visited with visited | same
          · rw [keeps ne (Nat.lt_of_lt_of_le otherInside sound.size)] at still
            exact (sound.met visited otherMeets).2 still
          · subst same
            exact absurd (meets.target_eq otherMeets).1 ne
      seen := sound.seen
      complete := by
        intro other otherSlot object otherSeen closed otherMeets
        exact .inl (sound.complete otherSeen closed otherMeets) }

theorem seen_of_changed (sound : state.Sound graph isOpen trail)
    (meets : graph.cells.Meets visit slot target)
    (isChanged : state.cells.content slot ≠ some (.ref target)) :
    target ∈ state.seen := by
  rcases sound.contents (inside_of_content meets.held) with
    same | ⟨other, object, _, replaced⟩
  · exact absurd (same.trans meets.held) isChanged
  · have sameRef := replaced.meets.held.symm.trans meets.held
    obtain rfl := GraphValue.ref.inj (Option.some.inj sameRef)
    exact (sound.met replaced.visited replaced.meets).1

theorem note (sound : state.Sound graph isOpen trail) (meets : graph.cells.Meets visit slot target)
    (ownerSeen : visit.owner ∈ state.seen)
    (isChanged : state.cells.content slot ≠ some (.ref target)) {mark : Nat}
    (outside : graph.cells.size ≤ mark) :
    RemovalState.Sound graph isOpen (trail.visit visit)
      { state with seen := add state.seen mark } :=
  { size := sound.size
    marks := sound.marks
    contents := by
      intro other inside
      rcases sound.contents inside with same | ⟨visit, target, mark, replaced⟩
      · exact .inl same
      · exact .inr ⟨visit, target, mark, { replaced with visited := .inl replaced.visited }⟩
    owner := by
      intro other visited
      apply mem_add.mpr
      rcases visited with visited | same
      · exact .inl (sound.owner visited)
      · exact .inl (same ▸ ownerSeen)
    found := by
      intro object other found
      obtain ⟨visited, rest⟩ := sound.found found
      exact ⟨.inl visited, rest⟩
    once := sound.once
    met := by
      intro other otherSlot object visited otherMeets
      rcases visited with visited | same
      · obtain ⟨seen, still⟩ := sound.met visited otherMeets
        exact ⟨mem_add.mpr (.inl seen), still⟩
      · subst same
        obtain ⟨rfl, rfl⟩ := meets.target_eq otherMeets
        have seen := sound.seen_of_changed meets isChanged
        exact ⟨mem_add.mpr (.inl seen), fun still => absurd still isChanged⟩
    seen := by
      intro object mem inside
      rcases mem_add.mp mem with mem | same
      · exact sound.seen mem inside
      · subst same
        exact absurd inside (Nat.not_lt_of_le outside)
    complete := by
      intro other otherSlot object mem closed otherMeets
      rcases mem_add.mp mem with mem | same
      · exact .inl (sound.complete mem closed otherMeets)
      · obtain ⟨_, holds⟩ := otherMeets.owner_holds
        have inside := inside_of_content holds
        subst same
        exact absurd inside (Nat.not_lt_of_le outside) }

theorem enter (sound : state.Sound graph isOpen trail) {way : List Visit}
    (meets : graph.MeetsOn way visit slot target)
    (forward : target ∉ passed way visit.owner)
    (ownerSeen : visit.owner ∈ state.seen) (isNew : ¬ trail.visited visit)
    (unseen : target ∉ state.seen) :
    RemovalState.Sound graph (fun object => object = target ∨ isOpen object)
      (trail.find target visit) { state with seen := add state.seen target } :=
  { size := sound.size
    marks := sound.marks
    contents := by
      intro other inside
      rcases sound.contents inside with same | ⟨old, object, mark, replaced⟩
      · exact .inl same
      · refine .inr ⟨old, object, mark, { replaced with
            visited := .inl replaced.visited
            notFound := ?_ }⟩
        intro found
        rcases found with found | ⟨_, same⟩
        · exact replaced.notFound found
        · exact isNew (same ▸ replaced.visited)
    owner := by
      intro other visited
      apply mem_add.mpr
      rcases visited with visited | same
      · exact .inl (sound.owner visited)
      · exact .inl (same ▸ ownerSeen)
    found := by
      intro object other found
      rcases found with found | ⟨sameObject, sameVisit⟩
      · obtain ⟨visited, rest⟩ := sound.found found
        exact ⟨.inl visited, rest⟩
      · subst sameObject sameVisit
        exact ⟨.inr rfl, way, slot, meets, forward⟩
    once := by
      intro object first second isFirst isSecond
      have notBefore : ∀ {visit}, ¬ trail.found target visit := by
        intro visit found
        obtain ⟨visited, _, _, metOn, _⟩ := sound.found found
        exact unseen (sound.met visited metOn.2).1
      rcases isFirst with isFirst | ⟨same, sameFirst⟩
      · rcases isSecond with isSecond | ⟨same, _⟩
        · exact sound.once isFirst isSecond
        · exact absurd (same ▸ isFirst) notBefore
      · rcases isSecond with isSecond | ⟨_, sameSecond⟩
        · exact absurd (same ▸ isSecond) notBefore
        · exact sameSecond.trans sameFirst.symm
    met := by
      intro other otherSlot object visited otherMeets
      rcases visited with visited | same
      · obtain ⟨seen, still⟩ := sound.met visited otherMeets
        exact ⟨mem_add.mpr (.inl seen), fun holds => .inl (still holds)⟩
      · subst same
        obtain ⟨rfl, rfl⟩ := meets.2.target_eq otherMeets
        exact ⟨mem_add.mpr (.inr rfl), fun _ => .inr ⟨rfl, rfl⟩⟩
    seen := by
      intro object mem inside
      rcases mem_add.mp mem with mem | same
      · rcases sound.seen mem inside with isStart | ⟨visit, found⟩
        · exact .inl isStart
        · exact .inr ⟨visit, .inl found⟩
      · exact .inr ⟨visit, .inr ⟨same, rfl⟩⟩
    complete := by
      intro other otherSlot object mem closed otherMeets
      rcases mem_add.mp mem with mem | same
      · exact .inl (sound.complete mem (fun isOpen => closed (.inr isOpen)) otherMeets)
      · exact absurd (.inl same) closed }

theorem close (sound : state.Sound graph (fun object => object = target ∨ isOpen object) trail)
    (done : ∀ {visit slot object}, visit.owner = target →
      graph.cells.Meets visit slot object → trail.visited visit) :
    state.Sound graph isOpen trail :=
  { sound with
    complete := by
      intro visit slot object mem closed meets
      by_cases same : visit.owner = target
      · exact done same meets
      · exact sound.complete mem (fun isOpen => isOpen.elim same closed) meets }

end RemovalState.Sound

theorem ObjectGraph.sound_start (graph : ObjectGraph) :
    RemovalState.Sound graph (fun object => object = graph.start ∨ False)
      ⟨fun _ => False, fun _ _ => False⟩ ⟨graph.cells, [graph.start]⟩ :=
  { size := le_refl _
    marks := by
      intro address outside inside
      exact absurd inside (Nat.not_lt_of_le outside)
    contents := fun _ => .inl rfl
    owner := False.elim
    found := False.elim
    once := False.elim
    met := False.elim
    seen := by
      intro target mem _
      exact .inl (List.mem_singleton.mp mem)
    complete := by
      intro visit slot target mem closed _
      exact absurd (.inl (List.mem_singleton.mp mem)) closed }

end N8n
