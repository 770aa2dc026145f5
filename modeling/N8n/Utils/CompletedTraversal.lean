import N8n.Utils.CircularTraversal

/-!
# Completed traversals

Each call makes the visits of its object.  It ends, since a call is made only
for an object that is new, or for a mark, which has no visits.
-/

namespace N8n

open List OrderedMap OrderedSet

/-- The new visits are those that were to be made and those of new objects. -/
structure Handled (graph : ObjectGraph) (isOpen : Nat → Prop)
    (toMake : Visit → Prop) (trail : Trail) (state : RemovalState)
    (after : Trail) (last : RemovalState) : Prop where
  sound : last.Sound graph isOpen after
  visited : ∀ {visit}, trail.visited visit → after.visited visit
  seen : ∀ {address}, address ∈ state.seen → address ∈ last.seen
  fresh : ∀ {visit}, after.visited visit →
    trail.visited visit ∨ toMake visit ∨ visit.owner ∉ state.seen
  made : ∀ {visit slot target}, toMake visit →
    graph.cells.Meets visit slot target → after.visited visit

namespace Handled

variable {graph : ObjectGraph} {isOpen : Nat → Prop}
  {toMake more : Visit → Prop} {trail middle after : Trail}
  {state between last : RemovalState}

theorem nothing (sound : state.Sound graph isOpen trail)
    (none : ∀ {visit slot target}, toMake visit → ¬ graph.cells.Meets visit slot target) :
    Handled graph isOpen toMake trail state trail state :=
  { sound := sound
    visited := id
    seen := id
    fresh := .inl
    made := fun isMade meets => absurd meets (none isMade) }

theorem trans (first : Handled graph isOpen toMake trail state middle between)
    (second : Handled graph isOpen more middle between after last) :
    Handled graph isOpen (fun visit => toMake visit ∨ more visit) trail state after last :=
  { sound := second.sound
    visited := fun visited => second.visited (first.visited visited)
    seen := fun seen => second.seen (first.seen seen)
    fresh := by
      intro visit visited
      rcases second.fresh visited with visited | isMore | unseen
      · rcases first.fresh visited with visited | isFirst | unseen
        · exact .inl visited
        · exact .inr (.inl (.inl isFirst))
        · exact .inr (.inr unseen)
      · exact .inr (.inl (.inr isMore))
      · exact .inr (.inr fun seen => unseen (first.seen seen))
    made := by
      intro visit slot target isMade meets
      rcases isMade with isFirst | isMore
      · exact second.visited (first.made isFirst meets)
      · exact second.made isMore meets }

theorem congr (handled : Handled graph isOpen toMake trail state after last)
    (weaker : ∀ {visit}, toMake visit → more visit)
    (stronger : ∀ {visit slot target}, more visit →
      graph.cells.Meets visit slot target → toMake visit) :
    Handled graph isOpen more trail state after last :=
  { handled with
    fresh := by
      intro visit visited
      rcases handled.fresh visited with visited | isMade | unseen
      · exact .inl visited
      · exact .inr (.inl (weaker isMade))
      · exact .inr (.inr unseen)
    made := fun isMore meets =>
      handled.made (stronger isMore meets) meets }

end Handled

section Mono

variable {call other : RemovalState → Nat → Except RemovalError RemovalState}
  {state result : RemovalState}

theorem visitItem_mono (same : ∀ {state address result}, call state address = .ok result →
      other state address = .ok result)
    {array index : Nat}
    (ok : visitItem call array state index = .ok result) :
    visitItem other array state index = .ok result := by
  unfold visitItem at ok ⊢
  split at ok
  · split at ok
    case isTrue seen =>
      rw [if_pos seen]
      exact ok
    case isFalse unseen =>
      rw [if_neg unseen]
      split at ok
      case isTrue traversable =>
        rw [if_pos traversable]
        exact same ok
      case isFalse notTraversable =>
        rw [if_neg notTraversable]
        exact ok
  · exact ok

theorem visitEntry_mono (same : ∀ {state address result}, call state address = .ok result →
      other state address = .ok result)
    {object : Nat} {entry : String × GraphValue}
    (ok : visitEntry call object state entry = .ok result) :
    visitEntry other object state entry = .ok result := by
  unfold visitEntry at ok ⊢
  split at ok
  · exact ok
  · split at ok
    case isTrue traversable =>
      rw [if_pos traversable]
      split at ok
      case isTrue seen =>
        rw [if_pos seen]
        exact ok
      case isFalse unseen =>
        rw [if_neg unseen]
        exact same ok
    case isFalse notTraversable =>
      rw [if_neg notTraversable]
      split at ok
      · exact foldlM_mono (fun _ _ _ => visitItem_mono same) ok
      · exact ok

theorem removeCircularRefsFrom_mono {fuel larger : Nat} (le : fuel ≤ larger) {object : Nat}
    (ok : removeCircularRefsFrom fuel state object = .ok result) :
    removeCircularRefsFrom larger state object = .ok result := by
  induction fuel generalizing larger state object result with
  | zero => cases ok
  | succ fuel ih =>
    cases larger with
    | zero => cases le
    | succ larger =>
      have less : fuel ≤ larger := Nat.le_of_succ_le_succ le
      unfold removeCircularRefsFrom at ok ⊢
      split at ok
      · exact foldlM_mono (fun _ _ _ => visitEntry_mono (ih less)) ok
      · exact ok

end Mono

section Calls

variable {graph : ObjectGraph} {isOpen : Nat → Prop} {trail : Trail}
  {state : RemovalState} {unknown : Finset Nat}

/-- The objects of the graph that the traversal has not seen. -/
def RemovalState.unseen (graph : ObjectGraph) (state : RemovalState) : Finset Nat :=
  (Finset.range graph.cells.size).filter fun address => address ∉ state.seen

theorem RemovalState.unseen_subset {last : RemovalState}
    (seen : ∀ {address}, address ∈ state.seen → address ∈ last.seen) :
    last.unseen graph ⊆ state.unseen graph := by
  intro address mem
  obtain ⟨inside, absent⟩ := Finset.mem_filter.mp mem
  exact Finset.mem_filter.mpr ⟨inside, fun present => absent (seen present)⟩

/-- A call whose object a visit has just met, at the end of a way that has been
seen, ends and makes this visit. -/
def CallsEnd (graph : ObjectGraph) (unknown : Finset Nat) : Prop :=
  ∀ isOpen trail state way visit slot target, RemovalState.Sound graph isOpen trail state →
    state.unseen graph ⊆ unknown → graph.MeetsOn way visit slot target →
    (∀ object ∈ passed way visit.owner, object ∈ state.seen) →
    ¬ trail.visited visit → target ∉ state.seen →
    ∃ fuel last, removeCircularRefsFrom fuel state target = .ok last ∧
      ∃ after, Handled graph isOpen (fun other => other = visit) trail state after last

theorem removeCircularRefsFrom_mark (sound : state.Sound graph isOpen trail)
    {mark : Nat} (outside : graph.cells.size ≤ mark)
    (inside : mark < state.cells.size) :
    removeCircularRefsFrom 1 state mark =
      .ok { state with seen := OrderedSet.add state.seen mark } := by
  unfold removeCircularRefsFrom
  rw [sound.marks outside inside]
  apply foldlM_eq_self
  intro entry mem
  have isOnly := mem_ownEntries.mp mem
  rcases mem_entries_set.mp isOnly with same | ⟨other, _⟩
  · rw [same]
    rfl
  · cases other

theorem Handled.replace (sound : state.Sound graph isOpen trail)
    {visit : Visit} {slot : CellSlot} {target : Nat}
    (meets : graph.cells.Meets visit slot target)
    (ownerSeen : visit.owner ∈ state.seen) (isNew : ¬ trail.visited visit)
    (targetSeen : target ∈ state.seen) :
    Handled graph isOpen (fun other => other = visit) trail state
      (trail.visit visit) (state.replace slot.1 slot.2) :=
  { sound := sound.replace meets ownerSeen isNew targetSeen
    visited := .inl
    seen := id
    fresh := fun visited => visited.imp_right .inl
    made := fun same _ => .inr same }

theorem visitItem_of_changed (sound : state.Sound graph isOpen trail)
    {visit : Visit} {array index target : Nat}
    (meets : graph.cells.Meets visit (array, .item index) target)
    (ownerSeen : visit.owner ∈ state.seen) (isNew : ¬ trail.visited visit)
    {mark : Nat} (outside : graph.cells.size ≤ mark)
    (inside : mark < state.cells.size)
    (holds : state.cells.content (array, .item index) = some (.ref mark)) :
    ∃ fuel last, visitItem (removeCircularRefsFrom fuel) array state index = .ok last ∧
      ∃ after, Handled graph isOpen (fun other => other = visit) trail state after last := by
  have targetInside := graph.below_of_content meets.held
  have isChanged : state.cells.content (array, .item index) ≠ some (.ref target) := by
    rw [holds]
    intro same
    obtain rfl := GraphValue.ref.inj (Option.some.inj same)
    exact absurd outside (Nat.not_le_of_lt targetInside)
  have read : (state.cells.read array).get (.item index) = some (.ref mark) := holds
  by_cases seen : mark ∈ state.seen
  · refine ⟨0, _, ?_, _, .replace sound meets ownerSeen isNew
      (sound.seen_of_changed meets isChanged)⟩
    unfold visitItem
    rw [read]
    exact if_pos seen
  · have traversable : isTraversableObject state.cells (.ref mark) = true := by
      simp only [isTraversableObject, sound.marks outside inside]
      rfl
    refine ⟨1, _, ?_, trail.visit visit,
      { sound := sound.note meets ownerSeen isChanged outside
        visited := .inl
        seen := fun mem => mem_add.mpr (.inl mem)
        fresh := fun visited => visited.imp_right .inl
        made := fun same _ => .inr same }⟩
    unfold visitItem
    simp only [read]
    rw [if_neg seen, if_pos traversable]
    exact removeCircularRefsFrom_mark sound outside inside

variable {object : Nat}

theorem ObjectGraph.traversable_start {way : List Visit}
    (simple : graph.SimpleWay way object) {key : String} {value : GraphValue}
    (held : graph.cells.content (object, .field key) = some value) :
    isTraversableObject graph.cells (.ref graph.start) = true := by
  induction simple generalizing key value with
  | root => exact isTraversableObject_iff.mpr ⟨key, value, held⟩
  | visit _ meets _ ih =>
    obtain ⟨_, ownerHolds⟩ := meets.owner_holds
    exact ih ownerHolds

theorem RemovalState.Sound.traversable_of_seen (sound : state.Sound graph isOpen trail)
    (traversable : isTraversableObject graph.cells (.ref graph.start) = true)
    {target : Nat} (seen : target ∈ state.seen)
    (inside : target < graph.cells.size) :
    isTraversableObject graph.cells (.ref target) = true := by
  rcases sound.seen seen inside with rfl | ⟨visit, found⟩
  · exact traversable
  · obtain ⟨_, _, _, meets, _⟩ := sound.found found
    exact meets.2.traversable

/-- A call has come to an object by a way that was seen. -/
structure Standing (graph : ObjectGraph) (unknown : Finset Nat)
    (isOpen : Nat → Prop) (trail : Trail) (state : RemovalState)
    (way : List Visit) (object : Nat) : Prop where
  sound : state.Sound graph isOpen trail
  within : state.unseen graph ⊆ unknown
  simple : graph.SimpleWay way object
  passedSeen : ∀ other ∈ passed way object, other ∈ state.seen

namespace Standing

variable {way : List Visit} {object : Nat}

theorem seen (standing : Standing graph unknown isOpen trail state way object) :
    object ∈ state.seen :=
  standing.passedSeen object mem_cons_self

theorem after {toMake : Visit → Prop} {after : Trail} {last : RemovalState}
    (standing : Standing graph unknown isOpen trail state way object)
    (handled : Handled graph isOpen toMake trail state after last) :
    Standing graph unknown isOpen after last way object :=
  { sound := handled.sound
    within := (RemovalState.unseen_subset handled.seen).trans standing.within
    simple := standing.simple
    passedSeen := fun other mem =>
      handled.seen (standing.passedSeen other mem) }

variable {key : String}

theorem visitItem_handled (calls : CallsEnd graph unknown)
    (standing : Standing graph unknown isOpen trail state way object) {array : Nat}
    (held : graph.cells.content (object, .field key) = some (.ref array))
    (index : Nat) (isNew : ¬ trail.visited ⟨object, key, some index⟩) :
    ∃ fuel last, visitItem (removeCircularRefsFrom fuel) array state index = .ok last ∧
      ∃ after, Handled graph isOpen (fun other => other = ⟨object, key, some index⟩)
        trail state after last := by
  have sound := standing.sound
  have arrayInside := graph.below_of_content held
  have isSlot : graph.cells.slot ⟨object, key, some index⟩ = some (array, .item index) := by
    simp [GraphCells.slot, held]
  have skip : (∀ target, ¬ graph.cells.Meets ⟨object, key, some index⟩
      (array, .item index) target) →
      Handled graph isOpen (fun other => other = ⟨object, key, some index⟩)
        trail state trail state := by
    intro none
    apply Handled.nothing sound
    intro visit slot target same meets
    subst same
    obtain rfl := Option.some.inj (isSlot.symm.trans meets.isSlot)
    exact none target meets
  have slotInside : ((array, .item index) : CellSlot).1 < graph.cells.size := arrayInside
  rcases sound.contents slotInside with
    same | ⟨other, target, mark, replaced⟩
  · have read : (state.cells.read array).get (.item index) =
        graph.cells.content (array, .item index) := same
    cases holds : graph.cells.content (array, .item index) with
    | none =>
      refine ⟨0, state, ?_, trail, skip fun target meets => ?_⟩
      · simp only [visitItem, read, holds]
      · rw [meets.held] at holds
        cases holds
    | some value =>
      cases value with
      | primitive value =>
        refine ⟨0, state, ?_, trail, skip fun target meets => ?_⟩
        · simp only [visitItem, read, holds]
        · rw [meets.held] at holds
          cases holds
      | ref target =>
        have inside := graph.below_of_content holds
        have stillTraversable := sound.isTraversableObject_eq inside
        by_cases seen : target ∈ state.seen
        · have traversable := sound.traversable_of_seen
            (ObjectGraph.traversable_start standing.simple held) seen inside
          refine ⟨0, _, ?_, _, Handled.replace sound
            ⟨isSlot, holds, traversable⟩ standing.seen isNew seen⟩
          simp only [visitItem, read, holds]
          exact if_pos seen
        · by_cases traversable : isTraversableObject graph.cells (.ref target) = true
          · obtain ⟨fuel, last, run, handled⟩ := calls isOpen trail state way
              ⟨object, key, some index⟩ (array, .item index) target sound
              standing.within
              ⟨standing.simple, isSlot, holds, traversable⟩
              standing.passedSeen isNew seen
            refine ⟨fuel, last, ?_, handled⟩
            simp only [visitItem, read, holds]
            rw [if_neg seen, stillTraversable, if_pos traversable]
            exact run
          · refine ⟨0, state, ?_, trail, skip fun other meets => ?_⟩
            · simp only [visitItem, read, holds]
              rw [if_neg seen, stillTraversable, if_neg traversable]
            · have sameRef := meets.held.symm.trans holds
              obtain rfl := GraphValue.ref.inj (Option.some.inj sameRef)
              exact traversable meets.traversable
  · have meets : graph.cells.Meets ⟨object, key, some index⟩ (array, .item index) target :=
      { isSlot := isSlot
        held := replaced.meets.held
        traversable := replaced.meets.traversable }
    exact visitItem_of_changed sound meets standing.seen isNew replaced.outside
      replaced.inside replaced.holds

theorem visitItems_handled (calls : CallsEnd graph unknown)
    (standing : Standing graph unknown isOpen trail state way object) {array : Nat}
    (held : graph.cells.content (object, .field key) = some (.ref array))
    (isNew : ∀ index, ¬ trail.visited ⟨object, key, index⟩) (length : Nat) :
    ∃ fuel last, (List.range length).foldlM
        (visitItem (removeCircularRefsFrom fuel) array) state = .ok last ∧
      ∃ after, Handled graph isOpen (fun visit => ∃ index ∈ List.range length,
          visit = ⟨object, key, some index⟩) trail state after last := by
  apply @List.foldlM_exists_fuel _ _ _ (List.range length)
    (fun fuel => visitItem (removeCircularRefsFrom fuel) array)
    (fun le ok => visitItem_mono (removeCircularRefsFrom_mono le) ok)
    (fun folded last => ∃ after, Handled graph isOpen
      (fun visit => ∃ index ∈ folded, visit = ⟨object, key, some index⟩)
      trail state after last)
  · intro folded index later middle split ⟨after, handled⟩
    have isLater : index ∉ folded := by
      have nodup := split ▸ nodup_range (n := length)
      intro earlier
      exact (nodup_append.mp nodup).2.2 index earlier index mem_cons_self rfl
    have stillNew : ¬ after.visited ⟨object, key, some index⟩ := by
      intro visited
      rcases handled.fresh visited with visited | ⟨other, earlier, same⟩ | absent
      · exact isNew _ visited
      · cases same
        exact isLater earlier
      · exact absent standing.seen
    obtain ⟨fuel, last, run, next, nextHandled⟩ :=
      (standing.after handled).visitItem_handled calls held index stillNew
    refine ⟨fuel, last, run, next, (handled.trans nextHandled).congr ?_ ?_⟩
    · intro visit isMade
      rcases isMade with ⟨other, earlier, same⟩ | same
      · exact ⟨other, mem_append_left _ earlier, same⟩
      · exact ⟨index, by simp, same⟩
    · intro visit slot target ⟨other, mem, same⟩ _
      rcases mem_append.mp mem with earlier | isIndex
      · exact .inl ⟨other, earlier, same⟩
      · exact .inr (mem_singleton.mp isIndex ▸ same)
  · refine ⟨trail, Handled.nothing standing.sound ?_⟩
    intro visit slot target ⟨_, absent, _⟩
    cases absent

theorem visitEntry_handled (calls : CallsEnd graph unknown)
    (standing : Standing graph unknown isOpen trail state way object) {value : GraphValue}
    (held : graph.cells.content (object, .field key) = some value)
    (isNew : ∀ index, ¬ trail.visited ⟨object, key, index⟩) :
    ∃ fuel last, visitEntry (removeCircularRefsFrom fuel) object state (key, value) = .ok last ∧
      ∃ after, Handled graph isOpen (fun visit => visit.owner = object ∧ visit.key = key)
        trail state after last := by
  have sound := standing.sound
  have meeting : ∀ {visit slot target}, visit.owner = object ∧ visit.key = key →
      graph.cells.Meets visit slot target →
      (visit = ⟨object, key, none⟩ ∧ value = .ref target) ∨
        ∃ index array, visit = ⟨object, key, some index⟩ ∧ value = .ref array ∧
          graph.cells.content (array, .item index) = some (.ref target) := by
    rintro visit slot target ⟨isOwner, isKey⟩ meets
    obtain ⟨owner, ownKey, index⟩ := visit
    subst isOwner isKey
    rcases meets.cases_held held with ⟨isField, same⟩ | ⟨index, array, isItem, rest⟩
    · exact .inl ⟨congrArg _ isField, same⟩
    · exact .inr ⟨index, array, congrArg _ isItem, rest⟩
  cases value with
  | primitive value =>
    refine ⟨0, state, rfl, trail, Handled.nothing sound ?_⟩
    intro visit slot target isHere meets
    rcases meeting isHere meets with ⟨_, same⟩ | ⟨_, _, _, same, _⟩
    · cases same
    · cases same
  | ref address =>
    have inside := graph.below_of_content held
    have stillTraversable := sound.isTraversableObject_eq inside
    by_cases traversable : isTraversableObject graph.cells (.ref address) = true
    · have meets : graph.cells.Meets ⟨object, key, none⟩
          (object, .field key) address := ⟨rfl, held, traversable⟩
      have onlyField : ∀ {visit slot target}, visit.owner = object ∧ visit.key = key →
          graph.cells.Meets visit slot target →
          visit = ⟨object, key, none⟩ := by
        intro visit slot target isHere otherMeets
        rcases meeting isHere otherMeets with
          ⟨same, _⟩ | ⟨index, array, _, same, isItem⟩
        · exact same
        · obtain rfl := GraphValue.ref.inj same
          obtain ⟨field, holds, isField⟩ := isTraversableObject_iff.mp traversable
          exact absurd isItem (GraphCells.content_item_of_field isField _ _)
      have isHere : ∀ {visit : Visit}, visit = ⟨object, key, none⟩ →
          visit.owner = object ∧ visit.key = key := by
        intro visit same
        subst same
        exact ⟨rfl, rfl⟩
      by_cases seen : address ∈ state.seen
      · have handled := Handled.replace sound meets standing.seen (isNew none) seen
        refine ⟨0, _, ?_, _, handled.congr isHere onlyField⟩
        simp only [visitEntry]
        rw [stillTraversable, if_pos traversable, if_pos seen]
      · obtain ⟨fuel, last, run, after, handled⟩ := calls isOpen trail state way
          ⟨object, key, none⟩ (object, .field key) address sound
          standing.within ⟨standing.simple, meets⟩ standing.passedSeen
          (isNew none) seen
        refine ⟨fuel, last, ?_, after, handled.congr isHere onlyField⟩
        simp only [visitEntry]
        rw [stillTraversable, if_pos traversable, if_neg seen]
        exact run
    · have onlyItems : ∀ {visit slot target}, visit.owner = object ∧ visit.key = key →
          graph.cells.Meets visit slot target →
          ∃ index, visit = ⟨object, key, some index⟩ ∧
            graph.cells.content (address, .item index) = some (.ref target) := by
        intro visit slot target isHere meets
        rcases meeting isHere meets with
          ⟨_, same⟩ | ⟨index, array, isItem, same, holds⟩
        · obtain rfl := GraphValue.ref.inj same
          exact absurd meets.traversable traversable
        · obtain rfl := GraphValue.ref.inj same
          exact ⟨index, isItem, holds⟩
      cases isCell : state.cells.read address with
      | object fields =>
        refine ⟨0, state, ?_, trail, Handled.nothing sound ?_⟩
        · simp only [visitEntry]
          rw [stillTraversable, if_neg traversable, isCell]
        · intro visit slot target isHere meets
          obtain ⟨index, _, holds⟩ := onlyItems isHere meets
          obtain ⟨_, still⟩ := sound.holds_of_holds holds
          simp only [GraphCells.content, isCell] at still
          cases still
      | array items =>
        obtain ⟨fuel, last, run, after, handled⟩ :=
          standing.visitItems_handled calls held (fun index => isNew index) items.length
        refine ⟨fuel, last, ?_, after, handled.congr ?_ ?_⟩
        · simp only [visitEntry]
          rw [stillTraversable, if_neg traversable, isCell]
          exact run
        · rintro visit ⟨index, _, same⟩
          subst same
          exact ⟨rfl, rfl⟩
        · intro visit slot target isHere meets
          obtain ⟨index, same, holds⟩ := onlyItems isHere meets
          obtain ⟨_, still⟩ := sound.holds_of_holds holds
          simp only [GraphCells.content, isCell] at still
          obtain ⟨indexInside, _⟩ := List.getElem?_eq_some_iff.mp still
          exact ⟨index, List.mem_range.mpr indexInside, same⟩

theorem visitEntries_handled (calls : CallsEnd graph unknown)
    (standing : Standing graph unknown isOpen trail state way object)
    {fields : OrderedMap String GraphValue}
    (snapshot : ∀ {key value}, (key, value) ∈ fields.entries ↔
      graph.cells.content (object, .field key) = some value)
    (isNew : ∀ {visit}, trail.visited visit → visit.owner ≠ object) :
    ∃ fuel last, fields.ownEntries.foldlM
        (visitEntry (removeCircularRefsFrom fuel) object) state = .ok last ∧
      ∃ after, Handled graph isOpen (fun visit => visit.owner = object) trail state after last := by
  have general := @List.foldlM_exists_fuel _ _ _ fields.ownEntries
    (fun fuel => visitEntry (removeCircularRefsFrom fuel) object)
    (fun le ok => visitEntry_mono (removeCircularRefsFrom_mono le) ok)
    (fun folded last => ∃ after, Handled graph isOpen
      (fun visit => visit.owner = object ∧ visit.key ∈ folded.map Prod.fst)
      trail state after last) ?_ state ?_
  · obtain ⟨fuel, last, run, after, handled⟩ := general
    refine ⟨fuel, last, run, after, handled.congr And.left ?_⟩
    intro visit slot target isOwner meets
    subst isOwner
    obtain ⟨value, held⟩ := meets.owner_holds
    refine ⟨rfl, mem_map.mpr ⟨(visit.key, value), ?_, rfl⟩⟩
    exact mem_ownEntries.mpr (snapshot.mpr held)
  · rintro folded entry later middle split ⟨after, handled⟩
    have mem : entry ∈ fields.entries := mem_ownEntries.mp (split ▸ mem_append_cons_self)
    have isLater : entry.1 ∉ folded.map Prod.fst := by
      have nodup := fields.ownKeys_nodup
      rw [OrderedMap.ownKeys, split, map_append, map_cons] at nodup
      intro earlier
      exact (nodup_append.mp nodup).2.2 entry.1 earlier entry.1 mem_cons_self rfl
    have stillNew : ∀ index, ¬ after.visited ⟨object, entry.1, index⟩ := by
      intro index visited
      rcases handled.fresh visited with visited | ⟨_, earlier⟩ | absent
      · exact isNew visited rfl
      · exact isLater earlier
      · exact absent standing.seen
    obtain ⟨fuel, last, run, next, nextHandled⟩ :=
      (standing.after handled).visitEntry_handled calls (snapshot.mp mem) stillNew
    refine ⟨fuel, last, run, next, (handled.trans nextHandled).congr ?_ ?_⟩
    · intro visit isMade
      rcases isMade with ⟨isOwner, earlier⟩ | ⟨isOwner, isKey⟩
      · exact ⟨isOwner, by simp [earlier]⟩
      · exact ⟨isOwner, by simp [isKey]⟩
    · rintro visit slot target ⟨isOwner, isKey⟩ _
      rw [map_append] at isKey
      rcases mem_append.mp isKey with earlier | isEntry
      · exact .inl ⟨isOwner, earlier⟩
      · exact .inr ⟨isOwner, mem_singleton.mp isEntry⟩
  · refine ⟨trail, Handled.nothing standing.sound ?_⟩
    rintro visit slot target ⟨_, absent⟩
    cases absent

end Standing

theorem RemovalState.Sound.content_field (sound : state.Sound graph isOpen trail)
    (inside : object < graph.cells.size)
    (isNew : ∀ {visit}, trail.visited visit → visit.owner ≠ object) (key : String) :
    state.cells.content (object, .field key) = graph.cells.content (object, .field key) := by
  have slotInside : ((object, .field key) : CellSlot).1 < graph.cells.size := inside
  rcases sound.contents slotInside with same | ⟨visit, target, mark, replaced⟩
  · exact same
  · have isSlot := replaced.meets.isSlot
    unfold GraphCells.slot at isSlot
    split at isSlot
    · obtain ⟨isOwner, _⟩ := Prod.mk.inj (Option.some.inj isSlot)
      exact absurd isOwner (isNew replaced.visited)
    · split at isSlot
      · cases isSlot
      · cases isSlot

theorem call_handled (calls : CallsEnd graph unknown) {way : List Visit} (standing : Standing graph unknown isOpen trail
      { state with seen := OrderedSet.add state.seen object } way object)
    (inside : object < graph.cells.size) {fields : OrderedMap String GraphValue}
    (isObject : state.cells.read object = .object fields)
    (isNew : ∀ {visit}, trail.visited visit → visit.owner ≠ object) :
    ∃ fuel last, removeCircularRefsFrom fuel state object = .ok last ∧
      ∃ after, Handled graph isOpen (fun visit => visit.owner = object) trail
        { state with seen := OrderedSet.add state.seen object } after last := by
  have snapshot : ∀ {key value}, (key, value) ∈ fields.entries ↔
      graph.cells.content (object, .field key) = some value := by
    intro key value
    rw [← standing.sound.content_field inside isNew, GraphCells.content, isObject]
    exact get?_eq_some_iff.symm
  obtain ⟨fuel, last, run, handled⟩ := standing.visitEntries_handled calls snapshot isNew
  refine ⟨fuel + 1, last, ?_, handled⟩
  rw [removeCircularRefsFrom, isObject]
  exact run

theorem callsEnd (graph : ObjectGraph) (unknown : Finset Nat) : CallsEnd graph unknown := by
  induction unknown using Finset.strongInduction with
  | H unknown ih =>
    intro isOpen trail state way visit slot target sound within meets passedSeen isNew unseen
    have forward : target ∉ passed way visit.owner := fun isPassed =>
      unseen (passedSeen target isPassed)
    have ownerSeen := passedSeen visit.owner mem_cons_self
    have inside := graph.below_of_content meets.2.held
    have entered := sound.enter meets forward ownerSeen isNew unseen
    have notOwner : ∀ {other}, (trail.find target visit).visited other → other.owner ≠ target := by
      intro other visited same
      rcases visited with visited | isVisit
      · exact unseen (same ▸ sound.owner visited)
      · exact unseen (same ▸ isVisit ▸ ownerSeen)
    have fewer : RemovalState.unseen graph { state with seen := OrderedSet.add state.seen target } ⊂
        state.unseen graph := by
      refine ⟨RemovalState.unseen_subset fun mem => mem_add.mpr (.inl mem), fun back => ?_⟩
      have mem := back (Finset.mem_filter.mpr ⟨Finset.mem_range.mpr inside, unseen⟩)
      exact (Finset.mem_filter.mp mem).2 (mem_add.mpr (.inr rfl))
    have standing : Standing graph _ _ (trail.find target visit)
        { state with seen := OrderedSet.add state.seen target }
        (visit :: way) target :=
      { sound := entered
        within := Finset.Subset.refl _
        simple := .visit meets.1 meets.2 forward
        passedSeen := by
          intro other isPassed
          apply mem_add.mpr
          rcases mem_cons.mp isPassed with same | earlier
          · exact .inr same
          · exact .inl (passedSeen other earlier) }
    obtain ⟨fields, isObject⟩ : ∃ fields, state.cells.read target = .object fields := by
      have traversable := meets.2.traversable
      rw [← sound.isTraversableObject_eq inside] at traversable
      cases isCell : state.cells.read target with
      | object fields => exact ⟨fields, rfl⟩
      | array items => simp [isTraversableObject, isCell] at traversable
    obtain ⟨fuel, last, run, after, handled⟩ := call_handled
      (ih _ (fewer.trans_subset within)) standing inside isObject notOwner
    refine ⟨fuel, last, run, after, ?_⟩
    exact
      { sound := handled.sound.close handled.made
        visited := fun visited => handled.visited (.inl visited)
        seen := fun mem =>
          handled.seen (mem_add.mpr (.inl mem))
        fresh := by
          intro other visited
          rcases handled.fresh visited with before | isOwner | absent
          · rcases before with before | isVisit
            · exact .inl before
            · exact .inr (.inl isVisit)
          · exact .inr (.inr (isOwner ▸ unseen))
          · exact .inr (.inr fun mem =>
              absent (mem_add.mpr (.inl mem)))
        made := fun isVisit _ => handled.visited (.inr isVisit) }

end Calls

end N8n
