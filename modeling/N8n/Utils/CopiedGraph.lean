import Mathlib.Data.Fintype.Card
import Mathlib.Data.Fintype.EquivFin
import N8n.Utils.CopiedValues

/-!
# Graphs that can be copied

A copy comes to its end if and only if no array leads back to itself through
arrays alone.  Its tree is that of the source as long as no key is
`__proto__`.
-/

namespace N8n

open OrderedMap Except List ValueGraph

/-- One step out of an array. -/
def GraphCells.ArrayLeads (cells : GraphCells) (value child : GraphValue) : Prop :=
  ∃ address items, value = .ref address ∧ cells.read address = .array items ∧ child ∈ items

theorem GraphCells.ArrayLeads.leads {cells : GraphCells}
    {value child : GraphValue} (step : cells.ArrayLeads value child) :
    cells.Leads value child := by
  obtain ⟨address, items, atAddress, isArray, mem⟩ := step
  refine ⟨address, atAddress, ?_⟩
  rw [isArray]
  exact mem

namespace ValueGraph

/-- No way through arrays alone leads back to where it began. -/
def ArraysEnd (graph : ValueGraph) : Prop :=
  ∀ value, graph.cells.Reaches graph.root value →
    ¬ Relation.TransGen graph.cells.ArrayLeads value value

def NoProtoKeys (graph : ValueGraph) : Prop :=
  ∀ address fields, graph.cells.Reaches graph.root (.ref address) →
    graph.cells.read address = .object fields →
    fields.get? "__proto__" = none

end ValueGraph

section Success

variable {graph : ValueGraph} {state : CopyState}

theorem CopyState.Sound.isFresh_of_reaches {isOpen : Nat → Prop}
    (sound : state.Sound graph isOpen) {copy other : GraphValue}
    (fresh : copy.From graph.cells.size)
    (reaches : state.cells.Reaches copy other) :
    other.From graph.cells.size := by
  induction reaches with
  | refl => exact fresh
  | tail _ leads ih =>
    obtain ⟨address, rfl, mem⟩ := leads
    exact (sound.fresh ih).children _ mem

def ReachedCopy (graph : ValueGraph) (state : CopyState) (value copy : GraphValue) : Prop :=
  graph.cells.Reaches graph.root value ∧ Copied graph.cells state value copy

theorem ReachedCopy.matching (sound : state.Sound graph fun _ => False)
    (noProto : graph.NoProtoKeys) (value copy : GraphValue)
    (related : ReachedCopy graph state value copy) :
    MatchingValues graph.cells state.cells (ReachedCopy graph state) value copy := by
  obtain ⟨reached, copied⟩ := related
  cases copied with
  | primitive value => exact .primitive value
  | @object address clone known =>
    obtain ⟨_, fields, isObject, filled⟩ := sound.known known
    obtain ⟨clones, isClone, comes, goes⟩ := filled not_false
    refine .object isObject isClone fun key => ?_
    cases held : fields.get? key with
    | none =>
      cases heldClone : clones.get? key with
      | none => exact .none
      | some copy =>
        obtain ⟨_, value, mem, _⟩ := comes key copy heldClone
        rw [get?_eq_some_iff.mpr mem] at held
        cases held
    | some value =>
      have plain : key ≠ "__proto__" := by
        intro same
        rw [same, noProto address fields reached isObject] at held
        cases held
      have mem := get?_eq_some_iff.mp held
      obtain ⟨copy, heldClone, copied⟩ := goes key value mem plain
      rw [heldClone]
      refine .some ⟨reached.tail ⟨address, rfl, ?_⟩, copied⟩
      rw [isObject]
      exact mem_map_of_mem mem
  | @array address clone items copies isArray isClone _ length parts =>
    refine .array isArray isClone ?_
    rw [List.forall₂_iff_get]
    refine ⟨length, fun index inside otherInside => ⟨?_, ?_⟩⟩
    · refine reached.tail ⟨address, rfl, ?_⟩
      rw [isArray]
      exact get_mem _ _
    · exact parts index _ _ (by simp) (by simp)

theorem not_rel_self_of_acc {α : Type} {relation : α → α → Prop} {item : α}
    (acc : Acc relation item) : ¬ relation item item := by
  induction acc with
  | intro item _ ih => exact fun self => ih item self self

theorem Copied.acc {value copy : GraphValue} (sound : state.Sound graph fun _ => False)
    (copied : Copied graph.cells state value copy) :
    Acc (Function.swap graph.cells.ArrayLeads) value := by
  induction copied with
  | primitive value =>
    constructor
    intro child step
    obtain ⟨address, items, same, _⟩ := step
    cases same
  | object known =>
    constructor
    intro child step
    obtain ⟨address, items, same, isArray, _⟩ := step
    cases same
    obtain ⟨_, fields, isObject, _⟩ := sound.known known
    rw [isObject] at isArray
    cases isArray
  | @array address clone items copies isArray _ _ length _ ih =>
    constructor
    intro child step
    obtain ⟨_, others, same, isOther, mem⟩ := step
    cases same
    obtain rfl := GraphCell.array.inj (isArray.symm.trans isOther)
    obtain ⟨index, inside, rfl⟩ := List.mem_iff_getElem.mp mem
    exact ih index _ copies[index] (by simp) (by simp)

end Success

namespace ValueGraph

variable {graph : ValueGraph}

theorem noProtoKeys_of_deepCopies (copies : graph.DeepCopies) : graph.NoProtoKeys := by
  obtain ⟨fuel, state, copy, run, same, fresh, _⟩ := copies
  have spec := meetsSpec_deepCopyFrom graph fuel graph.sound_copyStart graph.rooted run
  intro address fields reaches isObject
  obtain ⟨other, reached, otherSame⟩ := same.follows reaches
  obtain ⟨related, start, matching⟩ := otherSame
  cases matching _ _ start with
  | @object _ second _ others isLeft isRight keys =>
    obtain rfl := GraphCell.object.inj (isObject.symm.trans isLeft)
    have plain := (spec.sound.fresh (fresh second reached)).plain isRight
    have relation := keys "__proto__"
    rw [plain] at relation
    cases held : fields.get? "__proto__" with
    | none => rfl
    | some value =>
      rw [held] at relation
      cases relation
  | array isLeft =>
    rw [isObject] at isLeft
    cases isLeft

theorem arraysEnd_of_success (noProto : graph.NoProtoKeys) {fuel : Nat}
    {state : CopyState} {copy : GraphValue}
    (run : graph.deepCopy fuel = .ok (state, copy)) : graph.ArraysEnd := by
  have spec := meetsSpec_deepCopyFrom graph fuel graph.sound_copyStart graph.rooted run
  intro value reaches cycle
  have start : ReachedCopy graph state graph.root copy := ⟨.refl, spec.copied⟩
  obtain ⟨other, _, _, copied⟩ := MatchingValues.follows
    (ReachedCopy.matching spec.sound noProto) start reaches
  have acc := (copied.acc spec.sound).transGen
  exact not_rel_self_of_acc acc (Relation.transGen_swap.mpr cycle)

theorem deepCopies_of_success (noProto : graph.NoProtoKeys) {fuel : Nat}
    {state : CopyState} {copy : GraphValue}
    (run : graph.deepCopy fuel = .ok (state, copy)) : graph.DeepCopies := by
  have spec := meetsSpec_deepCopyFrom graph fuel graph.sound_copyStart graph.rooted run
  refine ⟨fuel, state, copy, run, ?_, ?_, spec.sound.kept⟩
  · exact ⟨ReachedCopy graph state, ⟨.refl, spec.copied⟩, ReachedCopy.matching spec.sound noProto⟩
  · intro address reaches
    exact spec.sound.isFresh_of_reaches (spec.copied.isFresh spec.sound) reaches

theorem acc_of_arraysEnd (arraysEnd : graph.ArraysEnd) {value : GraphValue}
    (reaches : graph.cells.Reaches graph.root value) :
    Acc (Function.swap graph.cells.ArrayLeads) value := by
  let later (child parent : Fin graph.cells.size) : Prop :=
    graph.cells.Reaches graph.root (.ref parent) ∧
      Relation.TransGen graph.cells.ArrayLeads (.ref parent) (.ref child)
  have isTrans : IsTrans _ later := ⟨fun _ _ _ near far => ⟨far.1, far.2.trans near.2⟩⟩
  have irrefl : Std.Irrefl later := ⟨fun address self => arraysEnd _ self.1 self.2⟩
  have wellFounded : WellFounded later := Finite.wellFounded_of_trans_of_irrefl later
  have accPrimitive : ∀ primitive,
      Acc (Function.swap graph.cells.ArrayLeads) (.primitive primitive) := by
    intro primitive
    constructor
    intro child step
    obtain ⟨address, items, same, _⟩ := step
    cases same
  have accRef : ∀ address : Fin graph.cells.size, graph.cells.Reaches graph.root (.ref address) →
        Acc (Function.swap graph.cells.ArrayLeads) (.ref address) := by
    intro address
    induction address using wellFounded.induction with
    | h address ih =>
      intro reaches
      constructor
      intro child step
      have childReached := reaches.tail (GraphCells.ArrayLeads.leads step)
      cases child with
      | primitive primitive => exact accPrimitive primitive
      | ref other =>
        have inside := graph.below_of_reaches childReached
        exact ih ⟨other, inside⟩ ⟨reaches, .single step⟩ childReached
  cases value with
  | primitive primitive => exact accPrimitive primitive
  | ref address => exact accRef ⟨address, graph.below_of_reaches reaches⟩ reaches

end ValueGraph

section Termination

variable {copy other : CopyState → GraphValue → Except CopyError (CopyState × GraphValue)}

theorem copyItem_mono (same : ∀ {state value result}, copy state value = .ok result →
      other state value = .ok result)
    {progress last : CopyState × List GraphValue} {item : GraphValue}
    (ok : copyItem copy progress item = .ok last) :
    copyItem other progress item = .ok last := by
  obtain ⟨result, copied, rest⟩ := bind_eq_ok_iff.mp ok
  exact bind_eq_ok_iff.mpr ⟨result, same copied, rest⟩

theorem copyField_mono (same : ∀ {state value result}, copy state value = .ok result →
      other state value = .ok result) {clone : Nat} {state last : CopyState}
    {entry : String × GraphValue}
    (ok : copyField copy clone state entry = .ok last) :
    copyField other clone state entry = .ok last := by
  obtain ⟨result, copied, rest⟩ := bind_eq_ok_iff.mp ok
  exact bind_eq_ok_iff.mpr ⟨result, same copied, rest⟩

theorem deepCopyFrom_mono {fuel larger : Nat} (le : fuel ≤ larger)
    {state : CopyState} {value : GraphValue} {result : CopyState × GraphValue}
    (ok : deepCopyFrom fuel state value = .ok result) :
    deepCopyFrom larger state value = .ok result := by
  induction fuel generalizing larger state value result with
  | zero =>
    cases value with
    | primitive value =>
      rw [deepCopyFrom_primitive] at ok ⊢
      exact ok
    | ref address => cases ok
  | succ fuel ih =>
    cases larger with
    | zero => cases le
    | succ larger =>
      have less : fuel ≤ larger := Nat.le_of_succ_le_succ le
      cases value with
      | primitive value =>
        exact ok
      | ref address =>
        cases held : state.hash.get? address with
        | some clone =>
          rw [deepCopyFrom_known _ held] at ok ⊢
          exact ok
        | none =>
          cases isCell : state.cells.read address with
          | array items =>
            rw [deepCopyFrom_array _ held isCell] at ok ⊢
            obtain ⟨progress, folds, rest⟩ := map_eq_ok_iff.mp ok
            apply map_eq_ok_iff.mpr
            exact ⟨progress, foldlM_mono (fun _ _ _ => copyItem_mono (ih less)) folds, rest⟩
          | object fields =>
            rw [deepCopyFrom_object _ held isCell] at ok ⊢
            obtain ⟨last, folds, rest⟩ := map_eq_ok_iff.mp ok
            apply map_eq_ok_iff.mpr
            exact ⟨last, foldlM_mono (fun _ _ _ => copyField_mono (ih less)) folds, rest⟩

variable {graph : ValueGraph}

/-- The objects that the hash does not know yet. -/
def CopyState.unhashed (graph : ValueGraph) (state : CopyState) : Finset Nat :=
  (Finset.range graph.cells.size).filter fun address =>
    state.hash.get? address = none

namespace CopyStep

variable {limit : Nat} {before after : CopyState}

theorem unhashed_subset (step : CopyStep limit before after) :
    after.unhashed graph ⊆ before.unhashed graph := by
  intro address mem
  obtain ⟨inside, unknown⟩ := Finset.mem_filter.mp mem
  refine Finset.mem_filter.mpr ⟨inside, ?_⟩
  cases held : before.hash.get? address with
  | none => rfl
  | some clone =>
    rw [step.hash held] at unknown
    cases unknown

theorem unhashed_ssubset (step : CopyStep limit before after) {address : Nat}
    (inside : address < graph.cells.size)
    (unknown : before.hash.get? address = none) {clone : Nat}
    (known : after.hash.get? address = some clone) :
    after.unhashed graph ⊂ before.unhashed graph := by
  refine ⟨step.unhashed_subset, fun back => ?_⟩
  have mem : address ∈ before.unhashed graph :=
    Finset.mem_filter.mpr ⟨Finset.mem_range.mpr inside, unknown⟩
  have stillUnknown := (Finset.mem_filter.mp (back mem)).2
  rw [known] at stillUnknown
  cases stillUnknown

end CopyStep

/-- Copies that come to an end for the values which may follow, in every sound
state with at most the given objects unknown. -/
def CopiesWithin (graph : ValueGraph) (unknown : Finset Nat) (value : GraphValue) : Prop :=
  ∀ isOpen state, CopyState.Sound graph isOpen state → state.unhashed graph ⊆ unknown →
    ∃ fuel result, deepCopyFrom fuel state value = .ok result

theorem copyArray_terminates {unknown : Finset Nat} {address : Nat}
    {items : List GraphValue} (isArray : graph.cells.read address = .array items)
    (each : ∀ item ∈ items, CopiesWithin graph unknown item) {isOpen state}
    (sound : CopyState.Sound graph isOpen state)
    (within : state.unhashed graph ⊆ unknown) :
    ∃ fuel last, items.foldlM (copyItem (deepCopyFrom fuel)) (state, []) = .ok last := by
  have below : ∀ item ∈ items, item.Below graph.cells.size := by
    intro item mem
    apply graph.closed_read address
    rw [isArray]
    exact mem
  have general := @List.foldlM_exists_fuel _ _ _ items (fun fuel => copyItem (deepCopyFrom fuel))
    (fun le ok => copyItem_mono (deepCopyFrom_mono le) ok)
    (fun _ progress => progress.1.Sound graph isOpen ∧
      progress.1.unhashed graph ⊆ unknown) ?_ (state, []) ⟨sound, within⟩
  · obtain ⟨fuel, last, folds, _⟩ := general
    exact ⟨fuel, last, folds⟩
  intro folded item later progress split ⟨sound, within⟩
  have mem : item ∈ items := split ▸ List.mem_append_cons_self
  obtain ⟨fuel, result, copied⟩ := each item mem _ _ sound within
  have spec := meetsSpec_deepCopyFrom graph fuel sound (below item mem) copied
  refine ⟨fuel, (result.1, progress.2 ++ [result.2]), ?_, spec.sound,
    spec.step.unhashed_subset.trans within⟩
  exact bind_eq_ok_iff.mpr ⟨result, copied, rfl⟩

theorem copyObject_terminates {unknown : Finset Nat} {address clone : Nat}
    {fields : OrderedMap String GraphValue}
    (isObject : graph.cells.read address = .object fields)
    (noProto : fields.get? "__proto__" = none)
    (each : ∀ value ∈ fields.values, CopiesWithin graph unknown value)
    {isOpen : Nat → Prop} (opened : isOpen address) {state : CopyState}
    (sound : state.Sound graph isOpen)
    (known : state.hash.get? address = some clone)
    (isEmpty : state.cells.read clone = .object .empty)
    (within : state.unhashed graph ⊆ unknown) :
    ∃ fuel last, fields.ownEntries.foldlM
      (copyField (deepCopyFrom fuel) clone) state = .ok last := by
  have general := @List.foldlM_exists_fuel _ _ _
    fields.ownEntries (fun fuel => copyField (deepCopyFrom fuel) clone)
    (fun le ok => copyField_mono (deepCopyFrom_mono le) ok)
    (FieldsCopied graph isOpen clone state fields.entries) ?_ _
    (.start sound isEmpty _)
  · obtain ⟨fuel, last, folds, _⟩ := general
    exact ⟨fuel, last, folds⟩
  intro done entry later middle split progress
  have ownEntry : entry ∈ fields.entries := mem_ownEntries.mp (split ▸ List.mem_append_cons_self)
  have isValue := mem_values_of_mem_entries ownEntry
  have below : entry.2.Below graph.cells.size := by
    apply graph.closed_read address
    rw [isObject]
    exact isValue
  have plain : entry.1 ≠ "__proto__" := by
    intro same
    rw [← same, get?_eq_some_iff.mpr ownEntry] at noProto
    cases noProto
  obtain ⟨fuel, result, copied⟩ := each entry.2 isValue _ _ progress.sound
    (progress.step.unhashed_subset.trans within)
  have spec := meetsSpec_deepCopyFrom graph fuel progress.sound below copied
  obtain ⟨_, _, clones, isClone⟩ := spec.sound.clones (spec.step.hash (progress.step.hash known))
  obtain ⟨after, assigned⟩ : ∃ after,
      copyField (deepCopyFrom fuel) clone middle entry = .ok after :=
    ⟨_, bind_eq_ok_iff.mpr ⟨result, copied, CopyState.assign_field plain isClone result.2⟩⟩
  exact ⟨fuel, after, assigned,
    copyField_spec (meetsSpec_deepCopyFrom graph fuel) opened known progress
      ownEntry below assigned⟩

theorem copiesWithin_of_arraysEnd (arraysEnd : graph.ArraysEnd)
    (noProto : graph.NoProtoKeys) (unknown : Finset Nat) :
    ∀ {value}, graph.cells.Reaches graph.root value → CopiesWithin graph unknown value := by
  -- Outside, each new object leaves fewer unknown ones; inside, the arrays end.
  induction unknown using Finset.strongInduction with
  | H unknown ih =>
    intro value reaches
    have acc := ValueGraph.acc_of_arraysEnd arraysEnd reaches
    induction acc with
    | intro value _ later =>
      intro isOpen state sound within
      cases value with
      | primitive value => exact ⟨0, _, deepCopyFrom_primitive _ _ _⟩
      | ref address =>
        have inside := graph.below_of_reaches reaches
        have kept := sound.kept address inside
        cases held : state.hash.get? address with
        | some clone => exact ⟨1, _, deepCopyFrom_known 0 held⟩
        | none =>
          cases isCell : graph.cells.read address with
          | array items =>
            have each : ∀ item ∈ items, CopiesWithin graph unknown item := by
              intro item mem
              have step : graph.cells.ArrayLeads (.ref address) item :=
                ⟨address, items, rfl, isCell, mem⟩
              exact later item step (reaches.tail step.leads)
            obtain ⟨fuel, last, folds⟩ := copyArray_terminates isCell each sound within
            exact ⟨fuel + 1, _, (deepCopyFrom_array fuel held (kept.trans isCell)).trans
                (map_eq_ok_iff.mpr ⟨last, folds, rfl⟩)⟩
          | object fields =>
            obtain ⟨opening, openSound⟩ := sound.openObject inside isCell held
            have fewer := opening.unhashed_ssubset inside held (get?_set_self _ _ _)
            have each : ∀ value ∈ fields.values,
                CopiesWithin graph (CopyState.unhashed graph { state with
                  cells := (state.cells.allocate (.object .empty)).1
                  hash := state.hash.set address state.cells.size })
                  value := by
              intro value mem
              refine ih _ (fewer.trans_subset within) (reaches.tail ⟨address, rfl, ?_⟩)
              rw [isCell]
              exact mem
            obtain ⟨fuel, last, folds⟩ := copyObject_terminates isCell
              (noProto address fields reaches isCell) each (.inl rfl)
              openSound (get?_set_self _ _ _)
              (ObjectStore.read_allocate_self _ _)
              (Finset.Subset.refl _)
            exact ⟨fuel + 1, _, (deepCopyFrom_object fuel held (kept.trans isCell)).trans
                (map_eq_ok_iff.mpr ⟨last, folds, rfl⟩)⟩

end Termination

/-- The copy is right exactly when no reached array leads back to itself through
arrays, and no reached object has a key `__proto__`. -/
theorem deepCopies_iff (graph : ValueGraph) :
    graph.DeepCopies ↔ graph.ArraysEnd ∧ graph.NoProtoKeys := by
  constructor
  · intro copies
    have noProto := ValueGraph.noProtoKeys_of_deepCopies copies
    obtain ⟨fuel, state, copy, run, _⟩ := copies
    exact ⟨arraysEnd_of_success noProto run, noProto⟩
  · intro ⟨arraysEnd, noProto⟩
    obtain ⟨fuel, result, run⟩ := copiesWithin_of_arraysEnd arraysEnd noProto _
      .refl _ _ graph.sound_copyStart (Finset.Subset.refl _)
    exact ValueGraph.deepCopies_of_success noProto run

namespace DeepCopyExample

/-- `const list = []; list.push(list)`. -/
def ownItem : ValueGraph :=
  { cells := ⟨[.array [.ref 0]]⟩
    root := .ref 0
    closed := by decide
    rooted := by decide }

theorem deepCopyFrom_ownItem (fuel : Nat) :
    deepCopyFrom fuel ownItem.copyStart (.ref 0) = .error .callStack := by
  induction fuel with
  | zero => rfl
  | succ fuel ih =>
    have isArray : ownItem.copyStart.cells.read 0 = .array [.ref 0] := rfl
    rw [deepCopyFrom_array fuel rfl isArray, List.foldlM_cons, copyItem, ih]
    rfl

theorem not_deepCopies_ownItem : ¬ ∀ graph : ValueGraph, graph.DeepCopies := by
  intro all
  obtain ⟨fuel, state, copy, run, _⟩ := all ownItem
  exact absurd ((deepCopyFrom_ownItem fuel).symm.trans run) (by simp)

end DeepCopyExample

end N8n
