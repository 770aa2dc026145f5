import N8n.Utils.DeepCopy

/-!
# Copied values

What a successful copy leaves behind.  While an object is being copied its
entry in `hash` is open; every other entry leads to a clone with all fields.
-/

namespace N8n

open ObjectStore OrderedMap List Nat

/-- A reference is not below the limit. -/
def GraphValue.From (limit : Nat) : GraphValue → Prop
  | .primitive _ => True
  | .ref address => limit ≤ address

/-- The parts are not below the limit, and no key is `__proto__`. -/
structure GraphCell.Fresh (limit : Nat) (cell : GraphCell) : Prop where
  children : ∀ child ∈ cell.children, child.From limit
  plain : ∀ {fields}, cell = .object fields → fields.get? "__proto__" = none

theorem GraphCell.Fresh.empty (limit : Nat) : GraphCell.Fresh limit (.object .empty) :=
  { children := by simp [GraphCell.children]
    plain := by
      intro fields same
      cases same
      rfl }

/-- The hash knows the clone of an object; the clone of an array holds copies
of the items. -/
inductive Copied (source : GraphCells) (state : CopyState) :
    GraphValue → GraphValue → Prop where
  | primitive (value : Primitive) : Copied source state (.primitive value) (.primitive value)
  | object {address clone : Nat} : state.hash.get? address = some clone →
      Copied source state (.ref address) (.ref clone)
  | array {address clone : Nat} {items copies : List GraphValue} :
      source.read address = .array items →
      state.cells.read clone = .array copies → source.size ≤ clone →
      items.length = copies.length →
      (∀ (index : Nat) item copy, items[index]? = some item →
        copies[index]? = some copy → Copied source state item copy) →
      Copied source state (.ref address) (.ref clone)

/-- The clone has copies of the entries, apart from the prototype. -/
def Filled (source : GraphCells) (state : CopyState)
    (entries : List (String × GraphValue)) (clone : Nat) : Prop :=
  ∃ fields, state.cells.read clone = .object fields ∧
    (∀ key copy, fields.get? key = some copy → key ≠ "__proto__" ∧
      ∃ value, (key, value) ∈ entries ∧ Copied source state value copy) ∧
    ∀ key value, (key, value) ∈ entries → key ≠ "__proto__" →
      ∃ copy, fields.get? key = some copy ∧ Copied source state value copy

/-- What calls keep: the hash, the arrays and all cells below the limit. -/
structure CopyStep (limit : Nat) (before after : CopyState) : Prop where
  hash : ∀ {address clone}, before.hash.get? address = some clone →
    after.hash.get? address = some clone
  arrays : ∀ {address items}, before.cells.read address = .array items →
    after.cells.read address = .array items
  keeps : before.cells.KeepsBelow limit after.cells
  grows : before.cells.size ≤ after.cells.size

namespace CopyStep

variable {limit : Nat} {before middle after : CopyState}

protected theorem refl (limit : Nat) (state : CopyState) : CopyStep limit state state :=
  { hash := id
    arrays := id
    keeps := .refl limit _
    grows := le_refl _ }

theorem trans (first : CopyStep limit before middle)
    (second : CopyStep limit middle after) : CopyStep limit before after :=
  { hash := fun known => second.hash (first.hash known)
    arrays := fun isArray => second.arrays (first.arrays isArray)
    keeps := first.keeps.trans second.keeps
    grows := le_trans first.grows second.grows }

theorem mono {smaller : Nat} (step : CopyStep limit before after)
    (less : smaller ≤ limit) : CopyStep smaller before after :=
  { step with keeps := step.keeps.mono less }

theorem of_keeps (hash : ∀ {address clone}, before.hash.get? address = some clone →
      after.hash.get? address = some clone)
    (keeps : before.cells.KeepsBelow before.cells.size after.cells)
    (grows : before.cells.size ≤ after.cells.size) :
    CopyStep before.cells.size before after :=
  { hash, keeps, grows
    arrays := by
      intro address items isArray
      by_cases inside : address < before.cells.size
      · rw [keeps address inside]
        exact isArray
      · rw [read_of_size_le (Nat.le_of_not_lt inside)] at isArray
        cases isArray }

end CopyStep

variable {before after : CopyState}

theorem Copied.mono {source : GraphCells} {limit : Nat} (step : CopyStep limit before after)
    {value copy : GraphValue} (copied : Copied source before value copy) :
    Copied source after value copy := by
  induction copied with
  | primitive value => exact .primitive value
  | object known => exact .object (step.hash known)
  | array isSource isClone fresh length _ ih =>
    exact .array isSource (step.arrays isClone) fresh length ih

theorem Filled.mono {source : GraphCells} {limit : Nat} (step : CopyStep limit before after)
    {entries : List (String × GraphValue)} {clone : Nat}
    (same : after.cells.read clone = before.cells.read clone)
    (filled : Filled source before entries clone) :
    Filled source after entries clone := by
  obtain ⟨fields, isObject, comes, goes⟩ := filled
  refine ⟨fields, same.trans isObject, ?_, ?_⟩
  · intro key copy held
    obtain ⟨plain, value, mem, copied⟩ := comes key copy held
    exact ⟨plain, value, mem, copied.mono step⟩
  · intro key value mem plain
    obtain ⟨copy, held, copied⟩ := goes key value mem plain
    exact ⟨copy, held, copied.mono step⟩

/-- The invariant of the copy, where the clones of the open objects may still
miss fields. -/
structure CopyState.Sound (graph : ValueGraph) (isOpen : Nat → Prop)
    (state : CopyState) : Prop where
  kept : graph.cells.KeepsBelow graph.cells.size state.cells
  size : graph.cells.size ≤ state.cells.size
  known : ∀ {address clone}, state.hash.get? address = some clone →
    address < graph.cells.size ∧ ∃ fields, graph.cells.read address = .object fields ∧
        (¬ isOpen address → Filled graph.cells state fields.entries clone)
  clones : ∀ {address clone}, state.hash.get? address = some clone →
    graph.cells.size ≤ clone ∧ clone < state.cells.size ∧
      ∃ fields, state.cells.read clone = .object fields
  injective : ∀ {address other clone}, state.hash.get? address = some clone →
    state.hash.get? other = some clone → address = other
  fresh : ∀ {address}, graph.cells.size ≤ address →
    (state.cells.read address).Fresh graph.cells.size

theorem ValueGraph.sound_copyStart (graph : ValueGraph) :
    graph.copyStart.Sound graph fun _ => False :=
  { kept := .refl _ _
    size := le_refl _
    known := by simp [copyStart]
    clones := by simp [copyStart]
    injective := by simp [copyStart]
    fresh := by
      intro address outside
      rw [copyStart, read_of_size_le outside]
      exact .empty _ }

section Copies

variable {graph : ValueGraph} {isOpen : Nat → Prop}

theorem Copied.isFresh {state : CopyState} (sound : state.Sound graph isOpen)
    {value copy : GraphValue} (copied : Copied graph.cells state value copy) :
    copy.From graph.cells.size := by
  cases copied with
  | primitive value => trivial
  | object known => exact (sound.clones known).1
  | array _ _ fresh _ _ => exact fresh

namespace CopyState.Sound

variable {state : CopyState}

theorem allocate (sound : state.Sound graph isOpen) {cell : GraphCell}
    (fresh : cell.Fresh graph.cells.size) :
    CopyStep state.cells.size state { state with cells := (state.cells.allocate cell).1 } ∧
      CopyState.Sound graph isOpen { state with cells := (state.cells.allocate cell).1 } := by
  have step : CopyStep state.cells.size state
      { state with cells := (state.cells.allocate cell).1 } :=
    .of_keeps id (.allocate (.refl _ _) (le_refl _) _) (by simp)
  refine ⟨step, ?_⟩
  exact
    { kept := sound.kept.trans (step.keeps.mono sound.size)
      size := le_trans sound.size step.grows
      known := by
        intro address clone known
        obtain ⟨inside, fields, isObject, filled⟩ := sound.known known
        refine ⟨inside, fields, isObject, fun closed => ?_⟩
        exact (filled closed).mono step (step.keeps clone (sound.clones known).2.1)
      clones := by
        intro address clone known
        obtain ⟨outside, inside, fields, isObject⟩ := sound.clones known
        refine ⟨outside, lt_of_lt_of_le inside step.grows, fields, ?_⟩
        exact (step.keeps clone inside).trans isObject
      injective := sound.injective
      fresh := by
        intro address outside
        rcases lt_trichotomy address state.cells.size with
          below | same | above
        · rw [read_allocate_of_lt below]
          exact sound.fresh outside
        · rw [same, read_allocate_self]
          exact fresh
        · rw [read_of_size_le (by rw [size_allocate]; exact above)]
          exact .empty _ }

variable {address : Nat} {fields : OrderedMap String GraphValue} {clone : Nat}

theorem note (sound : state.Sound graph isOpen) (inside : address < graph.cells.size)
    (isObject : graph.cells.read address = .object fields)
    (isClone : graph.cells.size ≤ clone ∧ clone < state.cells.size ∧
      ∃ fields, state.cells.read clone = .object fields)
    (unused : ∀ other, state.hash.get? other ≠ some clone)
    (unknown : state.hash.get? address = none) :
    CopyStep state.cells.size state { state with hash := state.hash.set address clone } ∧
      CopyState.Sound graph (fun other => other = address ∨ isOpen other)
        { state with hash := state.hash.set address clone } := by
  have step : CopyStep state.cells.size state
      { state with hash := state.hash.set address clone } := by
    refine .of_keeps ?_ (.refl _ _) (le_refl _)
    intro other otherClone known
    have ne : address ≠ other := by
      intro same
      rw [← same, unknown] at known
      cases known
    rw [get?_set_ne _ _ ne]
    exact known
  have cases_ : ∀ {other otherClone}, (state.hash.set address clone).get? other = some otherClone →
      (other = address ∧ otherClone = clone) ∨
        (other ≠ address ∧ state.hash.get? other = some otherClone) := by
    intro other otherClone known
    rw [get?_set] at known
    split at known
    case isTrue same => exact .inl ⟨same.symm, (Option.some.inj known).symm⟩
    case isFalse ne => exact .inr ⟨Ne.symm ne, known⟩
  refine ⟨step, ?_⟩
  exact
    { kept := sound.kept
      size := sound.size
      known := by
        intro other otherClone known
        rcases cases_ known with ⟨sameKey, _⟩ | ⟨_, known⟩
        · subst sameKey
          exact ⟨inside, fields, isObject, fun closed => absurd (.inl rfl) closed⟩
        · obtain ⟨inside, fields, isObject, filled⟩ := sound.known known
          refine ⟨inside, fields, isObject, fun closed => ?_⟩
          exact (filled fun isOpen => closed (.inr isOpen)).mono step rfl
      clones := by
        intro other otherClone known
        rcases cases_ known with ⟨_, sameClone⟩ | ⟨_, known⟩
        · rw [sameClone]
          exact isClone
        · exact sound.clones known
      injective := by
        intro first second shared firstKnown secondKnown
        rcases cases_ firstKnown with ⟨isFirst, same⟩ | ⟨_, firstKnown⟩
        · rcases cases_ secondKnown with ⟨isSecond, _⟩ | ⟨_, secondKnown⟩
          · exact isFirst.trans isSecond.symm
          · exact absurd (same ▸ secondKnown) (unused second)
        · rcases cases_ secondKnown with ⟨_, same⟩ | ⟨_, secondKnown⟩
          · exact absurd (same ▸ firstKnown) (unused first)
          · exact sound.injective firstKnown secondKnown
      fresh := sound.fresh }

theorem openObject (sound : state.Sound graph isOpen) (inside : address < graph.cells.size)
    (isObject : graph.cells.read address = .object fields)
    (unknown : state.hash.get? address = none) :
    CopyStep state.cells.size state { state with
        cells := (state.cells.allocate (.object .empty)).1
        hash := state.hash.set address state.cells.size } ∧
      CopyState.Sound graph (fun other => other = address ∨ isOpen other) { state with
          cells := (state.cells.allocate (.object .empty)).1
          hash := state.hash.set address state.cells.size } := by
  have unused : ∀ other, state.hash.get? other ≠ some state.cells.size := by
    intro other known
    exact absurd (sound.clones known).2.1 (lt_irrefl _)
  obtain ⟨allocated, allocatedSound⟩ := sound.allocate (.empty _)
  obtain ⟨noted, notedSound⟩ := allocatedSound.note inside isObject
    ⟨sound.size, by simp, _, read_allocate_self _ _⟩ unused unknown
  exact ⟨allocated.trans (noted.mono allocated.grows), notedSound⟩

theorem write (sound : state.Sound graph isOpen)
    (known : state.hash.get? address = some clone) (opened : isOpen address)
    (fresh : GraphCell.Fresh graph.cells.size (.object fields)) :
    CopyStep clone state { state with cells := state.cells.write clone (.object fields) } ∧
      CopyState.Sound graph isOpen
        { state with cells := state.cells.write clone (.object fields) } := by
  obtain ⟨outside, inside, old, isObject⟩ := sound.clones known
  have step : CopyStep clone state
      { state with cells := state.cells.write clone (.object fields) } :=
    { hash := id
      arrays := by
        intro other items isArray
        by_cases same : other = clone
        · rw [same, isObject] at isArray
          cases isArray
        · rw [read_write_ne same]
          exact isArray
      keeps := .write (.refl _ _) (le_refl _) _
      grows := by simp }
  refine ⟨step, ?_⟩
  exact
    { kept := sound.kept.write outside _
      size := le_trans sound.size step.grows
      known := by
        intro other otherClone otherKnown
        obtain ⟨below, fields, isObject, filled⟩ := sound.known otherKnown
        refine ⟨below, fields, isObject, fun closed => ?_⟩
        -- Only the open object has this clone.
        have ne : otherClone ≠ clone := by
          intro same
          subst same
          exact closed (sound.injective known otherKnown ▸ opened)
        exact (filled closed).mono step (read_write_ne ne _)
      clones := by
        intro other otherClone otherKnown
        obtain ⟨outside, below, fields', isObject⟩ := sound.clones otherKnown
        refine ⟨outside, lt_of_lt_of_le below step.grows, ?_⟩
        by_cases same : otherClone = clone
        · subst same
          exact ⟨fields, read_write_self inside _⟩
        · exact ⟨fields', (read_write_ne same _).trans isObject⟩
      injective := sound.injective
      fresh := by
        intro other otherOutside
        by_cases same : other = clone
        · rw [same, read_write_self inside]
          exact fresh
        · rw [read_write_ne same]
          exact sound.fresh otherOutside }

theorem withPrototypes (sound : state.Sound graph isOpen)
    (prototypes : OrderedMap Nat (Option Nat)) :
    CopyStep state.cells.size state { state with prototypes } ∧
      CopyState.Sound graph isOpen { state with prototypes } := by
  have step : CopyStep state.cells.size state { state with prototypes } :=
    .of_keeps id (.refl _ _) (le_refl _)
  refine ⟨step, ?_⟩
  exact { sound with
      known := by
        intro address clone known
        obtain ⟨inside, fields, isObject, filled⟩ := sound.known known
        exact ⟨inside, fields, isObject, fun closed => (filled closed).mono step rfl⟩ }

variable {done : List (String × GraphValue)} {value copy : GraphValue}

theorem write_set (sound : state.Sound graph isOpen)
    (known : state.hash.get? address = some clone) (opened : isOpen address)
    (filled : Filled graph.cells state done clone) {key : String} (plain : key ≠ "__proto__")
    (unique : ∀ other, (key, other) ∈ done → other = value)
    (copied : Copied graph.cells state value copy)
    (isObject : state.cells.read clone = .object fields) :
    CopyStep clone state { state with
        cells := state.cells.write clone (.object (fields.set key copy)) } ∧
      CopyState.Sound graph isOpen { state with
        cells := state.cells.write clone (.object (fields.set key copy)) } ∧
      Filled graph.cells { state with
        cells := state.cells.write clone (.object (fields.set key copy)) }
        (done ++ [(key, value)]) clone := by
  obtain ⟨outside, inside, _⟩ := sound.clones known
  have old := sound.fresh outside
  rw [isObject] at old
  have fresh : GraphCell.Fresh graph.cells.size (.object (fields.set key copy)) :=
    { children := by
        intro child mem
        obtain ⟨entry, entryMem, same⟩ := mem_map.mp mem
        rw [← same]
        rcases mem_entries_set.mp entryMem with
          isNew | ⟨isOld, _⟩
        · rw [isNew]
          exact copied.isFresh sound
        · exact old.children _ (mem_map_of_mem isOld)
      plain := by
        intro changed same
        cases same
        rw [get?_set_ne _ _ plain]
        exact old.plain rfl }
  obtain ⟨step, after⟩ := sound.write known opened fresh
  refine ⟨step, after, _, read_write_self inside _, ?_, ?_⟩
  all_goals
    obtain ⟨before, isBefore, comes, goes⟩ := filled
    obtain rfl : fields = before := GraphCell.object.inj (isObject.symm.trans isBefore)
  · intro otherKey other held
    rw [get?_set] at held
    split at held
    case isTrue same =>
        subst same
        cases held
        exact ⟨plain, value, by simp, copied.mono step⟩
    case isFalse =>
        obtain ⟨otherPlain, source, mem, sourceCopied⟩ := comes otherKey other held
        exact ⟨otherPlain, source, mem_append_left _ mem, sourceCopied.mono step⟩
  · intro otherKey other mem otherPlain
    rcases mem_append.mp mem with isOld | isNew
    · by_cases same : key = otherKey
      · subst same
        rw [unique other isOld]
        exact ⟨copy, get?_set_self _ _ _, copied.mono step⟩
      · obtain ⟨otherCopy, held, otherCopied⟩ := goes otherKey other isOld otherPlain
        exact ⟨otherCopy, (get?_set_ne _ _ same).trans held, otherCopied.mono step⟩
    · obtain ⟨rfl, rfl⟩ := Prod.mk.inj (mem_singleton.mp isNew)
      exact ⟨copy, get?_set_self _ _ _, copied.mono step⟩

theorem assign (sound : state.Sound graph isOpen)
    (known : state.hash.get? address = some clone) (opened : isOpen address)
    (filled : Filled graph.cells state done clone) {key : String}
    (unique : ∀ other, (key, other) ∈ done → other = value)
    (copied : Copied graph.cells state value copy) {after : CopyState}
    (ok : state.assign clone key copy = .ok after) :
    CopyStep clone state after ∧ after.Sound graph isOpen ∧
      Filled graph.cells after (done ++ [(key, value)]) clone := by
  by_cases plain : key = "__proto__"
  · subst plain
    obtain ⟨prototypes, rfl⟩ := CopyState.assign_proto ok
    obtain ⟨step, after⟩ := sound.withPrototypes prototypes
    refine ⟨step.mono (le_of_lt (sound.clones known).2.1), after, ?_⟩
    obtain ⟨fields, isObject, comes, goes⟩ := filled.mono step rfl
    refine ⟨fields, isObject, ?_, ?_⟩
    · intro otherKey other held
      obtain ⟨otherPlain, source, mem, sourceCopied⟩ := comes otherKey other held
      exact ⟨otherPlain, source, mem_append_left _ mem, sourceCopied⟩
    · intro otherKey other mem otherPlain
      rcases mem_append.mp mem with isOld | isNew
      · exact goes otherKey other isOld otherPlain
      · obtain ⟨rfl, _⟩ := Prod.mk.inj (mem_singleton.mp isNew)
        exact absurd rfl otherPlain
  · obtain ⟨fields, isObject, _⟩ := id filled
    rw [CopyState.assign_field plain isObject] at ok
    cases ok
    exact sound.write_set known opened filled plain unique copied isObject

theorem close (sound : state.Sound graph fun other => other = address ∨ isOpen other)
    (isObject : graph.cells.read address = .object fields)
    (known : state.hash.get? address = some clone)
    (filled : Filled graph.cells state fields.entries clone) :
    state.Sound graph isOpen :=
  { sound with
    known := by
      intro other otherClone otherKnown
      obtain ⟨inside, otherFields, otherObject, otherFilled⟩ := sound.known otherKnown
      refine ⟨inside, otherFields, otherObject, fun closed => ?_⟩
      by_cases same : other = address
      · subst same
        obtain rfl := Option.some.inj (known.symm.trans otherKnown)
        obtain rfl := GraphCell.object.inj (isObject.symm.trans otherObject)
        exact filled
      · exact otherFilled fun opened => opened.elim same closed }

end CopyState.Sound

/-- What a call makes of a state. -/
structure CopySpec (graph : ValueGraph) (isOpen : Nat → Prop)
    (before : CopyState) (value : GraphValue) (after : CopyState)
    (copy : GraphValue) : Prop where
  step : CopyStep before.cells.size before after
  sound : after.Sound graph isOpen
  copied : Copied graph.cells after value copy

/-- The calls that copy parts meet their specification. -/
def MeetsSpec (graph : ValueGraph) (copy : CopyState → GraphValue →
    Except CopyError (CopyState × GraphValue)) : Prop :=
  ∀ {isOpen before value after result}, before.Sound graph isOpen → value.Below graph.cells.size →
    copy before value = .ok (after, result) →
    CopySpec graph isOpen before value after result

variable {copy : CopyState → GraphValue → Except CopyError (CopyState × GraphValue)}
  {before after : CopyState} {items copies : List GraphValue}

theorem copyItems_spec (meets : MeetsSpec graph copy) (sound : before.Sound graph isOpen)
    (below : ∀ item ∈ items, item.Below graph.cells.size)
    (ok : items.foldlM (copyItem copy) (before, []) = .ok (after, copies)) :
    CopyStep before.cells.size before after ∧ after.Sound graph isOpen ∧
      List.Forall₂ (Copied graph.cells after) items copies := by
  have general := @List.foldlM_invariant _ _ _ items (copyItem copy) (fun folded progress =>
      CopyStep before.cells.size before progress.1 ∧ progress.1.Sound graph isOpen ∧
        List.Forall₂ (Copied graph.cells progress.1) folded progress.2)
    ?_ [] _ _ ⟨.refl _ _, sound, .nil⟩ ok
  · simpa using general
  · intro folded progress item mem ⟨step, sound, related⟩ result copies
    obtain ⟨⟨state, clone⟩, copied, same⟩ := Except.bind_eq_ok_iff.mp copies
    cases same
    have spec := meets sound (below item mem) copied
    refine ⟨step.trans (spec.step.mono step.grows), spec.sound, ?_⟩
    exact rel_append (related.imp fun _ _ copied => copied.mono spec.step) (.cons spec.copied .nil)

structure FieldsCopied (graph : ValueGraph) (isOpen : Nat → Prop)
    (clone : Nat) (before : CopyState) (entries done : List (String × GraphValue))
    (state : CopyState) : Prop where
  step : CopyStep clone before state
  sound : state.Sound graph isOpen
  filled : Filled graph.cells state done clone
  inside : ∀ entry ∈ done, entry ∈ entries

variable {address : Nat} {fields : OrderedMap String GraphValue} {clone : Nat}

theorem copyField_spec (meets : MeetsSpec graph copy) (opened : isOpen address) {before : CopyState}
    (known : before.hash.get? address = some clone)
    {done : List (String × GraphValue)} {state : CopyState}
    (progress : FieldsCopied graph isOpen clone before fields.entries done
      state) {entry : String × GraphValue} (mem : entry ∈ fields.entries)
    (below : entry.2.Below graph.cells.size) {after : CopyState}
    (ok : copyField copy clone state entry = .ok after) :
    FieldsCopied graph isOpen clone before fields.entries (done ++ [entry])
      after := by
  obtain ⟨⟨middle, value⟩, copied, assigned⟩ := Except.bind_eq_ok_iff.mp ok
  have spec := meets progress.sound below copied
  have stateKnown := progress.step.hash known
  have cloneInside := (progress.sound.clones stateKnown).2.1
  have unique : ∀ other, (entry.1, other) ∈ done → other = entry.2 := by
    intro other otherMem
    have first := get?_eq_some_iff.mpr (progress.inside _ otherMem)
    have second := get?_eq_some_iff.mpr mem
    exact Option.some.inj (first.symm.trans second)
  obtain ⟨assignStep, assignSound, assignFilled⟩ :=
    spec.sound.assign (spec.step.hash stateKnown) opened
      (progress.filled.mono spec.step (spec.step.keeps clone cloneInside))
      unique spec.copied assigned
  refine ⟨?_, assignSound, assignFilled, ?_⟩
  · exact progress.step.trans ((spec.step.mono (le_of_lt cloneInside)).trans assignStep)
  · intro other otherMem
    rcases mem_append.mp otherMem with isOld | isNew
    · exact progress.inside other isOld
    · exact mem_singleton.mp isNew ▸ mem

theorem FieldsCopied.start {before : CopyState} (sound : before.Sound graph isOpen)
    (isEmpty : before.cells.read clone = .object .empty)
    (entries : List (String × GraphValue)) :
    FieldsCopied graph isOpen clone before entries [] before :=
  { step := .refl _ _
    sound := sound
    filled := ⟨_, isEmpty, by simp⟩
    inside := by simp }

theorem copyFields_spec (meets : MeetsSpec graph copy) (sound : before.Sound graph isOpen) (opened : isOpen address)
    (known : before.hash.get? address = some clone)
    (isEmpty : before.cells.read clone = .object .empty)
    (below : ∀ value ∈ fields.values, value.Below graph.cells.size)
    (ok : fields.ownEntries.foldlM (copyField copy clone) before = .ok after) :
    CopyStep clone before after ∧ after.Sound graph isOpen ∧
      Filled graph.cells after fields.entries clone := by
  have general := @List.foldlM_invariant _ _ _ fields.ownEntries (copyField copy clone)
    (FieldsCopied graph isOpen clone before fields.entries) ?_ [] _ _
    (.start sound isEmpty _) ok
  · obtain ⟨clones, isObject, comes, goes⟩ := general.filled
    refine ⟨general.step, general.sound, clones, isObject, ?_, ?_⟩
    · intro key copied held
      obtain ⟨plain, value, mem, isCopy⟩ := comes key copied held
      exact ⟨plain, value, mem_ownEntries.mp mem, isCopy⟩
    · intro key value mem
      exact goes key value (mem_ownEntries.mpr mem)
  · intro done state entry mem progress result copies
    have ownEntry := mem_ownEntries.mp mem
    exact copyField_spec meets opened known progress ownEntry
      (below _ (mem_values_of_mem_entries ownEntry)) copies

theorem copyArray_spec (meets : MeetsSpec graph copy)
    {before state : CopyState} (sound : before.Sound graph isOpen)
    (isArray : graph.cells.read address = .array items)
    (ok : items.foldlM (copyItem copy) (before, []) = .ok (state, copies)) :
    CopySpec graph isOpen before (.ref address)
      { state with cells := (state.cells.allocate (.array copies)).1 }
      (.ref state.cells.size) := by
  have below : ∀ item ∈ items, item.Below graph.cells.size := by
    intro item mem
    apply graph.closed_read address
    rw [isArray]
    exact mem
  obtain ⟨step, sound, related⟩ := copyItems_spec meets sound below ok
  have fresh : GraphCell.Fresh graph.cells.size (.array copies) :=
    { children := by
        intro child mem
        obtain ⟨index, inside, rfl⟩ := mem_iff_getElem.mp mem
        exact (related.get (related.length_eq ▸ inside) inside).isFresh sound
      plain := by
        intro fields same
        cases same }
  obtain ⟨allocated, after⟩ := sound.allocate fresh
  refine ⟨step.trans (allocated.mono step.grows), after, ?_⟩
  apply Copied.array isArray (read_allocate_self _ _) sound.size related.length_eq
  intro index item other itemHere otherHere
  obtain ⟨inside, rfl⟩ := List.getElem?_eq_some_iff.mp itemHere
  obtain ⟨otherInside, rfl⟩ := List.getElem?_eq_some_iff.mp otherHere
  exact (related.get inside otherInside).mono allocated

theorem copyObject_spec (meets : MeetsSpec graph copy) (sound : before.Sound graph isOpen)
    (inside : address < graph.cells.size)
    (unknown : before.hash.get? address = none)
    (isObject : graph.cells.read address = .object fields)
    (ok : fields.ownEntries.foldlM (copyField copy before.cells.size) { before with
        cells := (before.cells.allocate (.object .empty)).1
        hash := before.hash.set address before.cells.size } = .ok after) :
    CopySpec graph isOpen before (.ref address) after (.ref before.cells.size) := by
  have below : ∀ value ∈ fields.values, value.Below graph.cells.size := by
    intro value mem
    apply graph.closed_read address
    rw [isObject]
    exact mem
  obtain ⟨opening, openSound⟩ := sound.openObject inside isObject unknown
  obtain ⟨filling, filledSound, filled⟩ := copyFields_spec meets openSound
    (.inl rfl) (get?_set_self _ _ _)
    (read_allocate_self _ _) below ok
  have known := filling.hash (get?_set_self before.hash address before.cells.size)
  exact ⟨opening.trans filling, filledSound.close isObject known filled, .object known⟩

theorem meetsSpec_deepCopyFrom (graph : ValueGraph) (fuel : Nat) :
    MeetsSpec graph (deepCopyFrom fuel) := by
  have primitive : ∀ {fuel isOpen before value after result}, CopyState.Sound graph isOpen before →
      deepCopyFrom fuel before (.primitive value) = .ok (after, result) →
      CopySpec graph isOpen before (.primitive value) after result := by
    intro fuel isOpen before value after result sound ok
    rw [deepCopyFrom_primitive] at ok
    obtain ⟨rfl, rfl⟩ := Prod.mk.inj (Except.ok.inj ok)
    exact ⟨.refl _ _, sound, .primitive value⟩
  induction fuel with
  | zero =>
    intro isOpen before value after result sound below ok
    cases value with
    | primitive value => exact primitive sound ok
    | ref address => cases ok
  | succ fuel ih =>
    intro isOpen before value after result sound below ok
    cases value with
    | primitive value => exact primitive sound ok
    | ref address =>
      cases held : before.hash.get? address with
      | some clone =>
        rw [deepCopyFrom_known fuel held] at ok
        obtain ⟨rfl, rfl⟩ := Prod.mk.inj (Except.ok.inj ok)
        exact ⟨.refl _ _, sound, .object held⟩
      | none =>
        have kept := sound.kept address below
        cases isCell : graph.cells.read address with
        | array items =>
          rw [deepCopyFrom_array fuel held (kept.trans isCell)] at ok
          obtain ⟨progress, folds, same⟩ := Except.map_eq_ok_iff.mp ok
          obtain ⟨rfl, rfl⟩ := Prod.mk.inj same
          exact copyArray_spec ih sound isCell folds
        | object fields =>
          rw [deepCopyFrom_object fuel held (kept.trans isCell)] at ok
          obtain ⟨state, folds, same⟩ := Except.map_eq_ok_iff.mp ok
          obtain ⟨rfl, rfl⟩ := Prod.mk.inj same
          exact copyObject_spec ih sound below held isCell folds

end Copies

end N8n
