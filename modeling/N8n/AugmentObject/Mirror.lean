import N8n.AugmentObject.AugmentObject

/-!
# The copy behind the proxies

A heap with proxies mirrors a heap without them when each object of the copy
is what the proxy in front of the original stands for.  Hidden objects are
reached through proxies only, form a forest and are never changed.
-/

namespace N8n

open List JsValue

namespace Heap

section

variable (heap : Heap)

def targets : List Nat := heap.proxies.map AugmentedProxy.target

def targetOf (index : Nat) : Nat := heap.targets.getD index 0

def proxyShape : AugmentedProxy → Shape
  | .object target newData deletedProperties =>
    { length := none
      look := fun key =>
        if key ∈ deletedProperties then none
        else (newData.get? key).or ((heap.objectAt target).properties.get? key) }
  | .array target newData => (newData.getD (heap.objectAt target)).shape

/-- What is behind an address: what its proxy stands for, if it has one. -/
def shapeAt (address : Nat) : Shape :=
  match heap.proxies.find? (·.target = address) with
  | some proxy => heap.proxyShape proxy
  | none => (heap.objectAt address).shape

end

section Hidden

variable (hidden : Nat → Prop)

/-- A value that may be read: no reference to a hidden object. -/
def Visible (heap : Heap) : JsValue → Prop
  | .object (.plain address) => address < heap.plain.length ∧ ¬ hidden address
  | .object (.proxy index) => index < heap.proxies.length
  | _ => True

/-- A nested object of a hidden one that has not been read. -/
structure Unread (heap : Heap) (address : Nat) (key : String)
    (value : JsValue) : Prop where
  parent : hidden address
  child : ∃ child, value = .object (.plain child) ∧ hidden child ∧ child ∉ heap.targets
  held : (heap.objectAt address).properties.get? key = some value

/-- The hidden objects form a forest, and their arrays have no holes. -/
structure Forest (heap : Heap) : Prop where
  bound : ∀ address, hidden address → address < heap.plain.length
  inner : ∀ address key ref, hidden address →
    (heap.objectAt address).properties.get? key = some (.object ref) →
    ∃ child, ref = .plain child ∧ hidden child
  unique : ∀ first second firstKey secondKey child, hidden first → hidden second →
    (heap.objectAt first).properties.get? firstKey = some (.object (.plain child)) →
    (heap.objectAt second).properties.get? secondKey = some (.object (.plain child)) →
    first = second ∧ firstKey = secondKey
  dense : ∀ address, hidden address → (heap.objectAt address).length.isSome = true →
    (heap.objectAt address).spread.shape = (heap.objectAt address).shape

/-- In front of an object, what was written is visible, and no inherited name
is deleted.  In front of an array, each object of its own is hidden. -/
def WellKept (heap : Heap) : AugmentedProxy → Prop
  | .object _ newData deletedProperties =>
    (∀ key value, newData.get? key = some value → Visible hidden heap value) ∧
    ∀ key ∈ deletedProperties, inherited false key = none
  | .array _ newData =>
    ∀ data, newData = some data → data.length.isSome = true ∧
      ∀ key address, data.properties.get? key = some (.object (.plain address)) → hidden address

/-- The copy has at each address what is behind it in the heap. -/
structure Mirrors (heap copy : Heap) : Prop where
  sizes : copy.plain.length = heap.plain.length
  shapes : ∀ address, (copy.objectAt address).shape =
    (heap.shapeAt address).map (unwrap heap.targetOf)
  forest : Forest hidden heap
  targets : ∀ proxy ∈ heap.proxies, hidden proxy.target ∧
    proxy.isArray = (heap.objectAt proxy.target).length.isSome
  once : heap.targets.Nodup
  kept : ∀ proxy ∈ heap.proxies, WellKept hidden heap proxy

/-- What is behind each address is visible or unread, apart from the addresses
that are just being worked on. -/
def Slots (heap : Heap) (opened : Nat → Prop) : Prop :=
  ∀ address key value, ¬ opened address → (heap.shapeAt address).look key = some value →
    Visible hidden heap value ∨ Unread hidden heap address key value

/-- The heap mirrors the copy, and no address is worked on. -/
structure Related (heap copy : Heap) : Prop where
  mirrors : Mirrors hidden heap copy
  slots : Slots hidden heap fun _ => False

end Hidden

/-- Hidden objects stay as they are, and proxies keep their targets. -/
structure Grows (hidden later : Nat → Prop) (heap grown : Heap) : Prop where
  plain : heap.plain.length ≤ grown.plain.length
  proxies : heap.proxies.length ≤ grown.proxies.length
  targets : ∀ index < heap.proxies.length, grown.targetOf index = heap.targetOf index
  hides : ∀ address, hidden address → later address
  exposes : ∀ address < heap.plain.length, later address → hidden address
  unchanged : ∀ address, hidden address → grown.objectAt address = heap.objectAt address

namespace Grows

variable {hidden later last : Nat → Prop} {heap grown final : Heap} {value : JsValue}

theorem refl (hidden : Nat → Prop) (heap : Heap) : Grows hidden hidden heap heap := by
  constructor <;> simp

theorem trans (first : Grows hidden later heap grown) (second : Grows later last grown final) :
    Grows hidden last heap final := by
  constructor
  · exact first.plain.trans second.plain
  · exact first.proxies.trans second.proxies
  · intro index bound
    rw [second.targets index (bound.trans_le first.proxies), first.targets index bound]
  · intro address isHidden
    exact second.hides address (first.hides address isHidden)
  · intro address bound isHidden
    exact first.exposes address bound (second.exposes address (bound.trans_le first.plain) isHidden)
  · intro address isHidden
    rw [second.unchanged address (first.hides address isHidden), first.unchanged address isHidden]

theorem visible (grows : Grows hidden later heap grown)
    (seen : Visible hidden heap value) : Visible later grown value := by
  cases value with
  | object ref =>
    cases ref with
    | plain address =>
      obtain ⟨bound, exposed⟩ := seen
      exact ⟨bound.trans_le grows.plain, fun isHidden =>
        exposed (grows.exposes address bound isHidden)⟩
    | proxy index => exact Nat.lt_of_lt_of_le seen grows.proxies
  | _ => exact seen

theorem unwrap (grows : Grows hidden later heap grown) (seen : Visible hidden heap value) :
    value.unwrap grown.targetOf = value.unwrap heap.targetOf := by
  cases value with
  | object ref =>
    cases ref with
    | plain address => rfl
    | proxy index =>
      rw [unwrap, unwrap, grows.targets index seen]
  | _ => rfl

theorem wellKept (grows : Grows hidden later heap grown)
    {proxy : AugmentedProxy} (kept : WellKept hidden heap proxy) :
    WellKept later grown proxy := by
  cases proxy with
  | object target newData deletedProperties =>
    exact ⟨fun key value found => grows.visible (kept.1 key value found), kept.2⟩
  | array target newData =>
    intro data isData
    obtain ⟨isArray, children⟩ := kept data isData
    exact ⟨isArray, fun key address found =>
      grows.hides address (children key address found)⟩

end Grows

section Proxies

variable {heap copy : Heap} {proxy : AugmentedProxy} {index : Nat}

theorem find?_target {proxies : List AugmentedProxy}
    (once : (proxies.map AugmentedProxy.target).Nodup) (mem : proxy ∈ proxies) :
    proxies.find? (·.target = proxy.target) = some proxy := by
  induction proxies with
  | nil => cases mem
  | cons first rest ih =>
    rw [map_cons, nodup_cons] at once
    rcases mem_cons.mp mem with same | later
    · subst first
      simp
    · have ne : first.target ≠ proxy.target := by
        intro equal
        apply once.1
        rw [equal]
        exact mem_map_of_mem later
      rw [find?_cons_of_neg (by simpa using ne)]
      exact ih once.2 later

theorem shapeAt_target (once : heap.targets.Nodup) (mem : proxy ∈ heap.proxies) :
    heap.shapeAt proxy.target = heap.proxyShape proxy := by
  rw [shapeAt, find?_target once mem]

theorem shapeAt_of_not_targeted {address : Nat} (untouched : address ∉ heap.targets) :
    heap.shapeAt address = (heap.objectAt address).shape := by
  have absent : heap.proxies.find? (·.target = address) = none := by
    rw [find?_eq_none]
    intro proxy mem
    have ne : proxy.target ≠ address := fun same =>
      untouched (mem_map.mpr ⟨proxy, mem, same⟩)
    simpa using ne
  rw [shapeAt, absent]

theorem targetOf_eq (found : heap.proxies[index]? = some proxy) :
    heap.targetOf index = proxy.target := by
  rw [targetOf, targets, getD_eq_getElem?_getD, getElem?_map, found]
  rfl

variable {changed : AugmentedProxy}

theorem targets_putProxy (found : heap.proxies[index]? = some proxy)
    (same : changed.target = proxy.target) :
    (heap.putProxy index changed).targets = heap.targets := by
  have bound : index < heap.proxies.length := (List.getElem?_eq_some_iff.mp found).1
  apply List.ext_getElem?
  intro position
  simp only [targets, putProxy, map_set, same, getElem?_set,
    length_map, bound, if_true, getElem?_map]
  split
  next isIndex =>
    subst position
    rw [found]
    rfl
  · rfl

theorem targetOf_putProxy (found : heap.proxies[index]? = some proxy)
    (same : changed.target = proxy.target) :
    (heap.putProxy index changed).targetOf = heap.targetOf := by
  funext position
  rw [targetOf, targets_putProxy found same, targetOf]

theorem proxyShape_putProxy {changed other : AugmentedProxy} :
    (heap.putProxy index changed).proxyShape other = heap.proxyShape other := by
  cases other <;> rfl

theorem grows_putProxy {hidden : Nat → Prop} (found : heap.proxies[index]? = some proxy)
    (same : changed.target = proxy.target) :
    Grows hidden hidden heap (heap.putProxy index changed) := by
  constructor
  · exact Nat.le_refl _
  · simp [putProxy]
  · intro other _
    rw [targetOf_putProxy found same]
  · intro address isHidden
    exact isHidden
  · intro address _ isHidden
    exact isHidden
  · intro address _
    rfl

theorem shapeAt_putProxy (once : heap.targets.Nodup) (found : heap.proxies[index]? = some proxy)
    (same : changed.target = proxy.target) (address : Nat) :
    (heap.putProxy index changed).shapeAt address =
      if address = proxy.target then heap.proxyShape changed
      else heap.shapeAt address := by
  obtain ⟨bound, here⟩ := List.getElem?_eq_some_iff.mp found
  have onceAfter : (heap.putProxy index changed).targets.Nodup := by
    rw [targets_putProxy found same]
    exact once
  by_cases isTarget : address = proxy.target
  · have mem : changed ∈ (heap.putProxy index changed).proxies := mem_set bound changed
    rw [if_pos isTarget, isTarget, ← same, shapeAt_target onceAfter mem]
    exact proxyShape_putProxy
  · rw [if_neg isTarget]
    by_cases targeted : address ∈ heap.targets
    · obtain ⟨other, otherMem, rfl⟩ := mem_map.mp targeted
      have ne : other ≠ proxy := fun equal =>
        isTarget (congrArg AugmentedProxy.target equal)
      obtain ⟨position, otherBound, there⟩ := mem_iff_getElem.mp otherMem
      have elsewhere : index ≠ position := by
        intro equal
        subst position
        exact ne (there.symm.trans here)
      have kept : other ∈ (heap.putProxy index changed).proxies := by
        apply mem_iff_getElem?.mpr
        exact ⟨position, by
          rw [putProxy, getElem?_set_ne elsewhere]
          exact List.getElem?_eq_some_iff.mpr ⟨otherBound, there⟩⟩
      rw [shapeAt_target onceAfter kept, shapeAt_target once otherMem]
      exact proxyShape_putProxy
    · have untouched : address ∉ (heap.putProxy index changed).targets := by
        rw [targets_putProxy found same]
        exact targeted
      rw [shapeAt_of_not_targeted untouched, shapeAt_of_not_targeted targeted]
      rfl

end Proxies

section Frame

variable {hidden : Nat → Prop} {heap copy changedCopy : Heap}
  {proxy changed : AugmentedProxy} {index : Nat} {opened : Nat → Prop}

theorem Unread.putProxy {address : Nat} {key : String} {value : JsValue}
    (found : heap.proxies[index]? = some proxy)
    (same : changed.target = proxy.target)
    (unread : Unread hidden heap address key value) :
    Unread hidden (heap.putProxy index changed) address key value := by
  obtain ⟨child, isChild, childHidden, untouched⟩ := unread.child
  refine ⟨unread.parent, ⟨child, isChild, childHidden, ?_⟩, unread.held⟩
  rw [targets_putProxy found same]
  exact untouched

theorem Mirrors.putProxy (mirrors : Mirrors hidden heap copy)
    (slots : Slots hidden heap opened) (found : heap.proxies[index]? = some proxy)
    (same : changed.target = proxy.target) (kind : changed.isArray = proxy.isArray)
    (kept : WellKept hidden heap changed)
    (values : ∀ key value, (heap.proxyShape changed).look key = some value →
      Visible hidden heap value ∨ Unread hidden heap proxy.target key value)
    (only : ∀ address, opened address → address = proxy.target)
    (sizes : changedCopy.plain.length = copy.plain.length)
    (shapes : ∀ address, (changedCopy.objectAt address).shape =
      if address = proxy.target then
        (heap.proxyShape changed).map (unwrap heap.targetOf)
      else (copy.objectAt address).shape) :
    Related hidden (heap.putProxy index changed) changedCopy := by
  have mem : proxy ∈ heap.proxies := mem_of_getElem? found
  have behind := shapeAt_putProxy mirrors.once found same
  constructor
  · constructor
    · exact sizes.trans mirrors.sizes
    · intro address
      rw [shapes, behind, targetOf_putProxy found same]
      split
      · rfl
      · exact mirrors.shapes address
    · obtain ⟨bound, inner, unique, dense⟩ := mirrors.forest
      exact ⟨bound, inner, unique, dense⟩
    · intro other otherMem
      rcases mem_or_eq_of_mem_set otherMem with old | new
      · exact mirrors.targets other old
      · subst other
        rw [same, kind]
        exact mirrors.targets proxy mem
    · rw [targets_putProxy found same]
      exact mirrors.once
    · intro other otherMem
      rcases mem_or_eq_of_mem_set otherMem with old | new
      · exact (grows_putProxy found same).wellKept (mirrors.kept other old)
      · subst other
        exact (grows_putProxy found same).wellKept kept
  · intro address key value _ held
    rw [behind] at held
    have old : Visible hidden heap value ∨ Unread hidden heap address key value := by
      split at held
      next isTarget =>
        subst address
        exact values key value held
      next elsewhere =>
        exact slots address key value (fun isOpened => elsewhere (only address isOpened)) held
    rcases old with visible | unread
    · exact .inl ((grows_putProxy found same).visible visible)
    · exact .inr (unread.putProxy found same)

end Frame

section Added

variable {hidden : Nat → Prop} {heap copy : Heap} {proxy : AugmentedProxy}

theorem targets_addProxy : (heap.addProxy proxy).targets = heap.targets ++ [proxy.target] := by
  simp [targets, addProxy]

theorem targetOf_addProxy {index : Nat} (bound : index < heap.proxies.length) :
    (heap.addProxy proxy).targetOf index = heap.targetOf index := by
  have here : index < heap.targets.length := by simpa [targets] using bound
  rw [targetOf, targets_addProxy, targetOf, getD_eq_getElem?_getD,
    getElem?_append_left here, getD_eq_getElem?_getD]

theorem targetOf_added (heap : Heap) (proxy : AugmentedProxy) :
    (heap.addProxy proxy).targetOf heap.proxies.length = proxy.target := by
  have found : (heap.addProxy proxy).proxies[heap.proxies.length]? =
      some proxy := by simp [addProxy]
  exact targetOf_eq found

theorem grows_addProxy : Grows hidden hidden heap (heap.addProxy proxy) := by
  constructor
  · exact Nat.le_refl _
  · simp [Heap.addProxy]
  · intro index bound
    exact targetOf_addProxy bound
  · intro address isHidden
    exact isHidden
  · intro address _ isHidden
    exact isHidden
  · intro address _
    rfl

section

variable (address : Nat)

theorem target_proxyFor : (heap.proxyFor address).target = address := by
  rw [proxyFor]
  split <;> rfl

theorem isArray_proxyFor : (heap.proxyFor address).isArray =
      (heap.objectAt address).length.isSome := by
  rw [proxyFor]
  split
  next isArray =>
    exact isArray.symm
  next isObject =>
    exact (Bool.eq_false_iff.mpr isObject).symm

theorem proxyShape_proxyFor : heap.proxyShape (heap.proxyFor address) =
      (heap.objectAt address).shape := by
  rw [proxyFor]
  split
  · rfl
  next isObject =>
    have noLength : (heap.objectAt address).length = none := by
      simpa using isObject
    simp [proxyShape, PlainObject.shape, noLength]

theorem wellKept_proxyFor : WellKept hidden heap (heap.proxyFor address) := by
  rw [proxyFor]
  split
  · intro data absent
    cases absent
  · constructor
    · intro key value found
      simp at found
    · simp

end

theorem shapeAt_addProxyFor (target address : Nat) :
    (heap.addProxy (heap.proxyFor target)).shapeAt address = heap.shapeAt address := by
  have same : ∀ proxy, (heap.addProxy (heap.proxyFor target)).proxyShape proxy =
      heap.proxyShape proxy := fun proxy => by cases proxy <;> rfl
  rw [shapeAt, shapeAt, addProxy, find?_append]
  cases found : heap.proxies.find? (·.target = address) with
  | some proxy => exact same proxy
  | none =>
    by_cases isTarget : target = address
    · subst address
      have here : [heap.proxyFor target].find? (·.target = target) =
          some (heap.proxyFor target) := by
        simp [target_proxyFor]
      rw [here]
      exact (same _).trans (proxyShape_proxyFor target)
    · have absent : [heap.proxyFor target].find? (·.target = address) =
          none := by
        simp [target_proxyFor, isTarget]
      rw [absent]
      rfl

/-- A proxy is put in front of a hidden object.  The places that hold the
object itself are open from then on. -/
theorem Related.addProxy {target : Nat} {holder : Nat → Prop}
    (related : Related hidden heap copy) (isHidden : hidden target)
    (untouched : target ∉ heap.targets)
    (only : ∀ address key, (heap.shapeAt address).look key =
      some (.object (.plain target)) → holder address) :
    Mirrors hidden (heap.addProxy (heap.proxyFor target)) copy ∧
      Slots hidden (heap.addProxy (heap.proxyFor target)) holder := by
  have slots := related.slots
  have mirrors := related.mirrors
  have behind : ∀ address, _ = heap.shapeAt address := shapeAt_addProxyFor target
  constructor
  · constructor
    · exact mirrors.sizes
    · intro address
      rw [behind, mirrors.shapes, Shape.map, Shape.map]
      congr 1
      funext key
      cases held : (heap.shapeAt address).look key with
      | none => rfl
      | some value =>
        apply congrArg some
        rcases slots address key value id held with visible | unread
        · exact (grows_addProxy.unwrap visible).symm
        · obtain ⟨child, isChild, _⟩ := unread.child
          rw [isChild]
          rfl
    · obtain ⟨bound, inner, unique, dense⟩ := mirrors.forest
      exact ⟨bound, inner, unique, dense⟩
    · intro proxy mem
      rcases mem_append.mp mem with old | new
      · exact mirrors.targets proxy old
      · obtain rfl := mem_singleton.mp new
        rw [target_proxyFor]
        exact ⟨isHidden, isArray_proxyFor target⟩
    · rw [targets_addProxy, target_proxyFor]
      exact nodup_append.mpr ⟨mirrors.once, nodup_singleton target, by
          intro old oldMem new newMem equal
          obtain rfl := mem_singleton.mp newMem
          exact untouched (equal ▸ oldMem)⟩
    · intro proxy mem
      rcases mem_append.mp mem with old | new
      · exact grows_addProxy.wellKept (mirrors.kept proxy old)
      · obtain rfl := mem_singleton.mp new
        exact grows_addProxy.wellKept (wellKept_proxyFor target)
  · intro address key value closed held
    rw [behind] at held
    rcases slots address key value id held with visible | unread
    · exact .inl (grows_addProxy.visible visible)
    · obtain ⟨child, isChild, childHidden, childUntouched⟩ := unread.child
      refine .inr ⟨unread.parent, ⟨child, isChild, childHidden, ?_⟩, unread.held⟩
      rw [targets_addProxy, target_proxyFor, mem_append]
      rintro (old | new)
      · exact childUntouched old
      · obtain rfl := mem_singleton.mp new
        subst isChild
        exact closed (only address key held)

end Added

section Exposed

variable {hidden : Nat → Prop} {heap copy : Heap} {address : Nat} {object changed : PlainObject}

theorem objectAt_putObject (bound : address < heap.plain.length)
    (other : Nat) : (heap.putObject address object).objectAt other =
      if other = address then object else heap.objectAt other := by
  simp only [objectAt, putObject, getD_eq_getElem?_getD, getElem?_set]
  by_cases same : address = other
  · subst other
    simp [bound]
  · simp [same, Ne.symm same]

theorem not_targeted_of_exposed (mirrors : Mirrors hidden heap copy)
    (exposed : ¬ hidden address) : address ∉ heap.targets := by
  intro targeted
  obtain ⟨proxy, mem, rfl⟩ := mem_map.mp targeted
  exact exposed (mirrors.targets proxy mem).1

theorem grows_putObject (bound : address < heap.plain.length) (exposed : ¬ hidden address) :
    Grows hidden hidden heap (heap.putObject address object) := by
  constructor
  · simp [Heap.putObject]
  · exact Nat.le_refl _
  · intro index _
    rfl
  · intro other isHidden
    exact isHidden
  · intro other _ isHidden
    exact isHidden
  · intro other isHidden
    have elsewhere : other ≠ address := fun same => exposed (same ▸ isHidden)
    rw [objectAt_putObject bound, if_neg elsewhere]

theorem proxyShape_putObject {proxy : AugmentedProxy}
    (bound : address < heap.plain.length) (elsewhere : proxy.target ≠ address) :
    (heap.putObject address object).proxyShape proxy = heap.proxyShape proxy := by
  have kept : (heap.putObject address object).objectAt proxy.target =
      heap.objectAt proxy.target := by
    rw [objectAt_putObject bound, if_neg elsewhere]
  cases proxy with
  | object target newData deletedProperties | array target newData =>
    simp only [AugmentedProxy.target] at kept
    simp only [proxyShape, kept]

theorem Related.putObject (related : Related hidden heap copy)
    (bound : address < heap.plain.length) (exposed : ¬ hidden address)
    (values : ∀ key value, object.properties.get? key = some value → Visible hidden heap value)
    (shape : changed.shape = object.shape.map (unwrap heap.targetOf)) :
    Related hidden (heap.putObject address object) (copy.putObject address changed) := by
  have mirrors := related.mirrors
  have elsewhere : ∀ other, hidden other → other ≠ address := by
    intro other isHidden same
    exact exposed (same ▸ isHidden)
  have grows : Grows hidden hidden heap (heap.putObject address object) :=
    grows_putObject bound exposed
  have kept := grows.unchanged
  have sameTargets : (heap.putObject address object).targets = heap.targets := rfl
  have behind : ∀ other, (heap.putObject address object).shapeAt other =
      if other = address then object.shape else heap.shapeAt other := by
    intro other
    by_cases targeted : other ∈ heap.targets
    · obtain ⟨proxy, mem, rfl⟩ := mem_map.mp targeted
      have away := elsewhere _ (mirrors.targets proxy mem).1
      have before := shapeAt_target mirrors.once mem
      have after : (heap.putObject address object).shapeAt proxy.target =
          (heap.putObject address object).proxyShape proxy :=
        shapeAt_target (sameTargets ▸ mirrors.once) mem
      rw [if_neg away, after, before]
      exact proxyShape_putObject bound away
    · rw [shapeAt_of_not_targeted targeted, shapeAt_of_not_targeted (sameTargets ▸ targeted),
        objectAt_putObject bound]
      split <;> rfl
  constructor
  · constructor
    · simpa [Heap.putObject] using mirrors.sizes
    · intro other
      have copyBound : address < copy.plain.length := mirrors.sizes ▸ bound
      rw [behind, objectAt_putObject copyBound]
      split
      · exact shape
      · exact mirrors.shapes other
    · obtain ⟨forestBound, inner, unique, dense⟩ := mirrors.forest
      constructor
      · intro other isHidden
        simpa [Heap.putObject] using forestBound other isHidden
      · intro other key ref isHidden held
        rw [kept other isHidden] at held
        exact inner other key ref isHidden held
      · intro first second firstKey secondKey child firstHidden secondHidden firstHeld secondHeld
        rw [kept first firstHidden] at firstHeld
        rw [kept second secondHidden] at secondHeld
        exact unique first second firstKey secondKey child firstHidden
          secondHidden firstHeld secondHeld
      · intro other isHidden isArray
        rw [kept other isHidden] at isArray ⊢
        exact dense other isHidden isArray
    · intro proxy mem
      obtain ⟨isHidden, kind⟩ := mirrors.targets proxy mem
      rw [kept _ isHidden]
      exact ⟨isHidden, kind⟩
    · exact mirrors.once
    · intro proxy mem
      exact grows.wellKept (mirrors.kept proxy mem)
  · intro other key value _ held
    rw [behind] at held
    split at held
    · exact .inl (grows.visible (values key value held))
    · rcases related.slots other key value id held with visible | unread
      · exact .inl (grows.visible visible)
      · refine .inr ⟨unread.parent, unread.child, ?_⟩
        rw [kept other unread.parent]
        exact unread.held

end Exposed

end Heap

end N8n
