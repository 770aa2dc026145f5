import Mathlib.Data.Finset.Card
import Mathlib.Order.RelClasses
import N8n.Library.FoldExcept
import N8n.Utils.ValueGraph

/-!
# Deep copies

`deepCopy` notes the clone of each object in `hash` before it copies the
fields.  It notes no arrays, so what is on a cycle through arrays only is
copied again and again.
-/

namespace N8n

inductive CopyError where
  | callStack
  | cyclicPrototype

/-- The heap with the clones, and the prototypes that assignments changed. -/
structure CopyState where
  cells : GraphCells
  hash : OrderedMap Nat Nat
  prototypes : OrderedMap Nat (Option Nat)

namespace CopyState

/-- The target is on the prototype chain that starts at the address. -/
def inherits (state : CopyState) (target : Nat) : Nat → Nat → Bool
  | 0, _ => false
  | links + 1, address =>
    address == target ||
      match state.prototypes.get? address with
      | some (some parent) => state.inherits target links parent
      | _ => false

/-- `clone[key] = value`.  The key `__proto__` changes the prototype. -/
def assign (state : CopyState) (clone : Nat) (key : String)
    (value : GraphValue) : Except CopyError CopyState :=
  if key = "__proto__" then
    match value with
    | .primitive .null =>
      .ok { state with prototypes := state.prototypes.set clone none }
    | .primitive _ => .ok state
    | .ref parent =>
      if state.inherits clone state.cells.size parent then
        .error .cyclicPrototype
      else
        .ok { state with
          prototypes := state.prototypes.set clone (some parent) }
  else
    match state.cells.read clone with
    | .object fields =>
      .ok { state with
        cells := state.cells.write clone (.object (fields.set key value)) }
    | .array _ => .ok state

theorem assign_proto {state after : CopyState} {clone : Nat} {value : GraphValue}
    (ok : state.assign clone "__proto__" value = .ok after) :
    ∃ prototypes, after = { state with prototypes } := by
  unfold assign at ok
  rw [if_pos rfl] at ok
  split at ok
  · exact ⟨_, (Except.ok.inj ok).symm⟩
  · exact ⟨_, (Except.ok.inj ok).symm⟩
  · split at ok
    · cases ok
    · exact ⟨_, (Except.ok.inj ok).symm⟩

theorem assign_field {state : CopyState} {clone : Nat} {key : String}
    (plain : key ≠ "__proto__") {fields : OrderedMap String GraphValue}
    (isObject : state.cells.read clone = .object fields) (value : GraphValue) :
    state.assign clone key value = .ok { state with
      cells := state.cells.write clone (.object (fields.set key value)) } := by
  unfold assign
  rw [if_neg plain, isObject]

end CopyState

section CopySteps

variable (copy : CopyState → GraphValue → Except CopyError (CopyState × GraphValue))

def copyItem (progress : CopyState × List GraphValue) (item : GraphValue) :
    Except CopyError (CopyState × List GraphValue) := do
  let (state, clone) ← copy progress.1 item
  return (state, progress.2 ++ [clone])

def copyField (clone : Nat) (state : CopyState)
    (entry : String × GraphValue) : Except CopyError CopyState := do
  let (state, value) ← copy state entry.2
  state.assign clone entry.1 value

end CopySteps

/-- The fuel bounds the depth of the calls. -/
def deepCopyFrom : Nat → CopyState → GraphValue → Except CopyError (CopyState × GraphValue)
  | _, state, .primitive value => .ok (state, .primitive value)
  | 0, _, .ref _ => .error .callStack
  | fuel + 1, state, .ref address =>
    match state.hash.get? address with
    | some clone => .ok (state, .ref clone)
    | none =>
      match state.cells.read address with
      | .array items => do
        -- Nothing refers to the clone of an array before it is complete.
        let (state, copies) ← items.foldlM (copyItem (deepCopyFrom fuel)) (state, [])
        let (cells, clone) := state.cells.allocate (.array copies)
        return ({ state with cells }, .ref clone)
      | .object fields => do
        let (cells, clone) := state.cells.allocate (.object .empty)
        let state ← fields.ownEntries.foldlM (copyField (deepCopyFrom fuel) clone)
          { state with cells, hash := state.hash.set address clone }
        return (state, .ref clone)

section Equations

variable {state : CopyState} {address : Nat} (fuel : Nat)

@[simp] theorem deepCopyFrom_primitive (state : CopyState) (value : Primitive) :
    deepCopyFrom fuel state (.primitive value) = .ok (state, .primitive value) := by
  cases fuel with
  | zero => rfl
  | succ fuel => rfl

theorem deepCopyFrom_known {clone : Nat} (known : state.hash.get? address = some clone) :
    deepCopyFrom (fuel + 1) state (.ref address) = .ok (state, .ref clone) := by
  simp [deepCopyFrom, known]

theorem deepCopyFrom_array (unknown : state.hash.get? address = none) {items : List GraphValue}
    (isArray : state.cells.read address = .array items) :
    deepCopyFrom (fuel + 1) state (.ref address) =
      (items.foldlM (copyItem (deepCopyFrom fuel)) (state, [])).map
        fun progress => ({ progress.1 with
          cells := (progress.1.cells.allocate (.array progress.2)).1 },
          .ref progress.1.cells.size) := by
  simp only [deepCopyFrom, unknown, isArray]
  rfl

theorem deepCopyFrom_object (unknown : state.hash.get? address = none)
    {fields : OrderedMap String GraphValue}
    (isObject : state.cells.read address = .object fields) :
    deepCopyFrom (fuel + 1) state (.ref address) = (fields.ownEntries.foldlM
        (copyField (deepCopyFrom fuel) state.cells.size) { state with
          cells := (state.cells.allocate (.object .empty)).1
          hash := state.hash.set address state.cells.size }).map
        fun state' => (state', .ref state.cells.size) := by
  simp only [deepCopyFrom, unknown, isObject]
  rfl

end Equations

namespace ValueGraph

variable (graph : ValueGraph)

def copyStart : CopyState :=
  { cells := graph.cells
    hash := .empty
    prototypes := .empty }

def deepCopy (fuel : Nat) : Except CopyError (CopyState × GraphValue) :=
  deepCopyFrom fuel graph.copyStart graph.root

/-- The copy is complete at some depth of calls, unfolds to the same tree,
shares nothing with the graph and leaves the graph as it was. -/
def DeepCopies : Prop :=
  ∃ fuel state copy, graph.deepCopy fuel = .ok (state, copy) ∧
    SameTree graph.cells state.cells graph.root copy ∧
    (∀ address, state.cells.Reaches copy (.ref address) → graph.cells.size ≤ address) ∧
    graph.cells.KeepsBelow graph.cells.size state.cells

end ValueGraph

end N8n
