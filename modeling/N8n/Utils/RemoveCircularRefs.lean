import N8n.Library.OrderedSet
import N8n.Library.FoldExcept
import N8n.Utils.ValueGraph

/-!
# Removing circular references

`removeCircularRefs` goes through objects, and through arrays that are in an
object, and replaces what it has seen.  It does not go through arrays in
arrays, and what it has seen may be shared without being circular.
-/

namespace N8n

inductive RemovalError where
  | callStack

structure RemovalState where
  cells : GraphCells
  seen : List Nat

def circularReference : GraphCell :=
  .object (OrderedMap.empty.set "circularReference" (.primitive (.bool true)))

def isTraversableObject (cells : GraphCells) : GraphValue → Bool
  | .primitive _ => false
  | .ref address =>
    match cells.read address with
    | .object fields => fields.size != 0
    | .array _ => false

/-- A new mark takes the place of what a part holds. -/
def RemovalState.replace (state : RemovalState) (address : Nat) (part : Part) : RemovalState :=
  let (cells, mark) := state.cells.allocate circularReference
  { state with
    cells := cells.write address ((cells.read address).put part (.ref mark)) }

section Visits

variable (call : RemovalState → Nat → Except RemovalError RemovalState)

/-- The items are read when their turn comes, after changes that deeper calls
made to the array. -/
def visitItem (array : Nat) (state : RemovalState) (index : Nat) :
    Except RemovalError RemovalState :=
  match (state.cells.read array).get (.item index) with
  | some (.ref address) =>
    if address ∈ state.seen then
      .ok (state.replace array (.item index))
    else if isTraversableObject state.cells (.ref address) then
      call state address
    else
      .ok state
  | _ => .ok state

def visitEntry (object : Nat) (state : RemovalState)
    (entry : String × GraphValue) : Except RemovalError RemovalState :=
  match entry.2 with
  | .primitive _ => .ok state
  | .ref address =>
    if isTraversableObject state.cells (.ref address) then
      if address ∈ state.seen then
        .ok (state.replace object (.field entry.1))
      else
        call state address
    else
      match state.cells.read address with
      | .array items =>
        (List.range items.length).foldlM (visitItem call address) state
      | .object _ => .ok state

end Visits

/-- The fuel bounds the depth of the calls. -/
def removeCircularRefsFrom : Nat → RemovalState → Nat → Except RemovalError RemovalState
  | 0, _, _ => .error .callStack
  | fuel + 1, state, object =>
    match state.cells.read object with
    | .object fields =>
      fields.ownEntries.foldlM (visitEntry (removeCircularRefsFrom fuel) object)
        { state with seen := OrderedSet.add state.seen object }
    -- No call is made for an array.
    | .array _ => .ok state

structure ObjectGraph extends ValueGraph where
  start : Nat
  root_eq : root = .ref start
  isObject : (cells.read start).isArray = false

namespace ObjectGraph

def removeCircularRefs (graph : ObjectGraph) (fuel : Nat) : Except RemovalError RemovalState :=
  removeCircularRefsFrom fuel ⟨graph.cells, []⟩ graph.start

end ObjectGraph

/-! ## The ways of the traversal -/

abbrev CellSlot := Nat × Part

/-- A step of the traversal: out of an object by a field, or by an item of an
array in a field. -/
structure Visit where
  owner : Nat
  key : String
  index : Option Nat

namespace GraphCells

def content (cells : GraphCells) (slot : CellSlot) : Option GraphValue :=
  (cells.read slot.1).get slot.2

def slot (cells : GraphCells) (visit : Visit) : Option CellSlot :=
  match visit.index with
  | none => some (visit.owner, .field visit.key)
  | some index =>
    match cells.content (visit.owner, .field visit.key) with
    | some (.ref array) => some (array, .item index)
    | _ => none

structure Meets (cells : GraphCells) (visit : Visit) (slot : CellSlot)
    (target : Nat) : Prop where
  isSlot : cells.slot visit = some slot
  held : cells.content slot = some (.ref target)
  traversable : isTraversableObject cells (.ref target) = true

end GraphCells

def passed (way : List Visit) (object : Nat) : List Nat :=
  object :: way.map Visit.owner

namespace ObjectGraph

/-- A way of visits, the latest first, that passes no object twice. -/
inductive SimpleWay (graph : ObjectGraph) : List Visit → Nat → Prop where
  | root : SimpleWay graph [] graph.start
  | visit {way : List Visit} {visit : Visit} {slot : CellSlot} {target : Nat} :
      SimpleWay graph way visit.owner →
      graph.cells.Meets visit slot target →
      target ∉ passed way visit.owner →
      SimpleWay graph (visit :: way) target

variable (graph : ObjectGraph)

/-- The end of a simple way meets the target in the slot. -/
def MeetsOn (way : List Visit) (visit : Visit) (slot : CellSlot) (target : Nat) : Prop :=
  graph.SimpleWay way visit.owner ∧ graph.cells.Meets visit slot target

/-- Every simple way to the slot has passed what it holds. -/
def OnBackEdge (slot : CellSlot) : Prop :=
  (∃ way visit target, graph.MeetsOn way visit slot target) ∧
    ∀ way visit target, graph.MeetsOn way visit slot target → target ∈ passed way visit.owner

def OnlyBackEdges (state : RemovalState) : Prop :=
  ∀ slot : CellSlot, slot.1 < graph.cells.size → ¬ graph.OnBackEdge slot →
    state.cells.content slot = graph.cells.content slot

/-- The traversal ends, leaves no cycle and changes nothing but back edges. -/
def RemovesCircularRefs : Prop :=
  ∃ fuel state, graph.removeCircularRefs fuel = .ok state ∧
    (∀ value, state.cells.Reaches graph.root value →
      ¬ Relation.TransGen state.cells.Leads value value) ∧
    graph.OnlyBackEdges state

/-- What simple ways reach without coming back is reached by one way, and the
slot that holds it is not met from inside it. -/
def OnePlace : Prop :=
  ∀ {way visit slot target way' visit' slot'},
    graph.MeetsOn way visit slot target → target ∉ passed way visit.owner →
    graph.MeetsOn way' visit' slot' target →
    (visit' = visit ∧ way' = way) ∨ (target ∈ passed way' visit'.owner ∧ slot' ≠ slot)

/-- One step that is on no back edge. -/
def LeadsForward (value child : GraphValue) : Prop :=
  ∃ address part, value = .ref address ∧ graph.cells.content (address, part) = some child ∧
    ¬ graph.OnBackEdge (address, part)

def CyclesComeBack : Prop :=
  ∀ value, Relation.ReflTransGen graph.LeadsForward graph.root value →
    ¬ Relation.TransGen graph.LeadsForward value value

end ObjectGraph

end N8n
