import Mathlib.Algebra.Order.Ring.Rat
import Mathlib.Data.List.Forall2
import Mathlib.Logic.Relation
import N8n.Library.ObjectStore
import N8n.Library.OrderedMap

/-!
# Value graphs

Plain objects and arrays refer to each other by their addresses, with any
sharing and any cycles.  Two values are the same tree if a relation between
values, which holds of them, is kept by each step into them.
-/

namespace N8n

open OrderedMap List

inductive Primitive where
  | undefined
  | null
  | bool (value : Bool)
  | number (value : Rat)
  | string (value : String)
  | bigint (value : Int)
  | symbol (index : Nat)
deriving DecidableEq

inductive GraphValue where
  | primitive (value : Primitive)
  | ref (address : Nat)
deriving DecidableEq

/-- A plain object with its own fields, or an array. -/
inductive GraphCell where
  | object (fields : OrderedMap String GraphValue)
  | array (items : List GraphValue)

instance : Inhabited GraphCell := ⟨.object .empty⟩

abbrev GraphCells := ObjectStore GraphCell

def GraphCell.children : GraphCell → List GraphValue
  | .object fields => fields.values
  | .array items => items

/-- A field of an object or an item of an array. -/
inductive Part where
  | field (key : String)
  | item (index : Nat)
deriving DecidableEq

namespace GraphCell

def get : GraphCell → Part → Option GraphValue
  | .object fields, .field key => fields.get? key
  | .array items, .item index => items[index]?
  | _, _ => none

def put : GraphCell → Part → GraphValue → GraphCell
  | .object fields, .field key, value => .object (fields.set key value)
  | .array items, .item index, value => .array (items.set index value)
  | cell, _, _ => cell

def isArray : GraphCell → Bool
  | .object _ => false
  | .array _ => true

theorem mem_children {cell : GraphCell} {child : GraphValue} :
    child ∈ cell.children ↔ ∃ part, cell.get part = some child := by
  cases cell with
  | object fields =>
    constructor
    · intro mem
      obtain ⟨entry, entryMem, same⟩ := mem_map.mp mem
      exact ⟨.field entry.1, get?_eq_some_iff.mpr (same ▸ entryMem)⟩
    · intro ⟨part, held⟩
      cases part with
      | field key =>
        exact mem_values_of_mem_entries (get?_eq_some_iff.mp held)
      | item index => cases held
  | array items =>
    constructor
    · intro mem
      obtain ⟨index, held⟩ := mem_iff_getElem?.mp mem
      exact ⟨.item index, held⟩
    · intro ⟨part, held⟩
      cases part with
      | field key => cases held
      | item index => exact mem_of_getElem? held

theorem get_put_self {cell : GraphCell} {part : Part} {old : GraphValue}
    (held : cell.get part = some old) (value : GraphValue) :
    (cell.put part value).get part = some value := by
  cases cell with
  | object fields =>
    cases part with
    | field key => exact get?_set_self _ _ _
    | item index => cases held
  | array items =>
    cases part with
    | field key => cases held
    | item index =>
      obtain ⟨inside, _⟩ := List.getElem?_eq_some_iff.mp held
      exact List.getElem?_set_self inside

theorem get_put_ne (cell : GraphCell) {part other : Part} (ne : other ≠ part) (value : GraphValue) :
    (cell.put part value).get other = cell.get other := by
  cases cell with
  | object fields =>
    cases part with
    | item index => rfl
    | field key =>
      cases other with
      | item index => rfl
      | field otherKey =>
        exact get?_set_ne _ _ fun same => ne (congrArg Part.field same.symm)
  | array items =>
    cases part with
    | field key => rfl
    | item index =>
      cases other with
      | field key => rfl
      | item otherIndex =>
        exact getElem?_set_ne fun same => ne (congrArg Part.item same.symm)

end GraphCell

def GraphValue.Below (limit : Nat) : GraphValue → Prop
  | .primitive _ => True
  | .ref address => address < limit

instance (limit : Nat) (value : GraphValue) : Decidable (value.Below limit) :=
  match value with
  | .primitive _ => .isTrue trivial
  | .ref address => inferInstanceAs (Decidable (address < limit))

structure ValueGraph where
  cells : GraphCells
  root : GraphValue
  closed : ∀ cell ∈ cells.objects, ∀ child ∈ cell.children, child.Below cells.size
  rooted : root.Below cells.size

theorem ValueGraph.closed_read (graph : ValueGraph) (address : Nat) :
    ∀ child ∈ (graph.cells.read address).children, child.Below graph.cells.size := by
  intro child mem
  by_cases inside : address < graph.cells.size
  · rw [ObjectStore.size] at inside
    apply graph.closed (graph.cells.read address) _ child mem
    simp [ObjectStore.read, inside]
  · rw [ObjectStore.read_of_size_le (Nat.le_of_not_lt inside)] at mem
    simp [default, GraphCell.children] at mem

namespace GraphCells

def Leads (cells : GraphCells) (value child : GraphValue) : Prop :=
  ∃ address, value = .ref address ∧ child ∈ (cells.read address).children

def Reaches (cells : GraphCells) : GraphValue → GraphValue → Prop :=
  Relation.ReflTransGen cells.Leads

end GraphCells

theorem ValueGraph.below_of_reaches (graph : ValueGraph) {value : GraphValue}
    (reaches : graph.cells.Reaches graph.root value) :
    value.Below graph.cells.size := by
  induction reaches with
  | refl => exact graph.rooted
  | tail _ leads _ =>
    obtain ⟨address, _, mem⟩ := leads
    exact graph.closed_read address _ mem

section SameTree

/-- Both values are the same primitive, or have the same kind, keys and length
and related parts. -/
inductive MatchingValues (left right : GraphCells)
    (related : GraphValue → GraphValue → Prop) :
    GraphValue → GraphValue → Prop where
  | primitive (value : Primitive) :
      MatchingValues left right related (.primitive value) (.primitive value)
  | object {first second : Nat} {fields others : OrderedMap String GraphValue} :
      left.read first = .object fields → right.read second = .object others →
      (∀ key, Option.Rel related (fields.get? key) (others.get? key)) →
      MatchingValues left right related (.ref first) (.ref second)
  | array {first second : Nat} {items others : List GraphValue} :
      left.read first = .array items → right.read second = .array others →
      List.Forall₂ related items others →
      MatchingValues left right related (.ref first) (.ref second)

def SameTree (left right : GraphCells) (value other : GraphValue) : Prop :=
  ∃ related : GraphValue → GraphValue → Prop, related value other ∧
    ∀ value other, related value other → MatchingValues left right related value other

variable {left right : GraphCells} {value other : GraphValue}

/-- A relation kept by each step gives each way into the left value a way into
the right one. -/
theorem MatchingValues.follows {related : GraphValue → GraphValue → Prop}
    (matching : ∀ value other, related value other →
      MatchingValues left right related value other) (start : related value other)
    {inner : GraphValue} (reaches : left.Reaches value inner) :
    ∃ otherInner, right.Reaches other otherInner ∧ related inner otherInner := by
  induction reaches with
  | refl => exact ⟨other, .refl, start⟩
  | @tail middle inner _ leads ih =>
    obtain ⟨otherMiddle, reached, isRelated⟩ := ih
    obtain ⟨address, atAddress, child⟩ := leads
    subst atAddress
    cases matching _ _ isRelated with
    | @object _ second fields others isLeft isRight keys =>
      rw [isLeft] at child
      obtain ⟨entry, mem, same⟩ := mem_map.mp child
      have lookup : fields.get? entry.1 = some inner := same ▸ get?_eq_some_iff.mpr mem
      have relation := keys entry.1
      rw [lookup] at relation
      cases held : others.get? entry.1 with
      | none =>
        rw [held] at relation
        cases relation
      | some otherInner =>
        rw [held] at relation
        cases relation with
        | some isRelated =>
          refine ⟨otherInner, reached.tail ⟨second, rfl, ?_⟩, isRelated⟩
          rw [isRight]
          exact mem_map_of_mem (get?_eq_some_iff.mp held)
    | @array _ second items others isLeft isRight parts =>
      rw [isLeft] at child
      obtain ⟨index, inside, same⟩ := mem_iff_getElem.mp child
      have otherInside : index < others.length := parts.length_eq ▸ inside
      refine ⟨others[index], reached.tail ⟨second, rfl, ?_⟩, ?_⟩
      · rw [isRight]
        exact getElem_mem otherInside
      · rw [← same]
        exact parts.get inside otherInside

theorem SameTree.follows (same : SameTree left right value other) {inner : GraphValue}
    (reaches : left.Reaches value inner) :
    ∃ otherInner, right.Reaches other otherInner ∧ SameTree left right inner otherInner := by
  obtain ⟨related, start, matching⟩ := same
  obtain ⟨otherInner, reached, isRelated⟩ := MatchingValues.follows matching start reaches
  exact ⟨otherInner, reached, related, isRelated, matching⟩

end SameTree

end N8n
