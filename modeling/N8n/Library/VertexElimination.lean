import Mathlib.Data.List.Induction
import Mathlib.Data.Set.Insert

/-!
# Vertex elimination

Eliminating a vertex from a set of edges deletes the edges at the vertex and
joins every edge that enters it with every edge that leaves it.  Two joined
edges keep only the beginning of the first and the end of the second, so what
is left after eliminating several vertices are the paths whose inner vertices
are eliminated ones.  The exception is an eliminated vertex with a loop: the
join of the loop with itself remains, an edge at a vertex that is gone.
-/

universe u v

/-- How edges are joined.  Only edges satisfying `through` are joined. -/
structure EdgeJoin (α : Type u) (β : Type v) where
  source : β → α
  target : β → α
  through : β → Prop
  join : β → β → β
  source_join : ∀ first second, source (join first second) = source first
  target_join : ∀ first second, target (join first second) = target second
  through_join : ∀ {first second}, through first → through second → through (join first second)
  join_join_left : ∀ first middle last, join (join first middle) last = join first last
  join_join_right : ∀ first middle last, join first (join middle last) = join first last

namespace EdgeJoin

open List

variable {α : Type u} {β : Type v} (edgeJoin : EdgeJoin α β)

/-- The edge enters and leaves one vertex and may be joined with itself. -/
def LoopAt (vertex : α) (edge : β) : Prop :=
  edgeJoin.through edge ∧ edgeJoin.source edge = vertex ∧ edgeJoin.target edge = vertex

/-- An edge is the join of two edges of the set which meet at the vertex. -/
def Meet (edges : Set β) (vertex : α) (edge : β) : Prop :=
  ∃ first ∈ edges, ∃ second ∈ edges, edgeJoin.through first ∧ edgeJoin.through second ∧
      edgeJoin.target first = vertex ∧ edgeJoin.source second = vertex ∧
        edge = edgeJoin.join first second

/-- Delete the edges at a vertex and add the joins of the edges which meet
there. -/
def eliminate (edges : Set β) (vertex : α) : Set β :=
  {edge | (edge ∈ edges ∧ edgeJoin.source edge ≠ vertex ∧
      edgeJoin.target edge ≠ vertex) ∨ edgeJoin.Meet edges vertex edge}

def eliminateAll (edges : Set β) (vertices : List α) : Set β :=
  vertices.foldl edgeJoin.eliminate edges

/-- The edges and the joins of paths whose inner vertices are in a given
set. -/
inductive Via (edges : Set β) (inner : Set α) : β → Prop where
  | edge {edge : β} : edge ∈ edges → Via edges inner edge
  | join {first second : β} : Via edges inner first → Via edges inner second →
      edgeJoin.through first → edgeJoin.through second →
      edgeJoin.target first = edgeJoin.source second →
      edgeJoin.target first ∈ inner →
      Via edges inner (edgeJoin.join first second)

variable {edgeJoin} {edges : Set β} {inner : Set α} {vertex : α} {edge : β}

theorem Via.mono {larger : Set α} (subset : inner ⊆ larger) (via : edgeJoin.Via edges inner edge) :
    edgeJoin.Via edges larger edge := by
  induction via with
  | edge mem => exact .edge mem
  | join _ _ firstThrough secondThrough meet middle first second =>
    exact .join first second firstThrough secondThrough meet (subset middle)

theorem via_empty_iff : edgeJoin.Via edges ∅ edge ↔ edge ∈ edges := by
  constructor
  · rintro (mem | ⟨_, _, _, _, _, middle⟩)
    · exact mem
    · exact middle.elim
  · exact .edge

/-- A path over one more inner vertex visits it once, because a join forgets
what happened between its ends. -/
theorem via_insert_iff : edgeJoin.Via edges (insert vertex inner) edge ↔
      edgeJoin.Via edges inner edge ∨
        edgeJoin.Meet {edge | edgeJoin.Via edges inner edge} vertex edge := by
  constructor
  · intro via
    induction via with
    | edge mem => exact .inl (.edge mem)
    | @join first second _ _ firstThrough secondThrough meet middle firstCase secondCase =>
      rcases firstCase with firstVia | ⟨entering, enteringVia, afterFirst,
        afterVia, enteringThrough, afterThrough, enters, leaves, rfl⟩
      · rcases secondCase with secondVia | ⟨beforeSecond, beforeVia, leaving,
          leavingVia, beforeThrough, leavingThrough, enters, leaves, rfl⟩
        · rcases middle with atVertex | middle
          · exact .inr ⟨first, firstVia, second, secondVia, firstThrough,
              secondThrough, atVertex, meet ▸ atVertex, rfl⟩
          · exact .inl (.join firstVia secondVia firstThrough secondThrough meet middle)
        · rw [edgeJoin.join_join_right]
          rw [edgeJoin.source_join] at meet
          rcases middle with atVertex | middle
          · exact .inr ⟨first, firstVia, leaving, leavingVia, firstThrough,
              leavingThrough, atVertex, leaves, rfl⟩
          · refine .inr ⟨edgeJoin.join first beforeSecond,
              .join firstVia beforeVia firstThrough beforeThrough meet middle, leaving, leavingVia,
              edgeJoin.through_join firstThrough beforeThrough,
              leavingThrough, ?_, leaves, ?_⟩
            · rw [edgeJoin.target_join]
              exact enters
            · rw [edgeJoin.join_join_left]
      · rw [edgeJoin.join_join_left]
        rw [edgeJoin.target_join] at meet middle
        rcases secondCase with secondVia | ⟨_, _, leaving, leavingVia,
          _, leavingThrough, _, secondLeaves, rfl⟩
        · rcases middle with atVertex | middle
          · exact .inr ⟨entering, enteringVia, second, secondVia,
              enteringThrough, secondThrough, enters, meet ▸ atVertex, rfl⟩
          · refine .inr ⟨entering, enteringVia, edgeJoin.join afterFirst second,
              .join afterVia secondVia afterThrough secondThrough meet middle, enteringThrough,
              edgeJoin.through_join afterThrough secondThrough, enters,
              ?_, ?_⟩
            · rw [edgeJoin.source_join]
              exact leaves
            · rw [edgeJoin.join_join_right]
        · rw [edgeJoin.join_join_right]
          exact .inr ⟨entering, enteringVia, leaving, leavingVia,
            enteringThrough, leavingThrough, enters, secondLeaves, rfl⟩
  · rintro (via | ⟨first, firstVia, second, secondVia, firstThrough,
      secondThrough, enters, leaves, rfl⟩)
    · exact via.mono (Set.subset_insert _ _)
    · exact .join (firstVia.mono (Set.subset_insert _ _))
        (secondVia.mono (Set.subset_insert _ _)) firstThrough secondThrough
        (enters.trans leaves.symm) (.inl enters)

variable {vertices : List α}

theorem via_of_mem_eliminateAll (mem : edge ∈ edgeJoin.eliminateAll edges vertices) :
    edgeJoin.Via edges {vertex | vertex ∈ vertices} edge := by
  induction vertices using List.reverseRecOn generalizing edge with
  | nil => exact .edge mem
  | append_singleton earlier vertex ih =>
    have members : {mem | mem ∈ earlier ++ [vertex]} = insert vertex {mem | mem ∈ earlier} := by
      ext mem
      simp [or_comm]
    rw [eliminateAll, foldl_append] at mem
    rw [members, via_insert_iff]
    rcases mem with ⟨mem, _⟩ | ⟨first, firstMem, second, secondMem, rest⟩
    · exact .inl (ih mem)
    · exact .inr ⟨first, ih firstMem, second, ih secondMem, rest⟩

/-- No vertex of the set lies on a cycle of vertices of the set. -/
def NoInnerLoop (edgeJoin : EdgeJoin α β) (edges : Set β) (inner : Set α) : Prop :=
  ∀ vertex ∈ inner, ∀ edge, edgeJoin.Via edges inner edge → ¬ edgeJoin.LoopAt vertex edge

theorem NoInnerLoop.mono {smaller : Set α} (subset : smaller ⊆ inner)
    (noLoop : edgeJoin.NoInnerLoop edges inner) :
    edgeJoin.NoInnerLoop edges smaller :=
  fun vertex mem edge via =>
    noLoop vertex (subset mem) edge (via.mono subset)

/-- The paths through inner vertices which begin and end elsewhere. -/
def bypass (edgeJoin : EdgeJoin α β) (edges : Set β) (inner : Set α) : Set β :=
  {edge | edgeJoin.Via edges inner edge ∧ edgeJoin.source edge ∉ inner ∧
    edgeJoin.target edge ∉ inner}

@[simp] theorem bypass_empty : edgeJoin.bypass edges ∅ = edges := by
  ext edge
  simp [bypass, via_empty_iff]

theorem eliminate_bypass (noLoop : edgeJoin.NoInnerLoop edges (insert vertex inner))
    (fresh : vertex ∉ inner) :
    edgeJoin.eliminate (edgeJoin.bypass edges inner) vertex =
      edgeJoin.bypass edges (insert vertex inner) := by
  have noMeetLoop : ∀ edge, edgeJoin.Via edges inner edge →
      ¬ edgeJoin.LoopAt vertex edge := fun edge via =>
    noLoop vertex (Set.mem_insert _ _) edge (via.mono (Set.subset_insert _ _))
  ext edge
  simp only [eliminate, bypass, Set.mem_ofPred_eq, via_insert_iff, Set.mem_insert_iff, not_or]
  constructor
  · rintro (⟨⟨via, sourceOut, targetOut⟩, sourceNe, targetNe⟩ |
      ⟨first, ⟨firstVia, firstOut, _⟩, second, ⟨secondVia, _, secondOut⟩,
        firstThrough, secondThrough, enters, leaves, rfl⟩)
    · exact ⟨.inl via, ⟨sourceNe, sourceOut⟩, targetNe, targetOut⟩
    · refine ⟨.inr ⟨first, firstVia, second, secondVia, firstThrough,
        secondThrough, enters, leaves, rfl⟩, ?_⟩
      rw [edgeJoin.source_join, edgeJoin.target_join]
      refine ⟨⟨?_, firstOut⟩, ?_, secondOut⟩
      · intro sourceEq
        exact noMeetLoop first firstVia ⟨firstThrough, sourceEq, enters⟩
      · intro targetEq
        exact noMeetLoop second secondVia ⟨secondThrough, leaves, targetEq⟩
  · rintro ⟨via | ⟨first, firstVia, second, secondVia, firstThrough,
      secondThrough, enters, leaves, rfl⟩, ⟨sourceNe, sourceOut⟩, targetNe,
      targetOut⟩
    · exact .inl ⟨⟨via, sourceOut, targetOut⟩, sourceNe, targetNe⟩
    · rw [edgeJoin.source_join] at sourceOut
      rw [edgeJoin.target_join] at targetOut
      exact .inr ⟨first, ⟨firstVia, sourceOut, enters ▸ fresh⟩, second,
        ⟨secondVia, leaves ▸ fresh, targetOut⟩, firstThrough, secondThrough,
        enters, leaves, rfl⟩

/-- Eliminating the vertices one after the other leaves exactly the paths
through them. -/
theorem eliminateAll_eq_bypass (nodup : vertices.Nodup)
    (noLoop : edgeJoin.NoInnerLoop edges {vertex | vertex ∈ vertices}) :
    edgeJoin.eliminateAll edges vertices = edgeJoin.bypass edges {vertex | vertex ∈ vertices} := by
  induction vertices using List.reverseRecOn with
  | nil => simp [eliminateAll]
  | append_singleton earlier vertex ih =>
    have members : {mem | mem ∈ earlier ++ [vertex]} = insert vertex {mem | mem ∈ earlier} := by
      ext mem
      simp [or_comm]
    obtain ⟨earlierNodup, _, disjoint⟩ := nodup_append.mp nodup
    have fresh : vertex ∉ {mem | mem ∈ earlier} := fun mem =>
      disjoint vertex mem vertex (mem_singleton_self _) rfl
    rw [members] at noLoop ⊢
    rw [eliminateAll, foldl_append]
    change edgeJoin.eliminate (edgeJoin.eliminateAll edges earlier) _ = _
    rw [ih earlierNodup (noLoop.mono (Set.subset_insert _ _))]
    exact eliminate_bypass noLoop fresh

/-- A loop among the eliminated vertices leaves an edge behind that begins
and ends at an eliminated vertex. -/
theorem exists_loop_mem_eliminateAll (nodup : vertices.Nodup)
    (looping : ¬ edgeJoin.NoInnerLoop edges {vertex | vertex ∈ vertices}) :
    ∃ vertex ∈ vertices, ∃ edge ∈ edgeJoin.eliminateAll edges vertices,
      edgeJoin.LoopAt vertex edge := by
  induction vertices using List.reverseRecOn with
  | nil => exact (looping fun _ mem => (not_mem_nil mem).elim).elim
  | append_singleton earlier vertex ih =>
    obtain ⟨earlierNodup, _, disjoint⟩ := nodup_append.mp nodup
    have fresh : vertex ∉ earlier := fun mem =>
      disjoint vertex mem vertex (mem_singleton_self _) rfl
    rw [eliminateAll, foldl_append]
    change ∃ other ∈ earlier ++ [vertex], ∃ edge ∈ edgeJoin.eliminate
      (edgeJoin.eliminateAll edges earlier) vertex, _
    by_cases noLoop : edgeJoin.NoInnerLoop edges {mem | mem ∈ earlier}
    · -- the first loop is one at the vertex eliminated last
      have members : {mem | mem ∈ earlier ++ [vertex]} = insert vertex {mem | mem ∈ earlier} := by
        ext mem
        simp [or_comm]
      rw [members] at looping
      have atVertex : ∃ edge, edgeJoin.Via edges {mem | mem ∈ earlier} edge ∧
            edgeJoin.LoopAt vertex edge := by
        simp only [NoInnerLoop, not_forall, not_not, via_insert_iff] at looping
        obtain ⟨other, otherMem, edge, via | ⟨first, firstVia, second,
          secondVia, firstThrough, secondThrough, enters, leaves, rfl⟩,
          loop⟩ := looping
        · rcases otherMem with rfl | otherMem
          · exact ⟨edge, via, loop⟩
          · exact (noLoop other otherMem edge via loop).elim
        · obtain ⟨_, starts, ends⟩ := loop
          rw [edgeJoin.source_join] at starts
          rw [edgeJoin.target_join] at ends
          rcases otherMem with rfl | otherMem
          · exact ⟨first, firstVia, firstThrough, starts, enters⟩
          · refine ⟨edgeJoin.join second first, .join secondVia firstVia secondThrough firstThrough
                (ends.trans starts.symm) (ends ▸ otherMem),
              edgeJoin.through_join secondThrough firstThrough, ?_, ?_⟩
            · rw [edgeJoin.source_join]
              exact leaves
            · rw [edgeJoin.target_join]
              exact enters
      obtain ⟨edge, via, edgeThrough, starts, ends⟩ := atVertex
      have left : edge ∈ edgeJoin.eliminateAll edges earlier := by
        rw [eliminateAll_eq_bypass earlierNodup noLoop]
        exact ⟨via, starts ▸ fresh, ends ▸ fresh⟩
      refine ⟨vertex, by simp, edgeJoin.join edge edge,
        .inr ⟨edge, left, edge, left, edgeThrough, edgeThrough, ends,
          starts, rfl⟩, edgeJoin.through_join edgeThrough edgeThrough, ?_, ?_⟩
      · rw [edgeJoin.source_join]
        exact starts
      · rw [edgeJoin.target_join]
        exact ends
    · -- a loop left behind earlier does not touch the vertex
      obtain ⟨other, otherMem, edge, left, loop⟩ := ih earlierNodup noLoop
      have ne : other ≠ vertex := fun same =>
        fresh (same ▸ otherMem)
      exact ⟨other, mem_append_left _ otherMem, edge,
        .inl ⟨left, loop.2.1 ▸ ne, loop.2.2 ▸ ne⟩, loop⟩

end EdgeJoin
