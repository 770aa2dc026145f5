import Mathlib.Data.List.Nodup
import Mathlib.Logic.Relation
import N8n.Library.FoldExcept

/-!
# Collecting marks depth first

`collect edges next` walks a graph depth first.  `edges` lists the marks seen
at a vertex and may fail, `next` gives the vertex a mark leads to, and a mark
that was collected before is not followed again.  The result is the set of
all marks that can be met, provided the fuel exceeds their number.
-/

universe u

namespace Collect

open List

variable {α γ ε : Type u}

/-- `edges` succeeds on a set of vertices which is closed under it, and all
its marks come from a finite list. -/
structure Total (edges : α → Except ε (List γ)) (next : γ → α)
    (inside : α → Prop) (listed : α → List γ) (universe' : List γ) : Prop where
  success : ∀ vertex, inside vertex → edges vertex = .ok (listed vertex)
  closed : ∀ vertex, inside vertex → ∀ mark ∈ listed vertex, inside (next mark)
  bounded : ∀ vertex, inside vertex → ∀ mark ∈ listed vertex, mark ∈ universe'

def Step (next : γ → α) (listed : α → List γ) (vertex other : α) : Prop :=
  ∃ mark ∈ listed vertex, next mark = other

/-- What following `marks`, which are listed at `vertex`, adds to the marks
`seen`. -/
structure Extends (next : γ → α) (listed : α → List γ) (vertex : α)
    (marks seen result : List γ) : Prop where
  keeps : ∀ mark ∈ seen, mark ∈ result
  nodup : seen.Nodup → result.Nodup
  sound : ∀ mark ∈ result, mark ∈ seen ∨ ∃ other,
    Relation.ReflTransGen (Step next listed) vertex other ∧ mark ∈ listed other
  complete : ∀ mark ∈ marks, mark ∈ result
  closed : ∀ mark ∈ result, mark ∉ seen → ∀ later ∈ listed (next mark), later ∈ result

namespace Extends

variable {next : γ → α} {listed : α → List γ} {vertex : α} {mark : γ}
  {marks seen middle result : List γ}

theorem nil : Extends next listed vertex [] seen seen where
  keeps := fun _ mem => mem
  nodup := id
  sound := fun _ mem => .inl mem
  complete := by simp
  closed := fun _ mem absent => absurd mem absent

theorem cons_seen (present : mark ∈ seen)
    (extended : Extends next listed vertex marks seen result) :
    Extends next listed vertex (mark :: marks) seen result where
  keeps := extended.keeps
  nodup := extended.nodup
  sound := extended.sound
  complete := by
    intro other mem
    rcases mem_cons.mp mem with rfl | mem
    · exact extended.keeps _ present
    · exact extended.complete other mem
  closed := extended.closed

theorem cons_fresh (here : mark ∈ listed vertex) (fresh : mark ∉ seen)
    (inner : Extends next listed (next mark) (listed (next mark)) (seen ++ [mark]) middle)
    (outer : Extends next listed vertex marks middle result) :
    Extends next listed vertex (mark :: marks) seen result where
  keeps := fun other mem =>
    outer.keeps other (inner.keeps other (by simp [mem]))
  nodup := by
    intro seenNodup
    refine outer.nodup (inner.nodup ?_)
    exact nodup_append.mpr ⟨seenNodup, nodup_singleton mark, by
      intro left leftMem right rightMem equal
      obtain rfl : right = mark := by simpa using rightMem
      exact fresh (equal ▸ leftMem)⟩
  sound := by
    intro other mem
    rcases outer.sound other mem with fromMiddle | found
    · rcases inner.sound other fromMiddle with fromSeen | ⟨last, reached, there⟩
      · rcases mem_append.mp fromSeen with old | new
        · exact .inl old
        · obtain rfl : other = mark := by simpa using new
          exact .inr ⟨vertex, .refl, here⟩
      · exact .inr ⟨last, .head ⟨mark, here, rfl⟩ reached, there⟩
    · exact .inr found
  complete := by
    intro other mem
    rcases mem_cons.mp mem with rfl | mem
    · exact outer.keeps _ (inner.keeps _ (by simp))
    · exact outer.complete other mem
  closed := by
    intro other mem absent later laterMem
    by_cases inMiddle : other ∈ middle
    · by_cases same : other = mark
      · subst same
        exact outer.keeps _ (inner.complete later laterMem)
      · exact outer.keeps _ (inner.closed other inMiddle
          (by simpa using ⟨absent, same⟩) later laterMem)
    · exact outer.closed other mem inMiddle later laterMem

end Extends

variable [DecidableEq γ]

def collect (edges : α → Except ε (List γ)) (next : γ → α) : Nat → α → List γ → Except ε (List γ)
  | 0, _, seen => .ok seen
  | fuel + 1, vertex, seen => do
    let marks ← edges vertex
    marks.foldlM (fun seen mark =>
      if mark ∈ seen then pure seen
      else collect edges next fuel (next mark) (seen ++ [mark])) seen

variable {edges : α → Except ε (List γ)} {next : γ → α}
  {inside : α → Prop} {listed : α → List γ} {universe' : List γ}

/-- The number of marks which are still to be collected. -/
def missing (universe' seen : List γ) : Nat :=
  (universe'.filter fun mark => mark ∉ seen).length

theorem missing_append {seen : List γ} {mark : γ} (mem : mark ∈ universe') (fresh : mark ∉ seen) :
    missing universe' (seen ++ [mark]) < missing universe' seen := by
  have sublist : (universe'.filter fun other => other ∉ seen ++ [mark]).Sublist
      (universe'.filter fun other => other ∉ seen) := by
    apply monotone_filter_right
    intro other absent
    simp only [mem_append, decide_eq_true_eq, not_or] at absent ⊢
    exact absent.1
  refine Nat.lt_of_le_of_ne sublist.length_le fun equal => ?_
  have same := sublist.eq_of_length equal
  have inOld : mark ∈ universe'.filter fun other => other ∉ seen := by
    simpa using ⟨mem, fresh⟩
  rw [← same] at inOld
  simp at inOld

theorem missing_le_of_subset {seen result : List γ} (subset : ∀ mark ∈ seen, mark ∈ result) :
    missing universe' result ≤ missing universe' seen := by
  apply List.Sublist.length_le
  apply monotone_filter_right
  intro mark absent
  simp only [decide_eq_true_eq] at absent ⊢
  exact fun mem => absent (subset mark mem)

theorem collect_extends (total : Total edges next inside listed universe')
    {fuel : Nat} {vertex : α} {seen : List γ} (isInside : inside vertex)
    (enough : missing universe' seen < fuel) :
    ∃ result, collect edges next fuel vertex seen = .ok result ∧
      Extends next listed vertex (listed vertex) seen result := by
  induction fuel generalizing vertex seen with
  | zero => exact absurd enough (Nat.not_lt_zero _)
  | succ fuel ih =>
    have folded : ∀ (marks current : List γ), (∀ mark ∈ marks, mark ∈ listed vertex) →
        missing universe' current ≤ fuel →
        ∃ result, marks.foldlM (fun seen mark =>
            if mark ∈ seen then pure seen
            else collect edges next fuel (next mark) (seen ++ [mark]))
            current = Except.ok (ε := ε) result ∧
          Extends next listed vertex marks current result := by
      intro marks
      induction marks with
      | nil => exact fun current _ _ => ⟨current, rfl, .nil⟩
      | cons mark marks marksIh =>
        intro current fromListed bound
        have later : ∀ other ∈ marks, other ∈ listed vertex :=
          fun other mem => fromListed other (by simp [mem])
        have here := fromListed mark (by simp)
        by_cases present : mark ∈ current
        · obtain ⟨result, ok, extended⟩ := marksIh current later bound
          refine ⟨result, ?_, extended.cons_seen present⟩
          rw [foldlM_cons, if_pos present]
          exact ok
        · have decreased := missing_append (total.bounded vertex isInside mark here) present
          obtain ⟨middle, middleSuccess, inner⟩ :=
            ih (total.closed vertex isInside mark here) (Nat.lt_of_lt_of_le decreased bound)
          have smaller : missing universe' middle ≤ missing universe' current :=
            missing_le_of_subset fun other mem =>
              inner.keeps other (by simp [mem])
          obtain ⟨result, ok, outer⟩ := marksIh middle later (Nat.le_trans smaller bound)
          refine ⟨result, ?_, .cons_fresh here present inner outer⟩
          rw [foldlM_cons, if_neg present, middleSuccess]
          exact ok
    obtain ⟨result, ok, extended⟩ := folded (listed vertex) seen (fun _ mem => mem)
        (Nat.le_of_lt_succ enough)
    refine ⟨result, ?_, extended⟩
    rw [collect, total.success vertex isInside]
    exact ok

/-- Collecting from an empty set yields the marks of all reachable
vertices, each once. -/
theorem collect_eq_ok (total : Total edges next inside listed universe')
    (fuel : Nat) {vertex : α} (isInside : inside vertex)
    (enough : universe'.length < fuel) :
    ∃ result, collect edges next fuel vertex [] = .ok result ∧
      result.Nodup ∧ ∀ mark, mark ∈ result ↔ ∃ other,
        Relation.ReflTransGen (Step next listed) vertex other ∧ mark ∈ listed other := by
  have bound : missing universe' [] < fuel := Nat.lt_of_le_of_lt (length_filter_le _ _) enough
  obtain ⟨result, ok, extended⟩ := collect_extends total isInside bound
  refine ⟨result, ok, extended.nodup nodup_nil, fun mark =>
    ⟨fun mem => (extended.sound mark mem).resolve_left (by simp), ?_⟩⟩
  rintro ⟨other, reached, mem⟩
  have all : ∀ later ∈ listed other, later ∈ result := by
    clear mem
    induction reached with
    | refl => exact extended.complete
    | tail _ lastStep ih =>
      obtain ⟨mark, markMem, rfl⟩ := lastStep
      exact extended.closed mark (ih mark markMem) (by simp)
  exact all mark mem

end Collect
