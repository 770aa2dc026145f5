import Mathlib.Data.List.Nodup
import Mathlib.Logic.Relation

/-!
# Simple paths

A path is given by the vertices it leaves.  Every reachable vertex is reached
by a simple path, one which visits no vertex twice; a search that refuses to
revisit the vertices of its current branch can follow it.
-/

universe u

/-- `VertexPath step start left finish` follows `step` from `start` to
`finish` and leaves the vertices `left` in this order. -/
inductive VertexPath {α : Type u} (step : α → α → Prop) :
    α → List α → α → Prop where
  | nil (vertex : α) : VertexPath step vertex [] vertex
  | cons {start next finish : α} {left : List α} :
      step start next → VertexPath step next left finish →
      VertexPath step start (start :: left) finish

namespace VertexPath

variable {α : Type u} {step : α → α → Prop} {start finish : α} {left : List α}

theorem reachable (path : VertexPath step start left finish) :
    Relation.ReflTransGen step start finish := by
  induction path with
  | nil vertex => exact .refl
  | cons first _ ih => exact .head first ih

theorem reachable_of_mem (path : VertexPath step start left finish)
    {vertex : α} (mem : vertex ∈ left ++ [finish]) :
    Relation.ReflTransGen step start vertex := by
  induction path with
  | nil finish =>
    rw [List.nil_append, List.mem_singleton] at mem
    exact mem ▸ .refl
  | cons first _ ih =>
    rcases List.mem_cons.mp mem with same | mem
    · exact same ▸ .refl
    · exact .head first (ih mem)

theorem transGen (path : VertexPath step start left finish)
    (nonempty : left ≠ []) : Relation.TransGen step start finish := by
  cases path with
  | nil _ => exact absurd rfl nonempty
  | cons first path => exact .head' first path.reachable

theorem vertices_eq (path : VertexPath step start left finish) :
    left ++ [finish] = start :: (left ++ [finish]).tail := by
  cases path with
  | nil _ => rfl
  | cons _ _ => rfl

theorem exists_suffix (path : VertexPath step start left finish) {vertex : α}
    (mem : vertex ∈ left) :
    ∃ rest, VertexPath step vertex rest finish ∧ rest.Sublist left := by
  induction path with
  | nil _ => simp at mem
  | @cons start next finish left first path ih =>
    rcases List.mem_cons.mp mem with rfl | mem
    · exact ⟨_, .cons first path, List.Sublist.refl _⟩
    · obtain ⟨rest, restPath, sublist⟩ := ih mem
      exact ⟨rest, restPath, sublist.trans (List.sublist_cons_self _ _)⟩

end VertexPath

/-- A path which leaves no vertex twice and never leaves its last vertex. -/
def SimplePath {α : Type u} (step : α → α → Prop) (start : α) (left : List α) (finish : α) : Prop :=
  VertexPath step start left finish ∧ (left ++ [finish]).Nodup

variable {α : Type u} {step : α → α → Prop} {start finish : α}

theorem VertexPath.exists_simple {left : List α} (path : VertexPath step start left finish) :
    ∃ simple, SimplePath step start simple finish ∧ simple.Sublist left := by
  induction path with
  | nil finish => exact ⟨[], ⟨.nil finish, by simp⟩, List.Sublist.refl _⟩
  | @cons start next finish left first _ ih =>
    obtain ⟨simple, ⟨path, nodup⟩, sublist⟩ := ih
    by_cases last : start = finish
    · subst last
      exact ⟨[], ⟨.nil _, by simp⟩, List.nil_sublist _⟩
    · by_cases mem : start ∈ simple
      · obtain ⟨rest, restPath, shorter⟩ := path.exists_suffix mem
        refine ⟨rest, ⟨restPath, ?_⟩, ?_⟩
        · exact nodup.sublist (shorter.append (List.Sublist.refl _))
        · exact (shorter.trans sublist).trans (List.sublist_cons_self _ _)
      · refine ⟨start :: simple, ⟨.cons first path, ?_⟩, sublist.cons_cons start⟩
        rw [List.cons_append, List.nodup_cons]
        exact ⟨by simpa using ⟨mem, last⟩, nodup⟩

theorem VertexPath.exists_of_reachable (reachable : Relation.ReflTransGen step start finish) :
    ∃ left, VertexPath step start left finish := by
  induction reachable using Relation.ReflTransGen.head_induction_on with
  | refl => exact ⟨[], .nil finish⟩
  | @head start next first _ ih =>
    obtain ⟨left, path⟩ := ih
    exact ⟨start :: left, .cons first path⟩

theorem SimplePath.exists_of_reachable (reachable : Relation.ReflTransGen step start finish) :
    ∃ left, SimplePath step start left finish := by
  obtain ⟨left, path⟩ := VertexPath.exists_of_reachable reachable
  obtain ⟨simple, isSimple, _⟩ := path.exists_simple
  exact ⟨simple, isSimple⟩
