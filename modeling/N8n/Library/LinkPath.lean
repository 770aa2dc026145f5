import Mathlib.Logic.Relation

/-!
# Paths against the order of a trace

A search completes edges one after the other, and completing an edge moves
information from its target to its source.  Information gets from the end of
a path to its start exactly when each edge is completed after the edges
behind it on the path.
-/

universe u v

/-- A path whose first edge is in the trace and whose other edges are, in the
same way, in the part of the trace before it. -/
inductive LinkPath {α : Type u} {β : Type v} (source target : β → α) :
    List β → α → α → Prop where
  | nil (trace : List β) (vertex : α) : LinkPath source target trace vertex vertex
  | cons {earlier later : List β} {edge : β} {finish : α} :
      LinkPath source target earlier (target edge) finish →
      LinkPath source target (earlier ++ edge :: later) (source edge) finish

namespace LinkPath

open List

variable {α : Type u} {β : Type v} {source target : β → α} {trace : List β} {start finish : α}

theorem append (path : LinkPath source target trace start finish)
    (more : List β) : LinkPath source target (trace ++ more) start finish := by
  cases path with
  | nil => exact .nil _ _
  | cons rest =>
    rw [append_assoc, cons_append]
    exact .cons rest

theorem append_singleton_iff {edge : β} : LinkPath source target (trace ++ [edge]) start finish ↔
      LinkPath source target trace start finish ∨ (source edge = start ∧
          LinkPath source target trace (target edge) finish) := by
  constructor
  · intro path
    generalize whole : trace ++ [edge] = extended at path
    cases path with
    | nil => exact .inl (.nil _ _)
    | @cons earlier later first finish rest =>
      rcases eq_nil_or_concat later with rfl | ⟨middle, last, rfl⟩
      · obtain ⟨rfl, same⟩ := append_inj' whole rfl
        obtain rfl := singleton_inj.mp same
        exact .inr ⟨rfl, rest⟩
      · rw [concat_eq_append, ← cons_append, ← append_assoc] at whole
        obtain ⟨rfl, _⟩ := append_inj' whole rfl
        exact .inl (.cons rest)
  · rintro (path | ⟨rfl, rest⟩)
    · exact path.append _
    · exact .cons rest

theorem eq_of_no_source (path : LinkPath source target trace start finish)
    (elsewhere : ∀ edge ∈ trace, source edge ≠ start) : start = finish := by
  cases path with
  | nil => rfl
  | cons _ => exact (elsewhere _ (by simp) rfl).elim

theorem eq_of_no_target (path : LinkPath source target trace start finish)
    (elsewhere : ∀ edge ∈ trace, target edge ≠ finish) : start = finish := by
  induction path with
  | nil => rfl
  | @cons earlier later edge finish _ ih =>
    have last := ih fun other mem => elsewhere other (by simp [mem])
    exact (elsewhere edge (by simp) last).elim

theorem reachable {step : α → α → Prop} (edges : ∀ edge ∈ trace, step (source edge) (target edge))
    (path : LinkPath source target trace start finish) :
    Relation.ReflTransGen step start finish := by
  induction path with
  | nil => exact .refl
  | cons _ ih =>
    exact .head (edges _ (by simp)) (ih fun edge mem => edges edge (by simp [mem]))

end LinkPath
