import Mathlib.Data.List.Nodup

/-!
# Folds of local steps

Each item of a list has a key and its step changes only what is seen under
that key.  Folding the steps over items with different keys then changes each
view once, and the order of the items does not show.  A guard on the view
says which steps are sound; as no step changes the view of another, all
guards can be checked before the first step.
-/

universe u v w x

/-- What the step of an item does when its guard holds, seen under keys. -/
structure ActsLocally {σ : Type u} {ι : Type v} {κ : Type w} {β : Type x}
    (step : σ → ι → σ) (key : ι → κ) (view : σ → κ → β)
    (act : ι → β → β) (guard : ι → β → Prop) (invariant : σ → Prop)
    (member : ι → Prop) : Prop where
  preserved : ∀ {state item}, member item → invariant state →
    guard item (view state (key item)) → invariant (step state item)
  acts : ∀ {state item}, member item → invariant state → guard item (view state (key item)) →
      view (step state item) (key item) = act item (view state (key item))
  others : ∀ {state item}, member item → invariant state →
    guard item (view state (key item)) → ∀ {other}, other ≠ key item →
      view (step state item) other = view state other

namespace ActsLocally

open List

variable {σ : Type u} {ι : Type v} {κ : Type w} {β : Type x}
  {step : σ → ι → σ} {key : ι → κ} {view : σ → κ → β} {act : ι → β → β}
  {guard : ι → β → Prop} {invariant : σ → Prop} {member : ι → Prop}
  {items : List ι} {state : σ}

private theorem guards_later (acts : ActsLocally step key view act guard invariant member)
    {first : ι} {rest : List ι} (belongs : member first)
    (distinct : ((first :: rest).map key).Nodup) (holds : invariant state)
    (guarded : guard first (view state (key first))) {item : ι}
    (later : item ∈ rest) :
    guard item (view (step state first) (key item)) ↔ guard item (view state (key item)) := by
  have ne : key item ≠ key first := by
    intro same
    rw [map_cons, nodup_cons] at distinct
    exact distinct.1 (mem_map.mpr ⟨item, later, same⟩)
  rw [acts.others belongs holds guarded ne]

/-- A fold of guarded steps keeps the invariant, acts once under the key of
each item and nowhere else. -/
theorem foldl (acts : ActsLocally step key view act guard invariant member)
    (belong : ∀ item ∈ items, member item)
    (distinct : (items.map key).Nodup) (holds : invariant state)
    (guarded : ∀ item ∈ items, guard item (view state (key item))) :
    invariant (items.foldl step state) ∧ (∀ item ∈ items, view (items.foldl step state) (key item) =
        act item (view state (key item))) ∧
      ∀ other, other ∉ items.map key → view (items.foldl step state) other = view state other := by
  induction items generalizing state with
  | nil => exact ⟨holds, by simp, fun _ _ => rfl⟩
  | cons first rest ih =>
    have belongs : member first := belong first mem_cons_self
    have now : guard first (view state (key first)) := guarded first mem_cons_self
    have apart := distinct
    rw [map_cons, nodup_cons] at apart
    obtain ⟨kept, acted, frame⟩ := ih (fun item later => belong item (mem_cons_of_mem _ later))
      apart.2 (acts.preserved belongs holds now)
      (fun item later =>
        (acts.guards_later belongs distinct holds now later).mpr
          (guarded item (mem_cons_of_mem _ later)))
    refine ⟨kept, ?_, ?_⟩
    · intro item listed
      rcases mem_cons.mp listed with rfl | later
      · rw [foldl_cons, frame _ apart.1]
        exact acts.acts belongs holds now
      · have ne : key item ≠ key first := by
          intro same
          exact apart.1 (mem_map.mpr ⟨item, later, same⟩)
        rw [foldl_cons, acted item later, acts.others belongs holds now ne]
    · intro other absent
      rw [map_cons, mem_cons, not_or] at absent
      rw [foldl_cons, frame other absent.2, acts.others belongs holds now absent.1]

/-- A step whose guard fails spoils the state for good, so a fold that ends
in a state that is not spoilt has met every guard. -/
theorem guards_of_not_spoilt (acts : ActsLocally step key view act guard invariant member)
    {spoilt : σ → Prop} (spoils : ∀ {state item}, member item → invariant state →
      ¬ guard item (view state (key item)) → spoilt (step state item))
    (lasts : ∀ {state item}, spoilt state → spoilt (step state item))
    (belong : ∀ item ∈ items, member item)
    (distinct : (items.map key).Nodup) (holds : invariant state)
    (sound : ¬ spoilt (items.foldl step state)) :
    ∀ item ∈ items, guard item (view state (key item)) := by
  have spoilt_foldl : ∀ (list : List ι) (current : σ),
      spoilt current → spoilt (list.foldl step current) := by
    intro list
    induction list with
    | nil => exact fun _ bad => bad
    | cons head tail ih => exact fun _ bad => ih _ (lasts bad)
  induction items generalizing state with
  | nil => simp
  | cons first rest ih =>
    have belongs : member first := belong first mem_cons_self
    have now : guard first (view state (key first)) := by
      by_contra fails
      exact sound (spoilt_foldl rest _ (spoils belongs holds fails))
    have apart := distinct
    rw [map_cons, nodup_cons] at apart
    have later := ih (fun item later => belong item (mem_cons_of_mem _ later))
      apart.2 (acts.preserved belongs holds now) sound
    intro item listed
    rcases mem_cons.mp listed with rfl | listed
    · exact now
    · exact (acts.guards_later belongs distinct holds now listed).mp (later item listed)

end ActsLocally
