import Mathlib.Data.List.Basic
import Mathlib.Data.List.Forall2

/-!
# Folds that may fail

A fold in `Except` whose steps all succeed is a pure fold, and an invariant
of its steps is an invariant of the whole fold.  A map that succeeds relates
the results to the items one by one.
-/

universe u v

theorem Except.bind_eq_ok_iff {ε : Type u} {α β : Type v} {first : Except ε α}
    {second : α → Except ε β} {value : β} :
    first >>= second = .ok value ↔ ∃ result, first = .ok result ∧ second result = .ok value := by
  cases first <;> simp [bind, Except.bind]

theorem Except.map_eq_ok_iff {ε : Type u} {α β : Type v} {first : Except ε α}
    {change : α → β} {value : β} :
    first.map change = .ok value ↔ ∃ result, first = .ok result ∧ change result = value := by
  cases first <;> simp [Except.map]

namespace List

open Except List

variable {σ β ε : Type u} {items : List β} {step : σ → β → Except ε σ}

theorem foldlM_eq_ok {next : σ → β → σ} (inv : σ → Prop)
    (ok : ∀ state item, inv state → item ∈ items →
      step state item = .ok (next state item) ∧ inv (next state item))
    {start : σ} (holds : inv start) :
    items.foldlM step start = .ok (items.foldl next start) ∧ inv (items.foldl next start) := by
  induction items generalizing start with
  | nil => exact ⟨rfl, holds⟩
  | cons item items ih =>
    obtain ⟨first, firstHolds⟩ := ok start item holds (by simp)
    rw [foldlM_cons, first, foldl_cons]
    exact ih (fun state other stateHolds mem =>
        ok state other stateHolds (by simp [mem]))
      firstHolds

theorem foldlM_eq_self {state : σ} (stays : ∀ item ∈ items, step state item = .ok state) :
    items.foldlM step state = .ok state := by
  induction items with
  | nil => rfl
  | cons item items ih =>
    rw [foldlM_cons, stays item mem_cons_self]
    exact ih fun other mem => stays other (mem_cons_of_mem _ mem)

theorem foldlM_invariant (inv : List β → σ → Prop)
    (preserved : ∀ folded state item, item ∈ items → inv folded state →
      ∀ result, step state item = .ok result → inv (folded ++ [item]) result)
    {folded : List β} {start last : σ} (holds : inv folded start)
    (ok : items.foldlM step start = .ok last) :
    inv (folded ++ items) last := by
  induction items generalizing folded start with
  | nil =>
    cases ok
    rw [append_nil]
    exact holds
  | cons item items ih =>
    obtain ⟨middle, first, ok⟩ := bind_eq_ok_iff.mp ok
    rw [append_cons]
    exact ih (fun before state other mem =>
        preserved before state other (by simp [mem]))
      (preserved folded start item (by simp) holds middle first) ok

theorem foldlM_preserves (property : σ → Prop)
    (preserved : ∀ state item, item ∈ items → property state →
      ∀ result, step state item = .ok result → property result)
    {start last : σ} (holds : property start)
    (ok : items.foldlM step start = .ok last) : property last :=
  @foldlM_invariant σ β ε items step (fun _ => property) (fun _ => preserved) [] start last holds ok

/-- Every item of a successful fold had its step, and a preorder which the
steps respect joins the states before and behind it. -/
theorem foldlM_exists_step {relation : σ → σ → Prop} (refl : ∀ state, relation state state)
    (trans : ∀ first second third, relation first second →
      relation second third → relation first third)
    (respected : ∀ state item result, item ∈ items →
      step state item = .ok result → relation state result)
    {start last : σ} (ok : items.foldlM step start = .ok last) :
    relation start last ∧ ∀ item ∈ items, ∃ before after,
      relation start before ∧ step before item = .ok after ∧ relation after last := by
  induction items generalizing start with
  | nil =>
    obtain rfl := Except.ok.inj ok
    exact ⟨refl start, by simp⟩
  | cons item items ih =>
    obtain ⟨middle, first, ok⟩ := bind_eq_ok_iff.mp ok
    have begun := respected start item middle (by simp) first
    obtain ⟨related, later⟩ := ih (fun state other result mem =>
        respected state other result (by simp [mem])) ok
    refine ⟨trans _ _ _ begun related, ?_⟩
    intro other mem
    rcases mem_cons.mp mem with rfl | mem
    · exact ⟨start, middle, refl start, first, related⟩
    · obtain ⟨before, after, reached, moved, left⟩ := later other mem
      exact ⟨before, after, trans _ _ _ begun reached, moved, left⟩

theorem foldlM_mono {step other : σ → β → Except ε σ}
    (same : ∀ state item result, step state item = .ok result →
      other state item = .ok result) {start last : σ}
    (ok : items.foldlM step start = .ok last) :
    items.foldlM other start = .ok last := by
  induction items generalizing start with
  | nil => exact ok
  | cons item items ih =>
    obtain ⟨middle, first, rest⟩ := bind_eq_ok_iff.mp ok
    exact bind_eq_ok_iff.mpr ⟨middle, same start item middle first, ih rest⟩

/-- Steps that succeed with some fuel each, and with more, have a fuel with
which they all succeed. -/
theorem foldlM_exists_fuel {step : Nat → σ → β → Except ε σ}
    (mono : ∀ {fuel larger state item result}, fuel ≤ larger →
      step fuel state item = .ok result → step larger state item = .ok result)
    (inv : List β → σ → Prop)
    (each : ∀ folded item later state, items = folded ++ item :: later →
      inv folded state → ∃ fuel result,
        step fuel state item = .ok result ∧ inv (folded ++ [item]) result)
    {start : σ} (holds : inv [] start) :
    ∃ fuel last, items.foldlM (step fuel) start = .ok last ∧ inv items last := by
  have general : ∀ later folded state, items = folded ++ later → inv folded state → ∃ fuel last,
        later.foldlM (step fuel) state = .ok last ∧ inv items last := by
    intro later
    induction later with
    | nil =>
      intro folded state split kept
      rw [append_nil] at split
      exact ⟨0, state, rfl, split ▸ kept⟩
    | cons item later ih =>
      intro folded state split kept
      obtain ⟨first, middle, moved, next⟩ := each folded item later state split kept
      rw [append_cons] at split
      obtain ⟨second, last, rest, restHolds⟩ := ih _ middle split next
      refine ⟨max first second, last, ?_, restHolds⟩
      apply bind_eq_ok_iff.mpr
      exact ⟨middle, mono (Nat.le_max_left _ _) moved,
        foldlM_mono (fun _ _ _ => mono (Nat.le_max_right _ _)) rest⟩
  exact general items [] start rfl holds

theorem mapM_eq_ok_iff {α : Type u} {change : β → Except ε α} {results : List α} :
    items.mapM change = .ok results ↔
      Forall₂ (fun item result => change item = .ok result) items results := by
  induction items generalizing results with
  | nil =>
    rw [mapM_nil, forall₂_nil_left_iff]
    exact ⟨fun same => (Except.ok.inj same).symm, fun same => same ▸ rfl⟩
  | cons item items ih =>
    rw [mapM_cons, forall₂_cons_left_iff, bind_eq_ok_iff]
    constructor
    · rintro ⟨first, changed, rest⟩
      obtain ⟨later, mapped, same⟩ := bind_eq_ok_iff.mp rest
      exact ⟨first, later, changed, ih.mp mapped, (Except.ok.inj same).symm⟩
    · rintro ⟨first, later, changed, related, rfl⟩
      refine ⟨first, changed, bind_eq_ok_iff.mpr ?_⟩
      exact ⟨later, ih.mpr related, rfl⟩

end List
