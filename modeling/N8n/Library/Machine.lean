import Mathlib.Data.List.Infix
import Mathlib.Data.Option.Basic
import Mathlib.Order.WellFounded

/-!
# Machines

A machine moves from state to state at events, and its runs are the lists of
events that can happen one after the other.  What the steps keep holds after
every run; a property that only some steps spoil holds in all states of a run
exactly when the run avoids these steps.  Steps that lower a measure which no
step raises come to an end.
-/

universe u v

/-- The state behind an event.  `none` says that the event cannot happen. -/
abbrev Machine (σ : Type u) (ε : Type v) := σ → ε → Option σ

namespace Machine

variable {σ : Type u} {ε : Type v} {machine : Machine σ ε} {state last : σ} {events : List ε}

theorem of_guarded {p : Prop} [Decidable p] {next : σ}
    (moved : (if p then some next else none) = some last) :
    p ∧ next = last := by
  simpa only [Option.ite_none_right_eq_some, Option.some.injEq] using moved

def run (machine : Machine σ ε) : σ → List ε → Option σ
  | state, [] => some state
  | state, event :: events =>
    (machine state event).bind fun next => run machine next events

/-- Each step of a run meets the condition. -/
def Meets (machine : Machine σ ε) (condition : σ → ε → Prop) : σ → List ε → Prop
  | _, [] => True
  | state, event :: events => condition state event ∧
      ∀ next, machine state event = some next → Meets machine condition next events

/-- What is observed at the events of a run, as far as they can happen. -/
def observations {ω : Type*} (machine : Machine σ ε)
    (observe : σ → ε → Option ω) : σ → List ε → List ω
  | _, [] => []
  | state, event :: events =>
    match machine state event with
    | none => []
    | some next => (observe state event).toList ++ observations machine observe next events

/-- Each state of a run has the property. -/
def Always (machine : Machine σ ε) (property : σ → Prop) (state : σ) (events : List ε) : Prop :=
  ∀ earlier, earlier <+: events → ∀ reached,
    machine.run state earlier = some reached → property reached

instance decidableMeets {condition : σ → ε → Prop}
    [∀ state event, Decidable (condition state event)] :
    ∀ (state : σ) (events : List ε), Decidable (machine.Meets condition state events)
  | _, [] => isTrue True.intro
  | state, event :: events =>
    let later : Decidable (∀ next, machine state event = some next →
        Meets machine condition next events) :=
      match machine state event with
      | none => isTrue fun _ stepped => nomatch stepped
      | some reached =>
        @decidable_of_iff _ _ ⟨fun rest _ stepped => Option.some.inj stepped ▸ rest,
            fun rest => rest reached rfl⟩
          (decidableMeets reached events)
    @instDecidableAnd _ _ inferInstance later

theorem run_cons_eq_some {event : ε} : machine.run state (event :: events) = some last ↔
      ∃ next, machine state event = some next ∧ machine.run next events = some last :=
  Option.bind_eq_some_iff

theorem run_total (total : ∀ state event, ∃ next, machine state event = some next)
    (state : σ) (events : List ε) :
    ∃ last, machine.run state events = some last := by
  induction events generalizing state with
  | nil => exact ⟨state, rfl⟩
  | cons event events ih =>
    obtain ⟨next, moved⟩ := total state event
    obtain ⟨last, reached⟩ := ih next
    exact ⟨last, run_cons_eq_some.mpr ⟨next, moved, reached⟩⟩

variable {condition : σ → ε → Prop}

/-- What the steps that meet a condition keep holds after runs of such
steps. -/
theorem invariant_of_meets (inv : σ → Prop) (preserved : ∀ state event next, inv state →
      condition state event → machine state event = some next →
      inv next) (holds : inv state)
    (meets : machine.Meets condition state events)
    (reached : machine.run state events = some last) : inv last := by
  induction events generalizing state with
  | nil =>
    cases reached
    exact holds
  | cons event events ih =>
    obtain ⟨next, moved, rest⟩ := run_cons_eq_some.mp reached
    obtain ⟨met, later⟩ := meets
    apply ih
    · exact preserved state event next holds met moved
    · exact later next moved
    · exact rest

theorem invariant_of_run (inv : σ → Prop) (preserved : ∀ state event next, inv state →
      machine state event = some next → inv next)
    (holds : inv state)
    (reached : machine.run state events = some last) : inv last := by
  induction events generalizing state with
  | nil =>
    cases reached
    exact holds
  | cons event events ih =>
    obtain ⟨next, moved, rest⟩ := run_cons_eq_some.mp reached
    exact ih (preserved state event next holds moved) rest

theorem meets_of_forall (holds : ∀ state event, condition state event)
    (state : σ) (events : List ε) : machine.Meets condition state events := by
  induction events generalizing state with
  | nil => exact True.intro
  | cons event events ih => exact ⟨holds state event, fun next _ => ih next⟩

theorem meets_of_mem {condition : ε → Prop} (holds : ∀ event ∈ events, condition event) (state : σ) :
    machine.Meets (fun _ => condition) state events := by
  induction events generalizing state with
  | nil => exact True.intro
  | cons event events ih =>
    rw [List.forall_mem_cons] at holds
    exact ⟨holds.1, fun next _ => ih holds.2 next⟩

theorem Meets.and {other : σ → ε → Prop} (meets : machine.Meets condition state events)
    (meetsOther : machine.Meets other state events) :
    machine.Meets (fun state event => condition state event ∧ other state event) state events := by
  induction events generalizing state with
  | nil => exact True.intro
  | cons event events ih =>
    exact ⟨⟨meets.1, meetsOther.1⟩, fun next moved =>
      ih (meets.2 next moved) (meetsOther.2 next moved)⟩

theorem Meets.of_prefix {earlier : List ε}
    (meets : machine.Meets condition state events) (isPrefix : earlier <+: events) :
    machine.Meets condition state earlier := by
  induction events generalizing state earlier with
  | nil =>
    rw [List.prefix_nil.mp isPrefix]
    exact True.intro
  | cons event events ih =>
    cases earlier with
    | nil => exact True.intro
    | cons first rest =>
      obtain ⟨same, restPrefix⟩ := List.cons_prefix_cons.mp isPrefix
      subst same
      exact ⟨meets.1, fun next moved =>
        ih (meets.2 next moved) restPrefix⟩

/-- The steps of a run that meets a condition have each property that follows
from the condition and an invariant. -/
theorem Meets.of_invariant {property : σ → ε → Prop} (inv : σ → Prop)
    (preserved : ∀ state event next, inv state →
      condition state event → machine state event = some next →
      inv next)
    (safe : ∀ state event, inv state → condition state event →
      property state event) (holds : inv state)
    (meets : machine.Meets condition state events) :
    machine.Meets property state events := by
  induction events generalizing state with
  | nil => exact True.intro
  | cons event events ih =>
    obtain ⟨met, later⟩ := meets
    refine ⟨safe state event holds met, fun next moved => ?_⟩
    apply ih
    · exact preserved state event next holds met moved
    · exact later next moved

variable {inv property : σ → Prop}

/-- Runs of steps that meet a condition have a property that follows from an
invariant of these steps. -/
theorem always_of_meets (preserved : ∀ state event next, inv state →
      condition state event → machine state event = some next →
      inv next) (safe : ∀ state, inv state → property state)
    (holds : inv state) (meets : machine.Meets condition state events) :
    machine.Always property state events := by
  intro earlier isPrefix reached run
  apply safe
  exact invariant_of_meets inv preserved holds (meets.of_prefix isPrefix) run

theorem Always.tail {property : σ → Prop} {event : ε} {next : σ}
    (always : machine.Always property state (event :: events))
    (moved : machine state event = some next) :
    machine.Always property next events := by
  intro earlier isPrefix reached run
  apply always (event :: earlier)
  · exact List.cons_prefix_cons.mpr ⟨rfl, isPrefix⟩
  · exact run_cons_eq_some.mpr ⟨next, moved, run⟩

/-- If a step that does not meet the condition spoils the run for good, the
runs that come to a good end are runs of steps that meet the condition. -/
theorem meets_of_end {inv spoiled : σ → Prop} (good : σ → Prop)
    (preserved : ∀ state event next, inv state →
      condition state event → machine state event = some next →
      inv next) (detected : ∀ state event next, inv state →
      machine state event = some next → ¬ condition state event →
      spoiled next) (persists : ∀ state event next, spoiled state →
      machine state event = some next → spoiled next)
    (fails : ∀ state, spoiled state → ¬ good state) (holds : inv state)
    (reached : machine.run state events = some last) (ends : good last) :
    machine.Meets condition state events := by
  induction events generalizing state with
  | nil => exact True.intro
  | cons event events ih =>
    obtain ⟨next, moved, rest⟩ := run_cons_eq_some.mp reached
    have met : condition state event := by
      by_contra unmet
      have spoiledNext := detected state event next holds moved unmet
      apply fails last _ ends
      exact invariant_of_run spoiled persists spoiledNext rest
    refine ⟨met, ?_⟩
    intro other otherStep
    cases moved.symm.trans otherStep
    exact ih (preserved state event next holds met moved) rest

/-- If a step that does not meet the condition spoils the property, exactly
the runs of steps that meet the condition have the property throughout. -/
theorem always_iff_meets (preserved : ∀ state event next, inv state →
      condition state event → machine state event = some next →
      inv next) (safe : ∀ state, inv state → property state)
    (detected : ∀ state event next, inv state → machine state event = some next → property next →
      condition state event) (holds : inv state)
    (reached : machine.run state events = some last) :
    machine.Always property state events ↔ machine.Meets condition state events := by
  constructor
  · intro always
    induction events generalizing state with
    | nil => exact True.intro
    | cons event events ih =>
      obtain ⟨next, moved, rest⟩ := run_cons_eq_some.mp reached
      have propertyNext : property next := by
        apply always [event]
        · exact List.cons_prefix_cons.mpr ⟨rfl, List.nil_prefix⟩
        · exact run_cons_eq_some.mpr ⟨next, moved, rfl⟩
      have met := detected state event next holds moved propertyNext
      refine ⟨met, ?_⟩
      intro other otherStep
      cases moved.symm.trans otherStep
      exact ih (preserved state event next holds met moved) rest (always.tail moved)
  · exact always_of_meets preserved safe holds

/-- A run that goes on for ever. -/
def RunsForever (machine : Machine σ ε) (states : ℕ → σ) (events : ℕ → ε) : Prop :=
  ∀ time, machine (states time) (events time) = some (states (time + 1))

theorem RunsForever.invariant {states : ℕ → σ} {events : ℕ → ε}
    (runs : machine.RunsForever states events) (inv : σ → Prop)
    (preserved : ∀ state event next, inv state → machine state event = some next → inv next)
    (holds : inv (states 0)) (time : ℕ) : inv (states time) := by
  induction time with
  | zero => exact holds
  | succ time ih => exact preserved _ _ _ ih (runs time)

/-- If from some time on no step raises a measure, the steps that lower it come
to an end. -/
theorem ends_of_measure {ω : Type*} [Preorder ω] [WellFoundedLT ω]
    {states : ℕ → σ} {events : ℕ → ε} (lowers : ε → Prop) (measure : σ → ω)
    (start : ℕ) (falls : ∀ time, start ≤ time →
      measure (states (time + 1)) ≤ measure (states time) ∧ (lowers (events time) →
          measure (states (time + 1)) < measure (states time))) :
    ∃ bound, ∀ time, bound ≤ time → ¬ lowers (events time) := by
  -- a time from `start` on at which the measure is least
  obtain ⟨_, ⟨least, isLate, rfl⟩, isLeast⟩ := wellFounded_lt.has_min
    {value | ∃ time, start ≤ time ∧ measure (states time) = value}
    ⟨_, start, le_refl start, rfl⟩
  refine ⟨least, fun time later lower => ?_⟩
  have below (extra : ℕ) : measure (states (least + extra)) ≤ measure (states least) := by
    induction extra with
    | zero => exact le_refl _
    | succ extra ih =>
      exact (falls (least + extra) (le_trans isLate (Nat.le_add_right _ _))).1
        |>.trans ih
  obtain ⟨extra, rfl⟩ := Nat.exists_eq_add_of_le later
  have lowered := (falls _ (le_trans isLate later)).2 lower
  exact isLeast _ ⟨_, le_trans isLate (le_trans later (Nat.le_succ _)), rfl⟩
    (lowered.trans_le (below extra))

end Machine
