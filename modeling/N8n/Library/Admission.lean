import Mathlib.Data.List.Nodup
import Mathlib.Tactic.Common

/-!
# Admission to a limited number of places

Clients arrive, wait in a queue while all places are taken, are admitted in
the order of their arrival, and leave.  A waiting client may be withdrawn.
-/

universe u

/-- The clients that hold a place, the queue, and everything that happened:
the clients that arrived, were admitted and were withdrawn so far. -/
structure Admission (α : Type u) where
  running : List α := []
  waiting : List α := []
  arrived : List α := []
  admitted : List α := []
  withdrawn : List α := []

namespace Admission

open List

variable {α : Type u} {limit : Nat} {admission : Admission α} {client : α}

/-- Give a place to a client. -/
def letIn (admission : Admission α) (client : α) : Admission α :=
  { admission with
    running := admission.running ++ [client]
    admitted := admission.admitted ++ [client] }

/-- Give a place to the head of the queue. -/
def admitNext (admission : Admission α) : Admission α :=
  match admission.waiting with
  | [] => admission
  | next :: waiting => { admission with waiting := waiting }.letIn next

def arrive (limit : Nat) (admission : Admission α) (client : α) : Admission α :=
  let admission := { admission with arrived := admission.arrived ++ [client] }
  if admission.running.length < limit then admission.letIn client
  else { admission with waiting := admission.waiting ++ [client] }

def leave [DecidableEq α] (admission : Admission α) (client : α) : Admission α :=
  { admission with running := admission.running.erase client }.admitNext

def withdraw [DecidableEq α] (admission : Admission α) (client : α) : Admission α :=
  { admission with
    waiting := admission.waiting.erase client
    withdrawn := admission.withdrawn ++ [client] }

/-- At most `limit` clients hold a place, clients are admitted in the order
of their arrival, withdrawn clients are not, and none waits at a free
place. -/
structure Fair (limit : Nat) (admission : Admission α) : Prop where
  limited : admission.running.length ≤ limit
  ordered : admission.admitted.Sublist admission.arrived
  withheld : ∀ client ∈ admission.withdrawn, client ∉ admission.admitted
  busy : admission.waiting ≠ [] → limit ≤ admission.running.length

/-- The invariant behind `Fair`. -/
structure Sound (limit : Nat) (admission : Admission α) : Prop where
  limited : admission.running.length ≤ limit
  busy : admission.waiting ≠ [] → admission.running.length = limit
  ordered : (admission.admitted ++ admission.waiting).Sublist admission.arrived
  distinct : admission.arrived.Nodup
  withheld : ∀ client ∈ admission.withdrawn, client ∈ admission.arrived ∧
    client ∉ admission.admitted ++ admission.waiting

theorem sound_empty (limit : Nat) : Sound limit ({} : Admission α) := by
  constructor <;> simp

theorem Sound.fair (sound : Sound limit admission) : Fair limit admission := by
  constructor
  · exact sound.limited
  · exact (sublist_append_left _ _).trans sound.ordered
  · intro client mem admitted
    apply (sound.withheld client mem).2
    exact mem_append_left _ admitted
  · intro waits
    exact Nat.le_of_eq (sound.busy waits).symm

theorem Sound.admitNext (limited : admission.running.length < limit)
    (busy : admission.waiting ≠ [] → admission.running.length + 1 = limit)
    (ordered : (admission.admitted ++ admission.waiting).Sublist admission.arrived)
    (distinct : admission.arrived.Nodup)
    (withheld : ∀ client ∈ admission.withdrawn, client ∈ admission.arrived ∧
      client ∉ admission.admitted ++ admission.waiting) :
    Sound limit admission.admitNext := by
  cases queue : admission.waiting with
  | nil =>
    have unchanged : admission.admitNext = admission := by
      simp [Admission.admitNext, queue]
    rw [unchanged]
    exact ⟨Nat.le_of_lt limited, fun waits => absurd queue waits, ordered, distinct, withheld⟩
  | cons next waiting =>
    rw [queue] at busy ordered withheld
    have full : admission.running.length + 1 = limit := busy (by simp)
    have same : admission.admitted ++ [next] ++ waiting =
        admission.admitted ++ next :: waiting := by simp
    simp only [Admission.admitNext, queue, letIn]
    constructor
    · simp [full]
    · simp [full]
    · rw [same]
      exact ordered
    · exact distinct
    · rw [same]
      exact withheld

theorem Sound.arrive (sound : Sound limit admission) (fresh : client ∉ admission.arrived) :
    Sound limit (admission.arrive limit client) := by
  have distinct : (admission.arrived ++ [client]).Nodup := by
    simpa [nodup_append] using ⟨sound.distinct, fun other mem same => fresh (same ▸ mem)⟩
  have ordered : (admission.admitted ++ admission.waiting ++
      [client]).Sublist (admission.arrived ++ [client]) :=
    sound.ordered.append (List.Sublist.refl _)
  have withheld : ∀ other ∈ admission.withdrawn, other ∈ admission.arrived ++ [client] ∧
        other ∉ admission.admitted ++ admission.waiting ++ [client] := by
    intro other mem
    obtain ⟨arrived, notAdmitted⟩ := sound.withheld other mem
    refine ⟨mem_append_left _ arrived, ?_⟩
    intro listed
    rcases mem_append.mp listed with old | new
    · exact notAdmitted old
    · exact fresh (mem_singleton.mp new ▸ arrived)
  simp only [Admission.arrive]
  split
  next free =>
    have queue : admission.waiting = [] := by
      by_contra waits
      exact absurd (sound.busy waits) (Nat.ne_of_lt free)
    constructor
    · simp [letIn]
      omega
    · simp [letIn, queue]
    · simpa [letIn, queue] using ordered
    · exact distinct
    · simpa [letIn, queue] using withheld
  next full =>
    have limited := sound.limited
    constructor
    · exact limited
    · intro _
      exact Nat.le_antisymm limited (Nat.le_of_not_lt full)
    · simpa using ordered
    · exact distinct
    · simpa using withheld

theorem Sound.leave [DecidableEq α] (sound : Sound limit admission)
    (mem : client ∈ admission.running) :
    Sound limit (admission.leave client) := by
  have length := length_erase_of_mem mem
  have positive := length_pos_of_mem mem
  have limited := sound.limited
  apply Sound.admitNext
  · simp only
    omega
  · intro waits
    have full := sound.busy waits
    simp only
    omega
  · exact sound.ordered
  · exact sound.distinct
  · exact sound.withheld

theorem Sound.withdraw [DecidableEq α] (sound : Sound limit admission)
    (mem : client ∈ admission.waiting) :
    Sound limit (admission.withdraw client) := by
  have shorter : (admission.waiting.erase client).Sublist
      admission.waiting := erase_sublist
  have nodup := sound.ordered.nodup sound.distinct
  obtain ⟨_, waitingNodup, disjoint⟩ := nodup_append.mp nodup
  constructor
  · exact sound.limited
  · intro waits
    apply sound.busy
    intro empty
    simp [empty] at mem
  · exact (List.Sublist.append (List.Sublist.refl _) shorter).trans sound.ordered
  · exact sound.distinct
  · intro other listed
    rcases mem_append.mp listed with old | new
    · obtain ⟨arrived, absent⟩ := sound.withheld other old
      refine ⟨arrived, fun inside => absent ?_⟩
      rcases mem_append.mp inside with admitted | waiting
      · exact mem_append_left _ admitted
      · exact mem_append_right _ (shorter.subset waiting)
    · obtain rfl := mem_singleton.mp new
      refine ⟨sound.ordered.subset (mem_append_right _ mem), ?_⟩
      intro inside
      rcases mem_append.mp inside with admitted | waiting
      · exact disjoint other admitted other mem rfl
      · exact waitingNodup.not_mem_erase waiting

end Admission
