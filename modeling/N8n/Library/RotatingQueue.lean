import Mathlib.Data.List.Basic
import Mathlib.Data.List.Chain

/-!
# Queues that rotate

A worker takes the first entry of a queue.  An entry that cannot be worked on
yet goes to the end of the queue, and an entry that nobody wants is dropped.
The only guard against turning for ever is the key of the entry that was
deferred last: the worker gives up when it meets that key again.  So it gives
up exactly if two entries that follow each other have the same key, where the
first deferred entry follows the last one.
-/

universe u

namespace RotatingQueue

open List

/-- An entry that is not readable makes the worker fail. -/
structure Entry (κ : Type u) where
  key : κ
  dropped : Bool
  readable : Bool
deriving DecidableEq

inductive Turn (κ : Type u) where
  | emptied
  | failed
  | repeated
  | goesOn (last : Option κ) (queue : List (Entry κ))
deriving DecidableEq

variable {κ : Type u} [DecidableEq κ]

def turn (last : Option κ) : List (Entry κ) → Turn κ
  | [] => .emptied
  | entry :: rest =>
    if entry.readable = false then .failed
    else if last = some entry.key then .repeated
    else if entry.dropped then .goesOn last rest
    else .goesOn (some entry.key) (rest ++ [entry])

def turns : Nat → Option κ → List (Entry κ) → Turn κ
  | 0, last, queue => .goesOn last queue
  | count + 1, last, queue =>
    match turn last queue with
    | .goesOn last queue => turns count last queue
    | stopped => stopped

/-- The worker gives up after finitely many turns. -/
def GivesUp (last : Option κ) (queue : List (Entry κ)) : Prop :=
  ∃ count, turns count last queue = .repeated

/-- An entry has the key of the entry that was deferred last before it, and
all entries up to it are readable. -/
inductive Repeats : Option κ → List (Entry κ) → Prop where
  | here {entry : Entry κ} {rest : List (Entry κ)} :
      entry.readable = true → Repeats (some entry.key) (entry :: rest)
  | drop {last : Option κ} {entry : Entry κ} {rest : List (Entry κ)} :
      entry.readable = true → entry.dropped = true → Repeats last rest →
      Repeats last (entry :: rest)
  | defer {last : Option κ} {entry : Entry κ} {rest : List (Entry κ)} :
      entry.readable = true → entry.dropped = false →
      Repeats (some entry.key) rest → Repeats last (entry :: rest)

def deferred (queue : List (Entry κ)) : List (Entry κ) := queue.filter (!·.dropped)

/-- All entries are readable, and the first entry that stays has the key of
the last one. -/
def ComesRound (queue : List (Entry κ)) : Prop :=
  (∀ entry ∈ queue, entry.readable = true) ∧ ∃ first last, (deferred queue).head? = some first ∧
      (deferred queue).getLast? = some last ∧ first.key = last.key

variable {rest : List (Entry κ)}

omit [DecidableEq κ] in
theorem deferred_cons_of_dropped {entry : Entry κ} (dropped : entry.dropped = true) :
    deferred (entry :: rest) = deferred rest := by
  simp [deferred, dropped]

omit [DecidableEq κ] in
theorem deferred_cons {entry : Entry κ} (kept : entry.dropped = false) :
    deferred (entry :: rest) = entry :: deferred rest := by
  simp [deferred, kept]

variable {last : Option κ}

theorem givesUp_of_goesOn {next : Option κ} {queue after : List (Entry κ)}
    (goes : turn last queue = .goesOn next after) :
    GivesUp last queue ↔ GivesUp next after := by
  constructor
  · rintro ⟨count, stopped⟩
    cases count with
    | zero => cases stopped
    | succ count =>
      rw [turns, goes] at stopped
      exact ⟨count, stopped⟩
  · rintro ⟨count, stopped⟩
    refine ⟨count + 1, ?_⟩
    rw [turns, goes]
    exact stopped

variable {queue : List (Entry κ)}

theorem not_givesUp_of_failed (failed : turn last queue = .failed) : ¬ GivesUp last queue := by
  rintro ⟨count, stopped⟩
  cases count with
  | zero => cases stopped
  | succ count =>
    rw [turns, failed] at stopped
    cases stopped

theorem givesUp_of_repeated (repeated : turn last queue = .repeated) : GivesUp last queue :=
  ⟨1, by rw [turns, repeated]⟩

/-- A queue in which no entry follows one with its key turns for ever. -/
theorem not_givesUp_of_isChain {last : κ} (readable : ∀ entry ∈ queue, entry.readable = true)
    (kept : ∀ entry ∈ queue, entry.dropped = false)
    (ends : (queue.getLast?.map Entry.key).getD last = last)
    (chain : List.IsChain (· ≠ ·) (last :: queue.map Entry.key)) :
    ¬ GivesUp (some last) queue := by
  rintro ⟨count, stopped⟩
  induction count generalizing last queue with
  | zero => cases stopped
  | succ count ih =>
    rw [turns] at stopped
    cases queue with
    | nil => cases stopped
    | cons entry rest =>
      rw [map_cons, isChain_cons_cons] at chain
      obtain ⟨apart, restChain⟩ := chain
      have goes : turn (some last) (entry :: rest) =
          .goesOn (some entry.key) (rest ++ [entry]) := by
        simp [turn, readable entry mem_cons_self, kept entry mem_cons_self, apart]
      rw [goes] at stopped
      refine ih ?_ ?_ ?_ ?_ stopped
      · intro other mem
        apply readable
        simpa [or_comm] using mem
      · intro other mem
        apply kept
        simpa [or_comm] using mem
      · simp
      · rw [map_append, ← cons_append]
        apply List.IsChain.append restChain (List.IsChain.singleton _)
        intro before isLast after isFirst
        cases isFirst
        -- the entry before is the last one of the queue
        have lastKey : before = last := by
          cases rest with
          | nil =>
            simp at isLast ends
            rw [← isLast, ends]
          | cons second others =>
            rw [getLast?_cons_cons] at ends
            simp only [map_cons, getLast?_cons_cons] at isLast
            rw [← map_cons, getLast?_map] at isLast
            rw [isLast] at ends
            exact ends
        rw [lastKey]
        exact apart

/-! ## The first pass through the queue -/

/-- The key deferred last after a pass through the queue. -/
def lastDeferred (last : Option κ) (queue : List (Entry κ)) : Option κ :=
  ((deferred queue).getLast?.map Entry.key).or last

omit [DecidableEq κ] in
theorem lastDeferred_cons {entry : Entry κ} (kept : entry.dropped = false) :
    lastDeferred last (entry :: rest) = lastDeferred (some entry.key) rest := by
  rw [lastDeferred, lastDeferred, deferred_cons kept]
  cases deferred rest with
  | nil => rfl
  | cons first others =>
    rfl

theorem givesUp_of_repeats (repeats : Repeats last queue) (behind : List (Entry κ)) :
    GivesUp last (queue ++ behind) := by
  induction repeats generalizing behind with
  | here readable =>
    apply givesUp_of_repeated
    simp [turn, readable]
  | @drop last entry rest readable dropped _ ih =>
    by_cases same : last = some entry.key
    · apply givesUp_of_repeated
      simp [turn, readable, same]
    · have goes : turn last (entry :: rest ++ behind) = .goesOn last (rest ++ behind) := by
        simp [turn, readable, same, dropped]
      exact (givesUp_of_goesOn goes).mpr (ih behind)
  | @defer last entry rest readable kept _ ih =>
    by_cases same : last = some entry.key
    · apply givesUp_of_repeated
      simp [turn, readable, same]
    · have goes : turn last (entry :: rest ++ behind) =
          .goesOn (some entry.key) (rest ++ (behind ++ [entry])) := by
        simp [turn, readable, same, kept]
      exact (givesUp_of_goesOn goes).mpr (ih (behind ++ [entry]))

theorem not_givesUp_of_unreadable (unrepeated : ¬ Repeats last queue)
    (unreadable : ∃ entry ∈ queue, entry.readable = false)
    (behind : List (Entry κ)) : ¬ GivesUp last (queue ++ behind) := by
  induction queue generalizing last behind with
  | nil =>
    obtain ⟨entry, mem, _⟩ := unreadable
    cases mem
  | cons entry rest ih =>
    cases readable : entry.readable with
    | false =>
      apply not_givesUp_of_failed
      simp [turn, readable]
    | true =>
      have apart : last ≠ some entry.key := by
        rintro rfl
        exact unrepeated (.here readable)
      have later : ∃ other ∈ rest, other.readable = false := by
        obtain ⟨other, mem, fails⟩ := unreadable
        rcases mem_cons.mp mem with rfl | mem
        · rw [readable] at fails
          cases fails
        · exact ⟨other, mem, fails⟩
      cases dropped : entry.dropped with
      | true =>
        have goes : turn last (entry :: rest ++ behind) = .goesOn last (rest ++ behind) := by
          simp [turn, readable, apart, dropped]
        rw [givesUp_of_goesOn goes]
        exact ih (fun repeats =>
          unrepeated (.drop readable dropped repeats)) later behind
      | false =>
        have goes : turn last (entry :: rest ++ behind) =
            .goesOn (some entry.key) (rest ++ (behind ++ [entry])) := by
          simp [turn, readable, apart, dropped]
        rw [givesUp_of_goesOn goes]
        exact ih (fun repeats =>
          unrepeated (.defer readable dropped repeats)) later _

theorem givesUp_iff_of_pass (unrepeated : ¬ Repeats last queue)
    (readable : ∀ entry ∈ queue, entry.readable = true) (behind : List (Entry κ)) :
    GivesUp last (queue ++ behind) ↔
      GivesUp (lastDeferred last queue) (behind ++ deferred queue) := by
  induction queue generalizing last behind with
  | nil => simp [lastDeferred, deferred]
  | cons entry rest ih =>
    have reads : entry.readable = true := readable entry mem_cons_self
    have restReadable : ∀ other ∈ rest, other.readable = true :=
      fun other mem => readable other (mem_cons_of_mem _ mem)
    have apart : last ≠ some entry.key := by
      rintro rfl
      exact unrepeated (.here reads)
    cases dropped : entry.dropped with
    | true =>
      have goes : turn last (entry :: rest ++ behind) = .goesOn last (rest ++ behind) := by
        simp [turn, reads, apart, dropped]
      rw [givesUp_of_goesOn goes, ih (fun repeats =>
        unrepeated (.drop reads dropped repeats)) restReadable,
        lastDeferred, lastDeferred, deferred_cons_of_dropped dropped]
    | false =>
      have goes : turn last (entry :: rest ++ behind) =
          .goesOn (some entry.key) (rest ++ (behind ++ [entry])) := by
        simp [turn, reads, apart, dropped]
      rw [givesUp_of_goesOn goes, ih (fun repeats =>
        unrepeated (.defer reads dropped repeats)) restReadable,
        lastDeferred_cons dropped, deferred_cons dropped,
        append_assoc, singleton_append]

omit [DecidableEq κ] in
theorem isChain_deferred (unrepeated : ¬ Repeats last queue)
    (readable : ∀ entry ∈ queue, entry.readable = true) :
    List.IsChain (· ≠ ·) (last.toList ++ (deferred queue).map Entry.key) := by
  induction queue generalizing last with
  | nil => cases last <;> simp [deferred]
  | cons entry rest ih =>
    have reads : entry.readable = true := readable entry mem_cons_self
    have restReadable : ∀ other ∈ rest, other.readable = true :=
      fun other mem => readable other (mem_cons_of_mem _ mem)
    cases dropped : entry.dropped with
    | true =>
      rw [deferred_cons_of_dropped dropped]
      exact ih (fun repeats =>
        unrepeated (.drop reads dropped repeats)) restReadable
    | false =>
      have chain := ih (fun repeats =>
        unrepeated (.defer reads dropped repeats)) restReadable
      rw [deferred_cons dropped, map_cons]
      cases last with
      | none => exact chain
      | some key =>
        apply isChain_cons_cons.mpr
        refine ⟨?_, chain⟩
        rintro rfl
        exact unrepeated (.here reads)

/-- The worker gives up exactly if an entry follows one with its key, in the
queue or where the queue comes round. -/
theorem givesUp_iff : GivesUp last queue ↔ Repeats last queue ∨ ComesRound queue := by
  by_cases repeats : Repeats last queue
  · have ends := givesUp_of_repeats repeats []
    rw [append_nil] at ends
    exact ⟨fun _ => .inl repeats, fun _ => ends⟩
  by_cases readable : ∀ entry ∈ queue, entry.readable = true
  · have pass := givesUp_iff_of_pass repeats readable []
    rw [append_nil, nil_append] at pass
    rw [pass]
    have chain := isChain_deferred repeats readable
    have keeps : ∀ entry ∈ deferred queue, entry.readable = true ∧ entry.dropped = false := by
      intro entry mem
      obtain ⟨listed, kept⟩ := mem_filter.mp mem
      exact ⟨readable entry listed, by simpa using kept⟩
    constructor
    · intro ends
      right
      refine ⟨readable, ?_⟩
      cases left : deferred queue with
      | nil =>
        obtain ⟨count, stopped⟩ := ends
        rw [left] at stopped
        cases count <;> cases stopped
      | cons first others =>
        refine ⟨first, (first :: others).getLast (by simp), rfl,
          getLast?_eq_getLast_of_ne_nil _, ?_⟩
        by_contra apart
        have isLast : lastDeferred last queue = some ((first :: others).getLast (by simp)).key := by
          rw [lastDeferred, left, getLast?_eq_getLast_of_ne_nil (by simp)]
          rfl
        rw [isLast] at ends
        refine not_givesUp_of_isChain (fun entry mem =>
          (keeps entry mem).1) (fun entry mem =>
          (keeps entry mem).2) ?_ ?_ ends
        · rw [left, getLast?_eq_getLast_of_ne_nil (by simp)]
          rfl
        · rw [left, map_cons, isChain_cons_cons]
          refine ⟨Ne.symm apart, ?_⟩
          rw [left, map_cons] at chain
          exact chain.right_of_append
    · rintro (impossible | ⟨_, first, final, isFirst, isLast, same⟩)
      · exact absurd impossible repeats
      · apply givesUp_of_repeated
        have before : lastDeferred last queue = some first.key := by
          rw [lastDeferred, isLast, same]
          rfl
        rw [before]
        obtain ⟨others, left⟩ := head?_eq_some_iff.mp isFirst
        have reads := (keeps first (by rw [left]; exact mem_cons_self)).1
        rw [left]
        simp [turn, reads]
  · have unreadable : ∃ entry ∈ queue, entry.readable = false := by
      by_contra none
      apply readable
      intro entry mem
      by_contra fails
      exact none ⟨entry, mem, by simpa using fails⟩
    have never := not_givesUp_of_unreadable repeats unreadable []
    rw [append_nil] at never
    constructor
    · exact fun ends => absurd ends never
    · rintro (impossible | round)
      · exact absurd impossible repeats
      · exact absurd round.1 readable

end RotatingQueue
