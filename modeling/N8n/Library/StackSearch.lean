import Mathlib.Data.Finset.Card
import Mathlib.Data.List.Count
import Mathlib.Logic.Relation

/-!
# Search with a stack

The search takes a vertex from a stack, ends if it is the target, and pushes the
successors that it has not taken yet.  A vertex may be on the stack several
times and is then taken again.
-/

universe u

namespace StackSearch

open List Nat

variable {α : Type u} [DecidableEq α] {next : α → List α} {target : α}
  {fuel : Nat} {seen stack : List α}

/-- The successors that are pushed, the last one on top. -/
def pushed (next : α → List α) (seen : List α) (vertex : α) : List α :=
  ((next vertex).filter fun other => other ∉ vertex :: seen).reverse

/-- Whether the target is met, or `none` when the fuel is used up. -/
def search (next : α → List α) (target : α) : Nat → List α → List α → Option Bool
  | 0, _, _ => none
  | _ + 1, _, [] => some false
  | fuel + 1, seen, vertex :: stack =>
    if vertex = target then some true
    else
      search next target fuel (vertex :: seen) (pushed next seen vertex ++ stack)

theorem mem_pushed {vertex other : α} : other ∈ pushed next seen vertex ↔
      other ∈ next vertex ∧ other ∉ vertex :: seen := by
  rw [pushed, mem_reverse, mem_filter, decide_eq_true_iff]

theorem search_mono {larger : Nat} {found : Bool} (le : fuel ≤ larger)
    (ended : search next target fuel seen stack = some found) :
    search next target larger seen stack = some found := by
  induction fuel generalizing larger seen stack with
  | zero => cases ended
  | succ fuel ih =>
    obtain ⟨larger, isSucc⟩ := exists_eq_succ_of_ne_zero
      (ne_of_gt (lt_of_lt_of_le (succ_pos fuel) le))
    subst isSucc
    cases stack with
    | nil => exact ended
    | cons vertex stack =>
      rw [search] at ended ⊢
      split at ended
      next met =>
        rw [if_pos met]
        exact ended
      next other =>
        rw [if_neg other]
        exact ih (succ_le_succ_iff.mp le) ended

theorem countP_pushed (vertex : α) : (pushed next seen vertex ++ stack).countP
        (fun other => other ∈ vertex :: seen) =
      stack.countP (fun other => other ∈ vertex :: seen) := by
  rw [countP_append]
  have fresh : (pushed next seen vertex).countP (fun other => other ∈ vertex :: seen) = 0 := by
    rw [countP_eq_zero]
    intro other mem taken
    exact (mem_pushed.mp mem).2 (of_decide_eq_true taken)
  rw [fresh, Nat.zero_add]

/-- Each pass takes an unseen vertex, or one that was taken before; there are
finitely many of the first, and only they are pushed. -/
theorem search_ends (target : α) (seen : List α) (vertices : Finset α)
    (closed : ∀ vertex ∈ vertices, ∀ other ∈ next vertex, other ∈ vertices)
    (inside : ∀ vertex ∈ stack, vertex ∈ vertices) :
    ∃ fuel found, search next target fuel seen stack = some found := by
  generalize unseenEq : (vertices.filter fun vertex => vertex ∉ seen).card = unseen
  generalize takenEq : stack.countP (fun vertex => vertex ∈ seen) = taken
  induction unseen using Nat.strongRecOn generalizing taken seen stack with
  | ind unseen fewerUnseen =>
    induction taken using Nat.strongRecOn generalizing seen stack with
    | ind taken fewerTaken =>
      cases stack with
      | nil => exact ⟨1, false, rfl⟩
      | cons vertex stack =>
        by_cases met : vertex = target
        · exact ⟨1, true, if_pos met⟩
        · have isInside := inside vertex mem_cons_self
          have stillInside : ∀ other ∈ pushed next seen vertex ++ stack, other ∈ vertices := by
            intro other mem
            rcases mem_append.mp mem with isPushed | onStack
            · exact closed vertex isInside other (mem_pushed.mp isPushed).1
            · exact inside other (mem_cons_of_mem vertex onStack)
          have rest : ∃ fuel found, search next target fuel (vertex :: seen)
              (pushed next seen vertex ++ stack) = some found := by
            by_cases before : vertex ∈ seen
            · have sameSeen (other : α) : other ∈ vertex :: seen ↔ other ∈ seen := by
                rw [mem_cons, or_iff_right_of_imp]
                intro same
                rw [same]
                exact before
              apply fewerTaken _ _ _ stillInside _ rfl
              · rw [countP_pushed, ← takenEq, countP_cons_of_pos
                    (p := fun other => decide (other ∈ seen))
                    (decide_eq_true before)]
                simp only [sameSeen]
                exact lt_succ_self _
              · simp only [sameSeen]
                exact unseenEq
            · refine fewerUnseen _ ?_ _ stillInside rfl _ rfl
              rw [← unseenEq]
              apply Finset.card_lt_card
              rw [Finset.ssubset_iff_of_subset]
              · refine ⟨vertex, ?_, ?_⟩
                · exact Finset.mem_filter.mpr ⟨isInside, before⟩
                · intro mem
                  exact (Finset.mem_filter.mp mem).2 mem_cons_self
              · apply Finset.monotone_filter_right
                intro other _ unseen taken
                exact unseen (mem_cons_of_mem vertex taken)
          obtain ⟨fuel, found, ended⟩ := rest
          refine ⟨fuel + 1, found, ?_⟩
          rw [search, if_neg met]
          exact ended

theorem reachable_of_search (ended : search next target fuel seen stack = some true) :
    ∃ vertex ∈ stack, Relation.ReflTransGen (fun a b => b ∈ next a) vertex target := by
  induction fuel generalizing seen stack with
  | zero => cases ended
  | succ fuel ih =>
    cases stack with
    | nil => cases ended
    | cons vertex stack =>
      rw [search] at ended
      split at ended
      next met =>
        exact ⟨vertex, mem_cons_self, met ▸ .refl⟩
      · obtain ⟨other, mem, path⟩ := ih ended
        rcases mem_append.mp mem with isPushed | onStack
        · exact ⟨vertex, mem_cons_self, .head (mem_pushed.mp isPushed).1 path⟩
        · exact ⟨other, mem_cons_of_mem vertex onStack, path⟩

theorem closed_of_search
    (handled : ∀ vertex ∈ seen, ∀ other ∈ next vertex, other ∈ seen ∨ other ∈ stack)
    (notMet : target ∉ seen)
    (ended : search next target fuel seen stack = some false) :
    ∃ taken : List α, (∀ vertex ∈ stack, vertex ∈ taken) ∧
      (∀ vertex ∈ seen, vertex ∈ taken) ∧ target ∉ taken ∧
      ∀ vertex ∈ taken, ∀ other ∈ next vertex, other ∈ taken := by
  induction fuel generalizing seen stack with
  | zero => cases ended
  | succ fuel ih =>
    cases stack with
    | nil =>
      refine ⟨seen, ?_, fun _ => id, notMet, ?_⟩
      · intro vertex mem
        cases mem
      · intro vertex mem other successor
        exact (handled vertex mem other successor).resolve_right not_mem_nil
    | cons vertex stack =>
      rw [search] at ended
      split at ended
      · cases ended
      next other =>
        obtain ⟨taken, onStack, wasSeen, notTaken, closed⟩ := ih (by
          intro handledVertex mem successor isNext
          by_cases isTaken : successor ∈ vertex :: seen
          · exact .inl isTaken
          · right
            rcases mem_cons.mp mem with same | before
            · subst same
              exact mem_append_left _ (mem_pushed.mpr ⟨isNext, isTaken⟩)
            · rcases handled handledVertex before successor isNext with
                seenBefore | waiting
              · exact absurd (mem_cons_of_mem vertex seenBefore) isTaken
              · rcases mem_cons.mp waiting with same | later
                · exact absurd (same ▸ mem_cons_self) isTaken
                · exact mem_append_right _ later)
          (by
            intro mem
            rcases mem_cons.mp mem with same | before
            · exact other same.symm
            · exact notMet before)
          ended
        refine ⟨taken, ?_, ?_, notTaken, closed⟩
        · intro waiting mem
          rcases mem_cons.mp mem with same | later
          · exact same ▸ wasSeen vertex mem_cons_self
          · exact onStack waiting (mem_append_right _ later)
        · intro before mem
          exact wasSeen before (mem_cons_of_mem vertex mem)

theorem search_spec (target : α) (vertices : Finset α)
    (closed : ∀ vertex ∈ vertices, ∀ other ∈ next vertex, other ∈ vertices)
    {start : α} (inside : start ∈ vertices) :
    ∃ bound found, (∀ fuel, bound ≤ fuel → search next target fuel [] [start] = some found) ∧
      (found = true ↔ Relation.ReflTransGen (fun a b => b ∈ next a) start target) := by
  have onStack : ∀ vertex ∈ [start], vertex ∈ vertices := by
    intro vertex mem
    rw [mem_singleton.mp mem]
    exact inside
  obtain ⟨bound, found, ended⟩ := search_ends target [] vertices closed onStack
  refine ⟨bound, found, fun fuel le => search_mono le ended, ?_⟩
  cases found with
  | true =>
    obtain ⟨vertex, mem, path⟩ := reachable_of_search ended
    rw [mem_singleton.mp mem] at path
    exact ⟨fun _ => path, fun _ => rfl⟩
  | false =>
    obtain ⟨taken, ofStack, _, notTaken, closedTaken⟩ := closed_of_search
      (fun _ mem => absurd mem not_mem_nil) not_mem_nil ended
    constructor
    · intro impossible
      cases impossible
    · intro path
      have isTaken (other : α) (reached :
          Relation.ReflTransGen (fun a b => b ∈ next a) start other) :
          other ∈ taken := by
        induction reached with
        | refl => exact ofStack start (mem_singleton_self start)
        | tail _ last ih => exact closedTaken _ ih _ last
      exact absurd (isTaken target path) notTaken

end StackSearch
