import Mathlib.Data.List.Basic

/-!
# The first best item

Of the items of a list that are admissible, a search keeps the first one with
the highest score.
-/

universe u

/-- `best` is the first admissible item of the highest score, if there is an
admissible item. -/
def IsFirstBest {α : Type u} (admissible : α → Prop) (score : α → Nat)
    (items : List α) : Option α → Prop
  | none => ∀ item ∈ items, ¬ admissible item
  | some best => ∃ before after, items = before ++ best :: after ∧ admissible best ∧
      (∀ item ∈ before, admissible item → score item < score best) ∧
      ∀ item ∈ after, admissible item → score item ≤ score best

namespace IsFirstBest

open List

variable {α : Type u} {admissible : α → Prop} {score : α → Nat}
  {items : List α} {best item : α} {found : Option α}

theorem nil : IsFirstBest admissible score [] none := by
  intro item mem
  cases mem

theorem le (isBest : IsFirstBest admissible score items (some best))
    (mem : item ∈ items) (isAdmissible : admissible item) :
    score item ≤ score best := by
  obtain ⟨before, after, split, _, earlier, later⟩ := isBest
  subst split
  rcases mem_append.mp mem with inBefore | rest
  · exact Nat.le_of_lt (earlier item inBefore isAdmissible)
  · rcases mem_cons.mp rest with same | inAfter
    · exact Nat.le_of_eq (congrArg score same)
    · exact later item inAfter isAdmissible

theorem mem (isBest : IsFirstBest admissible score items (some best)) : best ∈ items := by
  obtain ⟨before, after, split, _⟩ := isBest
  subst split
  exact mem_append_right _ mem_cons_self

theorem admissible_best (isBest : IsFirstBest admissible score items (some best)) :
    admissible best := by
  obtain ⟨_, _, _, isAdmissible, _⟩ := isBest
  exact isAdmissible

theorem keep (isBest : IsFirstBest admissible score items found)
    (notBetter : admissible item → ∃ best, found = some best ∧ score item ≤ score best) :
    IsFirstBest admissible score (items ++ [item]) found := by
  cases found with
  | none =>
    intro other mem isAdmissible
    rcases mem_append.mp mem with before | isItem
    · exact isBest other before isAdmissible
    · rw [mem_singleton.mp isItem] at isAdmissible
      obtain ⟨_, impossible, _⟩ := notBetter isAdmissible
      cases impossible
  | some best =>
    obtain ⟨before, after, split, isAdmissible, earlier, later⟩ := isBest
    subst split
    refine ⟨before, after ++ [item], by simp, isAdmissible, earlier, ?_⟩
    intro other mem otherAdmissible
    rcases mem_append.mp mem with inAfter | isItem
    · exact later other inAfter otherAdmissible
    · rw [mem_singleton.mp isItem] at otherAdmissible ⊢
      obtain ⟨_, same, notAbove⟩ := notBetter otherAdmissible
      rw [Option.some.inj same]
      exact notAbove

theorem take (isBest : IsFirstBest admissible score items found) (isAdmissible : admissible item)
    (better : ∀ best, found = some best → score best < score item) :
    IsFirstBest admissible score (items ++ [item]) (some item) := by
  refine ⟨items, [], rfl, isAdmissible, ?_, by simp⟩
  intro other mem otherAdmissible
  cases found with
  | none => exact absurd otherAdmissible (isBest other mem)
  | some best =>
    exact Nat.lt_of_le_of_lt (isBest.le mem otherAdmissible) (better best rfl)

/-- The best item has a further property exactly if each admissible item without
it is beaten by one with it. -/
theorem satisfies_iff (isBest : IsFirstBest admissible score items found) (property : α → Prop) :
    (∀ best, found = some best → property best) ↔
      ∀ before item after, items = before ++ item :: after → admissible item → ¬ property item →
        ∃ better, admissible better ∧ property better ∧
          ((better ∈ items ∧ score item < score better) ∨
            (better ∈ before ∧ score item = score better)) := by
  cases found with
  | none =>
    constructor
    · intro _ before item after split isAdmissible
      subst split
      exact absurd isAdmissible (isBest item (mem_append_right _ mem_cons_self))
    · intro _ best impossible
      cases impossible
  | some best =>
    constructor
    · intro holds before item after split isAdmissible lacks
      have has := holds best rfl
      have mem : item ∈ items := by
        rw [split]
        exact mem_append_right _ mem_cons_self
      refine ⟨best, isBest.admissible_best, has, ?_⟩
      rcases Nat.lt_or_eq_of_le (isBest.le mem isAdmissible) with less | same
      · exact .inl ⟨isBest.mem, less⟩
      · right
        refine ⟨?_, same⟩
        -- an equal score stands behind the best item
        obtain ⟨front, back, bestSplit, _, earlier, _⟩ := isBest
        rw [split] at bestSplit
        rcases append_eq_append_iff.mp bestSplit with
          ⟨middle, isFront, isRest⟩ | ⟨middle, isBefore, isRest⟩
        · cases middle with
          | nil =>
            rw [(List.cons.inj isRest).1] at lacks
            exact absurd has lacks
          | cons first middle =>
            obtain ⟨isFirst, _⟩ := List.cons.inj isRest
            have inFront : item ∈ front := by
              rw [isFront, isFirst]
              exact mem_append_right _ mem_cons_self
            have below := earlier item inFront isAdmissible
            rw [same] at below
            exact absurd below (Nat.lt_irrefl _)
        · cases middle with
          | nil =>
            rw [← (List.cons.inj isRest).1] at lacks
            exact absurd has lacks
          | cons first middle =>
            obtain ⟨isFirst, _⟩ := List.cons.inj isRest
            rw [isBefore, isFirst]
            exact mem_append_right _ mem_cons_self
    · intro beaten other isFound
      obtain ⟨before, after, split, isAdmissible, earlier, later⟩ := isBest
      have same := Option.some.inj isFound
      subst same
      by_contra lacks
      obtain ⟨better, betterAdmissible, _, above | ⟨inBefore, equal⟩⟩ :=
        beaten before best after split isAdmissible lacks
      · have notAbove := le ⟨before, after, split, isAdmissible, earlier, later⟩ above.1
          betterAdmissible
        omega
      · have below := earlier better inBefore betterAdmissible
        omega

end IsFirstBest
