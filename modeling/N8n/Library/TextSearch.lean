import Mathlib.Data.List.Basic

/-!
# Searching a text for a pattern

`replaceFirst` replaces the first occurrence of a pattern.  A text in which no
occurrence starts, `Unmatched`, is left alone.
-/

universe u

namespace TextSearch

open List

variable {α : Type u} {pattern replacement text rest : List α}

/-- No occurrence of the pattern in `text ++ rest` starts within `text`. -/
def Unmatched (pattern : List α) : (text rest : List α) → Prop
  | [], _ => True
  | char :: text, rest =>
    ¬ pattern <+: char :: (text ++ rest) ∧ Unmatched pattern text rest

@[simp] theorem unmatched_nil : Unmatched pattern [] rest := trivial

theorem unmatched_cons {char : α} : Unmatched pattern (char :: text) rest ↔
      ¬ pattern <+: char :: (text ++ rest) ∧ Unmatched pattern text rest :=
  Iff.rfl

theorem unmatched_append {left right : List α} :
    Unmatched pattern (left ++ right) rest ↔ Unmatched pattern left (right ++ rest) ∧
        Unmatched pattern right rest := by
  induction left with
  | nil => simp
  | cons char left ih =>
    rw [cons_append, unmatched_cons, unmatched_cons, ih, append_assoc, and_assoc]

theorem Unmatched.cons_pattern {first : α} (unmatched : Unmatched pattern text rest)
    (next : ¬ pattern <+: rest) :
    Unmatched (first :: pattern) text rest := by
  induction text with
  | nil => trivial
  | cons char text ih =>
    refine ⟨?_, ih unmatched.2⟩
    intro matched
    have shifted := (cons_prefix_cons.mp matched).2
    cases text with
    | nil => exact next shifted
    | cons char text => exact unmatched.2.1 shifted

/-- Whether a doubled character occurs at the end of a text depends only on the
first character behind it. -/
theorem unmatched_pair_iff {char : α} : Unmatched [char, char] text rest ↔
      Unmatched [char, char] text [] ∧ ¬ (text.getLast? = some char ∧ rest.head? = some char) := by
  induction text with
  | nil => simp
  | cons first text ih =>
    rw [unmatched_cons, unmatched_cons, ih]
    cases text with
    | nil =>
      cases rest with
      | nil => simp
      | cons next rest =>
        simp [cons_prefix_cons, eq_comm]
    | cons second text =>
      simp [cons_prefix_cons, and_assoc]

variable {first other second last : List α}

theorem append_cons_inj_of_first {separator : α} (notFirst : separator ∉ first)
    (notOther : separator ∉ other)
    (same : first ++ separator :: second = other ++ separator :: last) :
    first = other ∧ second = last := by
  induction first generalizing other with
  | nil =>
    cases other with
    | nil => simpa using same
    | cons head tail =>
      obtain ⟨rfl, _⟩ := cons_eq_cons.mp same
      exact absurd mem_cons_self notOther
  | cons head tail ih =>
    cases other with
    | nil =>
      obtain ⟨rfl, _⟩ := cons_eq_cons.mp same
      exact absurd mem_cons_self notFirst
    | cons otherHead otherTail =>
      obtain ⟨rfl, later⟩ := cons_eq_cons.mp same
      obtain ⟨rfl, seconds⟩ := ih (fun mem => notFirst (mem_cons_of_mem _ mem))
        (fun mem => notOther (mem_cons_of_mem _ mem)) later
      exact ⟨rfl, seconds⟩

theorem append_cons_inj_of_last {separator : α} (notSecond : separator ∉ second)
    (notLast : separator ∉ last)
    (same : first ++ separator :: second = other ++ separator :: last) :
    first = other ∧ second = last := by
  have reversed := congrArg List.reverse same
  simp only [reverse_append, reverse_cons, append_assoc, singleton_append] at reversed
  obtain ⟨back, front⟩ := append_cons_inj_of_first (by simpa using notSecond)
    (by simpa using notLast) reversed
  exact ⟨reverse_injective front, reverse_injective back⟩

variable [DecidableEq α]

def replaceFirst (pattern replacement : List α) : List α → List α
  | [] => []
  | char :: text =>
    if pattern <+: char :: text then
      replacement ++ (char :: text).drop pattern.length
    else char :: replaceFirst pattern replacement text

theorem replaceFirst_append (unmatched : Unmatched pattern text rest) :
    replaceFirst pattern replacement (text ++ rest) =
      text ++ replaceFirst pattern replacement rest := by
  induction text with
  | nil => rfl
  | cons char text ih =>
    rw [cons_append, replaceFirst, if_neg unmatched.1, ih unmatched.2, cons_append]

theorem replaceFirst_of_unmatched (unmatched : Unmatched pattern text []) :
    replaceFirst pattern replacement text = text := by
  have replaced : replaceFirst pattern replacement (text ++ []) =
      text ++ replaceFirst pattern replacement [] :=
    replaceFirst_append unmatched
  simpa [replaceFirst] using replaced

theorem replaceFirst_match (first : α) :
    replaceFirst (first :: pattern) replacement (first :: pattern ++ rest) =
      replacement ++ rest := by
  have matched : first :: pattern <+: first :: (pattern ++ rest) :=
    prefix_append (first :: pattern) rest
  rw [cons_append, replaceFirst, if_pos matched]
  simp

/-- Replace all matches from left to right.  A match is given by what replaces
it and by its length. -/
def replaceMatches (matchAt : List α → Option (List α × Nat)) : List α → List α
  | [] => []
  | char :: text =>
    match matchAt (char :: text) with
    | some (replaced, length) =>
      replaced ++ replaceMatches matchAt (text.drop (length - 1))
    | none => char :: replaceMatches matchAt text
termination_by text => text.length
decreasing_by all_goals simp only [length_drop, length_cons]; omega

end TextSearch
