import Mathlib.Data.List.Basic
import Mathlib.Data.List.Infix
import Mathlib.Order.Basic

/-!
# Patterns with wildcards

A pattern is a list of wildcards, each for one character or for any sequence of
characters.  The patterns of `LIKE` and `GLOB` are read as such lists.
-/

inductive Wildcard where
  | anySequence
  | one (accepts : Char → Bool)

namespace Wildcard

open List

def literal (char : Char) : Wildcard := .one fun other => other = char

/-- No text matches a pattern with it. -/
def never : Wildcard := .one fun _ => false

def isMatch : List Wildcard → List Char → Bool
  | [], text => text.isEmpty
  | .anySequence :: rest, text => text.tails.any fun tail => isMatch rest tail
  | .one _ :: _, [] => false
  | .one accepts :: rest, char :: text => accepts char && isMatch rest text

variable (pattern : List Char)

/-- `%` stands for any sequence, and each other character for itself. -/
def percentPattern : List Wildcard :=
  pattern.map fun char => if char = '%' then .anySequence else literal char

/-- A text contains a part that matches, or a pattern with wildcards of its own
matches the whole text. -/
def searchPattern : List Wildcard :=
  if '%' ∈ pattern then percentPattern pattern
  else .anySequence :: (pattern.map literal ++ [.anySequence])

theorem percentPattern_of_not_mem {pattern : List Char} (noPercent : '%' ∉ pattern) :
    percentPattern pattern = pattern.map literal := by
  apply map_congr_left
  intro char mem
  apply if_neg
  rintro rfl
  exact noPercent mem

/-- What a pattern without wildcards of its own is completed to. -/
def addPercents : List Char :=
  if '%' ∈ pattern then pattern else '%' :: (pattern ++ ['%'])

theorem percentPattern_addPercents :
    percentPattern (addPercents pattern) = searchPattern pattern := by
  rw [addPercents, searchPattern]
  split
  · rfl
  next noPercent =>
    rw [← percentPattern_of_not_mem noPercent]
    simp [percentPattern]

def likeWildcard (char : Char) : Wildcard :=
  if char = '%' then .anySequence
  else if char = '_' then .one fun _ => true
  else literal char

/-- A pattern of `LIKE` with an escape character. -/
def likePattern (escape : Char) : List Char → List Wildcard
  | [] => []
  | [char] => if char = escape then [never] else [likeWildcard char]
  | char :: next :: rest =>
    if char = escape then literal next :: likePattern escape rest
    else likeWildcard char :: likePattern escape (next :: rest)

/-!
## Comparisons of characters

An operator that folds case compares a character of the pattern with one of the
text in its own way.  What is special in a pattern is read before that.
-/

section Folding

variable (same : Char → Char → Bool)

def literalBy (char : Char) : Wildcard := .one (same char)

def percentPatternBy (pattern : List Char) : List Wildcard :=
  pattern.map fun char => if char = '%' then .anySequence else literalBy same char

def likeWildcardBy (char : Char) : Wildcard :=
  if char = '%' then .anySequence
  else if char = '_' then .one fun _ => true
  else literalBy same char

def likePatternBy (escape : Char) : List Char → List Wildcard
  | [] => []
  | [char] => if char = escape then [never] else [likeWildcardBy same char]
  | char :: next :: rest =>
    if char = escape then literalBy same next :: likePatternBy escape rest
    else likeWildcardBy same char :: likePatternBy escape (next :: rest)

theorem likePatternBy_cons {escape char : Char} (notEscape : char ≠ escape) (rest : List Char) :
    likePatternBy same escape (char :: rest) =
      likeWildcardBy same char :: likePatternBy same escape rest := by
  cases rest with
  | nil => simp only [likePatternBy, if_neg notEscape]
  | cons next rest => rw [likePatternBy, if_neg notEscape]

theorem likePatternBy_escape (escape next : Char) (rest : List Char) :
    likePatternBy same escape (escape :: next :: rest) =
      literalBy same next :: likePatternBy same escape rest := by
  rw [likePatternBy, if_pos rfl]

end Folding

theorem likePattern_eq (escape : Char) (pattern : List Char) : likePattern escape pattern =
      likePatternBy (fun char other => other = char) escape pattern := by
  induction pattern using likePattern.induct escape with
  | case1 => rfl
  | case2 => rfl
  | case3 => rfl
  | case4 next rest ih =>
    rw [likePattern, likePatternBy, if_pos rfl, if_pos rfl, ih]
    rfl
  | case5 char next rest notEscape ih =>
    rw [likePattern, likePatternBy, if_neg notEscape, if_neg notEscape, ih]
    rfl

/-- The escape character and `_` are escaped. -/
def escapeLike (escape : Char) (pattern : List Char) : List Char :=
  pattern.flatMap fun char =>
    if char = escape ∨ char = '_' then [escape, char] else [char]

theorem escapeLike_cons (escape char : Char) (rest : List Char) : escapeLike escape (char :: rest) =
      (if char = escape ∨ char = '_' then [escape, char] else [char]) ++ escapeLike escape rest :=
  flatMap_cons

theorem likePatternBy_escapeLike (same : Char → Char → Bool) {escape : Char}
    (notPercent : escape ≠ '%') (pattern : List Char) :
    likePatternBy same escape (escapeLike escape pattern) = percentPatternBy same pattern := by
  induction pattern with
  | nil => rfl
  | cons char rest ih =>
    rw [escapeLike_cons, percentPatternBy, map_cons, ← percentPatternBy]
    split
    next isEscaped =>
      have notWildcard : char ≠ '%' := by
        intro isPercent
        rcases isEscaped with isEscape | isUnderscore
        · exact notPercent (isEscape.symm.trans isPercent)
        · exact absurd (isUnderscore.symm.trans isPercent) (by decide)
      rw [if_neg notWildcard]
      exact (likePatternBy_escape same escape char _).trans (congrArg _ ih)
    next isPlain =>
      obtain ⟨notEscape, notUnderscore⟩ := not_or.mp isPlain
      rw [singleton_append, likePatternBy_cons same notEscape, ih,
        likeWildcardBy, if_neg notUnderscore]

theorem likePattern_escapeLike {escape : Char} (notPercent : escape ≠ '%') (pattern : List Char) :
    likePattern escape (escapeLike escape pattern) = percentPattern pattern :=
  (likePattern_eq escape _).trans (likePatternBy_escapeLike _ notPercent pattern)

/-- Where the reading of a `GLOB` pattern is: outside of sets, behind `[`,
behind `[^`, within a set, or behind the `-` of a range. -/
inductive GlobMode where
  | outside
  | opened
  | negated
  | inside (isNegated : Bool) (accepts : Char → Bool) (prior : Option Char)
  | range (isNegated : Bool) (accepts : Char → Bool) (low : Char)

def closeSet (isNegated : Bool) (accepts : Char → Bool) : Wildcard :=
  .one fun char => accepts char != isNegated

/-- A pattern of `GLOB`.  A set that is not closed matches nothing. -/
def globPattern : GlobMode → List Char → List Wildcard
  | .outside, [] => []
  | .opened, [] | .negated, [] | .inside _ _ _, [] | .range _ _ _, [] => [never]
  | .outside, char :: rest =>
    if char = '*' then .anySequence :: globPattern .outside rest
    else if char = '?' then (.one fun _ => true) :: globPattern .outside rest
    else if char = '[' then globPattern .opened rest
    else literal char :: globPattern .outside rest
  | .opened, char :: rest =>
    if char = '^' then globPattern .negated rest
    else
      globPattern (.inside false (fun other => other = char)
        (if char = ']' then none else some char)) rest
  | .negated, char :: rest =>
    globPattern (.inside true (fun other => other = char)
      (if char = ']' then none else some char)) rest
  | .inside isNegated accepts prior, char :: rest =>
    if char = ']' then
      closeSet isNegated accepts :: globPattern .outside rest
    else match char, prior with
      | '-', some low => globPattern (.range isNegated accepts low) rest
      | _, _ =>
        globPattern (.inside isNegated
          (fun other => accepts other || other = char) (some char)) rest
  | .range isNegated accepts low, char :: rest =>
    if char = ']' then
      closeSet isNegated (fun other => accepts other || other = '-') :: globPattern .outside rest
    else
      globPattern (.inside isNegated
        (fun other => accepts other || (low ≤ other && other ≤ char)) none)
        rest

/-- `%` becomes `*`, and what is special to `GLOB` a set of its own. -/
def globOfPercent (pattern : List Char) : List Char :=
  pattern.flatMap fun char =>
    if char = '%' then ['*']
    else if char ∈ ['[', ']', '*', '?'] then ['[', char, ']']
    else [char]

theorem closeSet_single (char : Char) :
    closeSet false (fun other => other = char) = literal char := by
  rw [closeSet, literal]
  simp only [Bool.bne_false]

theorem globPattern_set {char : Char} (notCaret : char ≠ '^') (rest : List Char) :
    globPattern .outside ('[' :: char :: ']' :: rest) =
      literal char :: globPattern .outside rest := by
  rw [globPattern, if_neg (by decide), if_neg (by decide), if_pos rfl,
    globPattern, if_neg notCaret, globPattern, if_pos rfl, closeSet_single]
  intro low same
  exact absurd same (by decide)

theorem globPattern_globOfPercent (pattern : List Char) :
    globPattern .outside (globOfPercent pattern) = percentPattern pattern := by
  induction pattern with
  | nil => rfl
  | cons char rest ih =>
    rw [globOfPercent, flatMap_cons, ← globOfPercent, percentPattern, map_cons, ← percentPattern]
    split
    · rw [singleton_append, globPattern, if_pos rfl, ih]
    · split
      next special =>
        have notCaret : char ≠ '^' := by
          rintro rfl
          exact absurd special (by decide)
        exact (globPattern_set notCaret _).trans (congrArg _ ih)
      next plain =>
        simp only [mem_cons, not_mem_nil, or_false, not_or] at plain
        rw [singleton_append, globPattern, if_neg plain.2.2.1,
          if_neg plain.2.2.2, if_neg plain.1, ih]

/-- `%` takes any part of the text, and each other character of the pattern
takes one that agrees with it. -/
inductive MatchesPercent (same : Char → Char → Prop) :
    List Char → List Char → Prop where
  | nil : MatchesPercent same [] []
  | percent (taken : List Char) {rest text : List Char} : MatchesPercent same rest text →
      MatchesPercent same ('%' :: rest) (taken ++ text)
  | char {char other : Char} {rest text : List Char} : char ≠ '%' → same char other →
      MatchesPercent same rest text →
      MatchesPercent same (char :: rest) (other :: text)

variable {same : Char → Char → Prop}

theorem matchesPercent_percent {rest text : List Char} : MatchesPercent same ('%' :: rest) text ↔
      ∃ taken tail, taken ++ tail = text ∧ MatchesPercent same rest tail := by
  constructor
  · intro matched
    cases matched with
    | percent taken matched => exact ⟨taken, _, rfl, matched⟩
    | char notPercent => exact absurd rfl notPercent
  · intro ⟨taken, tail, split, matched⟩
    rw [← split]
    exact .percent taken matched

theorem matchesPercent_char {char : Char} (notPercent : char ≠ '%') {rest text : List Char} :
    MatchesPercent same (char :: rest) text ↔ ∃ other tail, text = other :: tail ∧ same char other ∧
        MatchesPercent same rest tail := by
  constructor
  · intro matched
    cases matched with
    | percent => exact absurd rfl notPercent
    | char _ agrees matched => exact ⟨_, _, rfl, agrees, matched⟩
  · intro ⟨other, tail, split, agrees, matched⟩
    rw [split]
    exact .char notPercent agrees matched

theorem isMatch_percentPatternBy (same : Char → Char → Bool) {pattern text : List Char} :
    isMatch (percentPatternBy same pattern) text = true ↔
      MatchesPercent (fun char other => same char other = true) pattern text := by
  induction pattern generalizing text with
  | nil =>
    rw [percentPatternBy, List.map_nil, isMatch, List.isEmpty_iff]
    constructor
    · intro isEmpty
      subst isEmpty
      exact .nil
    · intro matched
      cases matched
      rfl
  | cons char rest ih =>
    rw [percentPatternBy, map_cons, ← percentPatternBy]
    by_cases isPercent : char = '%'
    · subst isPercent
      rw [if_pos rfl, isMatch, any_eq_true, matchesPercent_percent]
      constructor
      · intro ⟨tail, suffix, matched⟩
        obtain ⟨taken, split⟩ := (mem_tails ..).mp suffix
        exact ⟨taken, tail, split, ih.mp matched⟩
      · intro ⟨taken, tail, split, matched⟩
        exact ⟨tail, (mem_tails ..).mpr ⟨taken, split⟩, ih.mpr matched⟩
    · rw [if_neg isPercent, literalBy, matchesPercent_char isPercent]
      cases text with
      | nil =>
        constructor
        · intro matched
          cases matched
        · intro ⟨_, _, impossible, _⟩
          cases impossible
      | cons other text =>
        rw [isMatch, Bool.and_eq_true, ih]
        constructor
        · intro ⟨agrees, matched⟩
          exact ⟨other, text, rfl, agrees, matched⟩
        · intro ⟨_, _, split, agrees, matched⟩
          cases split
          exact ⟨agrees, matched⟩

end Wildcard
