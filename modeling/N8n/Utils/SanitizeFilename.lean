import Mathlib.Data.List.DropRight

/-!
# Sanitized file names

A text is the list of its UTF-16 code units, and the expressions match single
units.  Cutting a name is the last step: it can uncover what the steps before it
have taken care of.
-/

namespace N8n

open List Bool

namespace SanitizeFilename

abbrev Text := List UInt16

def text (text : String) : Text := text.toList.map fun char => char.toNat.toUInt16

variable (unit : UInt16)

def isInvalidChar : Bool :=
  (text "<>:\"/\\|?*").contains unit || unit ≤ 0x1F ||
    0x7F ≤ unit && unit ≤ 0x9F

def isZeroWidthChar : Bool :=
  0x200B ≤ unit && unit ≤ 0x200D || unit == 0x2060 || unit == 0xFEFF

def isUnicodeSpace : Bool :=
  unit == 0xA0 || 0x2000 ≤ unit && unit ≤ 0x200A

/-- White space and line ends of the language. -/
def isWhiteSpace : Bool :=
  0x9 ≤ unit && unit ≤ 0xD || unit == 0x20 || isUnicodeSpace unit ||
    [0x1680, 0x2028, 0x2029, 0x202F, 0x205F, 0x3000, 0xFEFF].contains unit

def isDotOrSpace : Bool := isWhiteSpace unit || unit == 0x2E

def WINDOWS_RESERVED_NAMES : List Text :=
  ["CON", "PRN", "AUX", "NUL", "COM1", "COM2", "COM3", "COM4", "COM5", "COM6",
    "COM7", "COM8", "COM9", "LPT1", "LPT2", "LPT3", "LPT4", "LPT5", "LPT6",
    "LPT7", "LPT8", "LPT9"].map text

def DEFAULT_FALLBACK_NAME : Text := text "untitled"

/-- No other unit is changed to a letter or digit of a reserved name. -/
def toUpperCase : UInt16 :=
  if 0x61 ≤ unit && unit ≤ 0x7A then unit - 0x20 else unit

def isReserved (name : Text) : Bool :=
  WINDOWS_RESERVED_NAMES.contains (name.map toUpperCase)

/-- Without the units at both ends that match. -/
def strip (p : UInt16 → Bool) (text : Text) : Text :=
  (text.dropWhile p).rdropWhile p

def replaceInvalid : UInt16 :=
  if isInvalidChar unit then 0x5F else unit

def replaceSpace : UInt16 :=
  if isUnicodeSpace unit then 0x20 else unit

def cleaned (filename : Text) : Text :=
  strip isDotOrSpace ((((strip isWhiteSpace filename).map replaceInvalid).filter
      fun unit => !isZeroWidthChar unit).map replaceSpace)

def baseName (filename : Text) : Text :=
  let baseName := cleaned filename
  let baseName := if baseName = [] then DEFAULT_FALLBACK_NAME else baseName
  if isReserved baseName then 0x5F :: baseName else baseName

def sanitizeFilename (filename : Text) (maxLength : Nat) : Text :=
  if filename = [] then DEFAULT_FALLBACK_NAME
  else
    let baseName := baseName filename
    if maxLength < baseName.length then baseName.take maxLength else baseName

/-- A unit that is neither removed nor replaced. -/
def isPlain : Bool :=
  !isInvalidChar unit && !isZeroWidthChar unit && !isUnicodeSpace unit

/-- No unit at an end matches. -/
def Bare (p : UInt16 → Bool) (text : Text) : Prop :=
  (∀ unit ∈ text.head?, p unit = false) ∧ ∀ unit ∈ text.getLast?, p unit = false

structure Valid (maxLength : Nat) (name : Text) : Prop where
  nonempty : name ≠ []
  bounded : name.length ≤ maxLength
  plain : ∀ unit ∈ name, isPlain unit = true
  bare : Bare isDotOrSpace name
  notReserved : isReserved name = false
  stable : sanitizeFilename name maxLength = name

/-- The fallback name fits, and cutting leaves no dot or space at the end and no
reserved name. -/
def CutsWell (filename : Text) (maxLength : Nat) : Prop :=
  if filename = [] then DEFAULT_FALLBACK_NAME.length ≤ maxLength
  else maxLength < (baseName filename).length →
    (∀ unit ∈ ((baseName filename).take maxLength).getLast?, isDotOrSpace unit = false) ∧
    isReserved ((baseName filename).take maxLength) = false

/-- All that is promised except for the length. -/
structure Good (name : Text) : Prop where
  nonempty : name ≠ []
  plain : ∀ unit ∈ name, isPlain unit = true
  bare : Bare isDotOrSpace name
  notReserved : isReserved name = false

variable {p : UInt16 → Bool} {name filename : Text} {maxLength : Nat}

theorem bare_strip (p : UInt16 → Bool) (text : Text) : Bare p (strip p text) := by
  refine ⟨fun unit isHead => ?_, fun unit isLast => ?_⟩
  · obtain ⟨rest, whole⟩ := rdropWhile_prefix p (text.dropWhile p)
    have first := head?_dropWhile_not p text
    have isHead' : (List.rdropWhile p (text.dropWhile p)).head? = some unit := isHead
    rw [← whole, head?_append, isHead'] at first
    exact first
  · obtain ⟨nonempty, rfl⟩ := mem_getLast?_eq_getLast isLast
    exact eq_false_iff.mpr (rdropWhile_last_not p _ nonempty)

theorem strip_eq_self (bare : Bare p name) : strip p name = name := by
  have front : name.dropWhile p = name := by
    cases name with
    | nil => rfl
    | cons unit rest => exact dropWhile_cons_of_neg (by simp [bare.1 unit rfl])
  rw [strip, front, rdropWhile_eq_self_iff]
  intro nonempty
  simp [bare.2 _ (getLast_mem_getLast? nonempty)]

theorem Bare.mono {q : UInt16 → Bool} (bare : Bare p name)
    (le : ∀ unit, p unit = false → q unit = false) : Bare q name :=
  ⟨fun unit isHead => le unit (bare.1 unit isHead), fun unit isLast => le unit (bare.2 unit isLast)⟩

theorem isPlain_replace {unit : UInt16} (visible : isZeroWidthChar (replaceInvalid unit) = false) :
    isPlain (replaceSpace (replaceInvalid unit)) = true := by
  unfold replaceSpace
  split
  · decide
  next noSpace =>
    have valid : isInvalidChar (replaceInvalid unit) = false := by
      unfold replaceInvalid
      split
      · decide
      next valid =>
        exact eq_false_iff.mpr valid
    simp [isPlain, valid, visible, noSpace]

theorem plain_cleaned {unit : UInt16} (mem : unit ∈ cleaned filename) : isPlain unit = true := by
  have inside := (dropWhile_sublist _).mem (IsPrefix.mem mem <| rdropWhile_prefix _ _)
  simp only [mem_map, mem_filter, not_eq_true', eq_false_iff] at inside
  obtain ⟨_, ⟨⟨unit', -, rfl⟩, visible⟩, rfl⟩ := inside
  exact isPlain_replace (eq_false_iff.mpr visible)

theorem isReserved_underscore (name : Text) : isReserved (0x5F :: name) = false := by
  have others : ∀ reserved ∈ WINDOWS_RESERVED_NAMES, reserved.head? ≠ some 0x5F := by
    decide
  refine eq_false_iff.mpr fun reserved => ?_
  unfold isReserved at reserved
  exact others _ (contains_iff_mem.mp reserved) rfl

theorem good_fallback : Good DEFAULT_FALLBACK_NAME := by
  have first : DEFAULT_FALLBACK_NAME.head? = some 0x75 := by decide
  have last : DEFAULT_FALLBACK_NAME.getLast? = some 0x64 := by decide
  refine ⟨by decide, all_eq_true.mp (by decide), ⟨?_, ?_⟩, by decide⟩
  · rintro unit ⟨⟩
    decide
  · rintro unit ⟨⟩
    decide

theorem good_baseName (filename : Text) : Good (baseName filename) := by
  have good : ∃ name, (if cleaned filename = [] then DEFAULT_FALLBACK_NAME
      else cleaned filename) = name ∧ name ≠ [] ∧ (∀ unit ∈ name, isPlain unit = true) ∧
        Bare isDotOrSpace name := by
    split
    · exact ⟨_, rfl, good_fallback.nonempty, good_fallback.plain, good_fallback.bare⟩
    next nonempty =>
      exact ⟨_, rfl, nonempty, fun _ => plain_cleaned, bare_strip _ _⟩
  obtain ⟨name, isName, nonempty, plain, bare⟩ := good
  simp only [baseName, isName]
  split
  · refine ⟨cons_ne_nil _ _, ?_, ⟨?_, ?_⟩, isReserved_underscore name⟩
    · simpa using ⟨by decide, plain⟩
    · rintro unit ⟨⟩
      decide
    · rw [getLast?_cons_of_ne_nil nonempty]
      exact bare.2
  next notReserved =>
    exact ⟨nonempty, plain, bare, eq_false_iff.mpr notReserved⟩

theorem cleaned_eq_self (good : Good name) : cleaned name = name := by
  have trimmed : strip isWhiteSpace name = name :=
    strip_eq_self (good.bare.mono fun unit bare => (or_eq_false_iff.mp bare).1)
  have plain : ∀ unit ∈ name, (isInvalidChar unit = false ∧
      isZeroWidthChar unit = false) ∧ isUnicodeSpace unit = false := by
    simpa [isPlain] using good.plain
  have valid : name.map replaceInvalid = name :=
    (map_congr_left fun unit mem => if_neg (by simp [(plain unit mem).1.1])).trans (map_id _)
  have visible : name.filter (fun unit => !isZeroWidthChar unit) = name :=
    filter_eq_self.mpr fun unit mem => by simp [(plain unit mem).1.2]
  have noSpace : name.map replaceSpace = name :=
    (map_congr_left fun unit mem => if_neg (by simp [(plain unit mem).2])).trans (map_id _)
  rw [cleaned, trimmed, valid, visible, noSpace, strip_eq_self good.bare]

theorem Good.valid (good : Good name) (bounded : name.length ≤ maxLength) :
    Valid maxLength name := by
  refine ⟨good.nonempty, bounded, good.plain, good.bare, good.notReserved, ?_⟩
  simp [sanitizeFilename, baseName, cleaned_eq_self good, good.nonempty,
    good.notReserved, Nat.not_lt.mpr bounded]

/-- A name is valid exactly when it was not cut in the wrong place. -/
theorem sanitizeFilename_valid_iff (positive : 0 < maxLength) (filename : Text) :
    Valid maxLength (sanitizeFilename filename maxLength) ↔ CutsWell filename maxLength := by
  have good := good_baseName filename
  unfold sanitizeFilename CutsWell
  split
  · exact ⟨fun valid => valid.bounded, fun fits => good_fallback.valid fits⟩
  · dsimp only
    split
    next longer =>
      refine ⟨fun valid _ => ⟨valid.bare.2, valid.notReserved⟩, fun cutsWell => ?_⟩
      obtain ⟨last, notReserved⟩ := cutsWell longer
      refine Good.valid ⟨?_, fun unit mem => good.plain unit (mem_of_mem_take mem),
        ⟨?_, last⟩, notReserved⟩ (length_take_le _ _)
      · simpa [Nat.ne_of_gt positive] using good.nonempty
      · simpa [head?_take, Nat.ne_of_gt positive] using good.bare.1
    next short =>
      exact ⟨fun _ longer => absurd longer short, fun _ => good.valid (Nat.not_lt.mp short)⟩

theorem sanitizeFilename_valid_iff_console :
    Valid 4 (sanitizeFilename (text "CONSOLE") 4) ↔ CutsWell (text "CONSOLE") 4 :=
  sanitizeFilename_valid_iff (by decide) _

/-- A reserved name is uncovered by the cut. -/
theorem not_valid_console : ¬ Valid 3 (sanitizeFilename (text "CONSOLE") 3) := fun valid =>
  absurd valid.notReserved (by decide +kernel)

end SanitizeFilename

end N8n
