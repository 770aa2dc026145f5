import Mathlib.Data.List.Lex
import N8n.Library.AgreeingSearch
import N8n.Library.OrderedMap
import N8n.Library.PrefixCode

/-!
# Checksum of a workflow

The fields of a workflow are written as JSON whose keys are sorted, and hashed.
The text tells apart all contents but those of the keys `__proto__`, which get
lost.
-/

namespace N8n

namespace WorkflowChecksum

open List

/-- An object has the keys in the order in which they were added, and an entry
that is `none` where it is undefined. -/
inductive Json (Number : Type) where
  | null
  | bool (value : Bool)
  | number (value : Number)
  | string (text : String)
  | array (items : List (Json Number))
  | object (keys : OrderedMap String Unit) (entry : String → Option (Json Number))

def charUnits (char : Char) : List Nat :=
  if char.toNat < 0x10000 then [char.toNat]
  else [0xD800 + (char.toNat - 0x10000) / 0x400, 0xDC00 + (char.toNat - 0x10000) % 0x400]

def codeUnits (text : String) : List Nat := text.toList.flatMap charUnits

/-- `sort` compares code unit by code unit. -/
def sort (keys : List String) : List String :=
  keys.mergeSort (codeUnits · ≤ codeUnits ·)

/-- An assignment to `__proto__` adds no key. -/
def sortedKeys (keys : OrderedMap String Unit) : OrderedMap String Unit where
  entries := ((sort keys.ownKeys).filter (· ≠ "__proto__")).map (·, ())
  nodup := by
    rw [map_map, Function.comp_def, map_id']
    exact ((mergeSort_perm _ _).nodup_iff.mpr keys.ownKeys_nodup).filter _

variable {Number : Type}

mutual

def sortObjectKeys : Json Number → Json Number
  | .array items => .array (sortItems items)
  | .object keys entry => .object (sortedKeys keys) fun key => sortEntry (entry key)
  | value => value

def sortItems : List (Json Number) → List (Json Number)
  | [] => []
  | item :: items => sortObjectKeys item :: sortItems items

def sortEntry : Option (Json Number) → Option (Json Number)
  | none => none
  | some value => some (sortObjectKeys value)

end

def escape (char : Char) : List Char :=
  match char with
  | '"' | '\\' => ['\\', char]
  | '\x08' => ['\\', 'b']
  | '\t' => ['\\', 't']
  | '\n' => ['\\', 'n']
  | '\x0c' => ['\\', 'f']
  | '\r' => ['\\', 'r']
  | _ =>
    if char.toNat < 0x20 then
      ['\\', 'u', '0', '0', Nat.digitChar (char.toNat / 16), Nat.digitChar (char.toNat % 16)]
    else [char]

def quote (text : String) : List Char := '"' :: (text.toList.flatMap escape ++ ['"'])

section Stringify

variable (numberToString : Number → String)

mutual

def stringify : Json Number → List Char
  | .null => "null".toList
  | .bool value => (toString value).toList
  | .number value => (numberToString value).toList
  | .string text => quote text
  | .array items => '[' :: (separated ',' (stringifyItems items) ++ [']'])
  | .object keys entry =>
    '{' :: (separated ',' (keys.ownKeys.filterMap fun key =>
      (stringifyEntry (entry key)).map (quote key ++ ':' :: ·)) ++ ['}'])

def stringifyItems : List (Json Number) → List (List Char)
  | [] => []
  | item :: items => stringify item :: stringifyItems items

def stringifyEntry : Option (Json Number) → Option (List Char)
  | none => none
  | some value => some (stringify value)

end

end Stringify

/-- The values of the fields, `none` where they are undefined. -/
def WorkflowSnapshot (Number : Type) := String → Option (Json Number)

def CHECKSUM_FIELDS : List String :=
  ["name", "description", "nodes", "connections", "settings", "meta", "pinData",
    "isArchived", "activeVersionId"]

def checksumPayload (workflow : WorkflowSnapshot Number) : Json Number :=
  .object (.ofList ((CHECKSUM_FIELDS.filter fun field =>
    (workflow field).isSome).map (·, ()))) workflow

def calculateWorkflowChecksum (numberToString : Number → String) (sha256 : String → String)
    (workflow : WorkflowSnapshot Number) : String :=
  sha256 (.ofList (stringify numberToString (sortObjectKeys (checksumPayload workflow))))

theorem charUnits_free (first second : Char)
    (before : charUnits first <+: charUnits second) : first = second := by
  have valid : Nat.isValidChar first.toNat := first.valid
  have validSecond : Nat.isValidChar second.toNat := second.valid
  unfold Nat.isValidChar at valid validSecond
  rw [← Char.toNat_inj]
  simp only [charUnits] at before
  split at before <;> split at before <;>
    simp only [cons_prefix_cons, prefix_nil, reduceCtorEq, and_false] at before <;> omega

theorem codeUnits_injective : Function.Injective codeUnits := by
  intro first second same
  have starts (char : Char) : ∃ unit rest, charUnits char = unit :: rest ∧ unit ≠ 0x10000 := by
    have valid : Nat.isValidChar char.toNat := char.valid
    unfold Nat.isValidChar at valid
    rw [charUnits]
    split <;> exact ⟨_, _, rfl, by omega⟩
  have closed := congrArg (· ++ [0x10000]) same
  exact String.toList_injective (flatMap_append_inj charUnits_free starts closed).1

theorem sort_perm (keys : List String) : (sort keys).Perm keys := mergeSort_perm _ _

section Keys

variable {keys others : OrderedMap String Unit}

theorem keys_sortedKeys : (sortedKeys keys).keys =
    (sort keys.ownKeys).filter (· ≠ "__proto__") := by
  rw [OrderedMap.keys, sortedKeys, map_map, Function.comp_def, map_id']

theorem mem_ownKeys_sortedKeys {key : String} :
    key ∈ (sortedKeys keys).ownKeys ↔ key ∈ keys.keys ∧ key ≠ "__proto__" := by
  rw [OrderedMap.mem_ownKeys, keys_sortedKeys, mem_filter, (sort_perm _).mem_iff,
    OrderedMap.mem_ownKeys, decide_eq_true_iff]

theorem filter_ownKeys_eq {keep : String → Bool} (same : ∀ key, keep key = true →
      key ≠ "__proto__" → (key ∈ keys.keys ↔ key ∈ others.keys)) :
    (sortedKeys keys).ownKeys.filter keep = (sortedKeys others).ownKeys.filter keep := by
  have sorted (keys : OrderedMap String Unit) :
      ((sortedKeys keys).keys.filter keep).Pairwise (codeUnits · ≤ codeUnits ·) := by
    have pairwise : (sort keys.ownKeys).Pairwise (decide <| codeUnits · ≤ codeUnits ·) :=
      pairwise_mergeSort (fun first second third => by simpa using le_trans)
        (fun first second => by simpa using le_total (codeUnits first) _) _
    rw [keys_sortedKeys]
    exact ((pairwise.imp of_decide_eq_true).filter _).filter _
  have permuted : ((sortedKeys keys).keys.filter keep).Perm
      ((sortedKeys others).keys.filter keep) := by
    refine (perm_ext_iff_of_nodup ((sortedKeys keys).keys_nodup.filter _)
      ((sortedKeys others).keys_nodup.filter _)).mpr fun key => ?_
    rw [mem_filter, mem_filter, ← OrderedMap.mem_ownKeys, ← OrderedMap.mem_ownKeys,
      mem_ownKeys_sortedKeys, mem_ownKeys_sortedKeys]
    exact and_congr_left fun kept => and_congr_left fun own => same key kept own
  have equal := permuted.eq_of_pairwise
    (fun _ _ _ _ le ge => codeUnits_injective (le_antisymm le ge))
    (sorted keys) (sorted others)
  simp only [OrderedMap.ownKeys_eq, filter_append, filter_insertionSort, filter_comm keep, equal]

end Keys

def specials : List Char := '"' :: '\\' :: (range 0x20).map Char.ofNat

theorem forall_mem_of_all {property : Char → Prop} [DecidablePred property] {chars : List Char}
    (all : chars.all (property ·) = true) : ∀ char ∈ chars, property char := by
  simpa using all

theorem escape_of_special : ∀ char ∈ specials, escape char = '\\' :: (escape char).tail :=
  forall_mem_of_all (by decide +kernel)

theorem escape_of_not_special {char : Char} (notMem : char ∉ specials) :
    escape char = [char] ∧ char ≠ '\\' ∧ char ≠ '"' := by
  have large : ¬ char.toNat < 0x20 := fun small => notMem (by
    rw [specials, mem_cons, mem_cons, mem_map]
    exact .inr (.inr ⟨char.toNat, mem_range.mpr small, Char.ofNat_toNat char⟩))
  have ne {special : Char} (mem : special ∈ specials) : char ≠ special := by
    rintro rfl
    exact notMem mem
  refine ⟨?_, ne (by decide), ne (by decide)⟩
  unfold escape
  split
  all_goals first | exact absurd rfl (ne (by decide)) | exact if_neg large

theorem escape_free (first second : Char) (before : escape first <+: escape second) :
    first = second := by
  have special : ∀ first ∈ specials, ∀ second ∈ specials,
      escape first <+: escape second → first = second := by
    have all : (specials.all fun first => specials.all fun second =>
        escape first <+: escape second → first = second) = true := by decide +kernel
    simpa [imp_iff_not_or] using all
  by_cases isSpecial : first ∈ specials <;> by_cases isSecond : second ∈ specials
  · exact special first isSpecial second isSecond before
  · obtain ⟨plain, ne, _⟩ := escape_of_not_special isSecond
    rw [escape_of_special first isSpecial, plain, cons_prefix_cons] at before
    exact absurd before.1.symm ne
  · obtain ⟨plain, ne, _⟩ := escape_of_not_special isSpecial
    rw [escape_of_special second isSecond, plain, cons_prefix_cons] at before
    exact absurd before.1 ne
  · rw [(escape_of_not_special isSpecial).1, (escape_of_not_special isSecond).1,
      cons_prefix_cons] at before
    exact before.1

theorem quote_append_inj {left right : String} {rest other : List Char}
    (same : quote left ++ rest = quote right ++ other) : left = right ∧ rest = other := by
  have starts (char : Char) : ∃ unit rest, escape char = unit :: rest ∧ unit ≠ '"' := by
    by_cases isSpecial : char ∈ specials
    · exact ⟨_, _, escape_of_special char isSpecial, by decide⟩
    · obtain ⟨plain, _, ne⟩ := escape_of_not_special isSpecial
      exact ⟨char, [], plain, ne⟩
  simp only [quote, cons_append, append_assoc, nil_append] at same
  obtain ⟨text, rest⟩ := flatMap_append_inj escape_free starts (cons.inj same).2
  exact ⟨String.toList_injective text, rest⟩

inductive Step where
  | index (index : Nat)
  | key (name : String)

namespace Json

/-- An entry of its own that is not undefined. -/
def own (keys : OrderedMap String Unit) (entry : String → Option (Json Number))
    (key : String) : Option (Json Number) :=
  if key ∈ keys.keys then entry key else none

/-- A value without what is in it. -/
def kind : Json Number → Json Number
  | .array _ => .array []
  | .object _ _ => .object .empty fun _ => none
  | value => value

/-- What is found at the end of a path. -/
def look : Json Number → List Step → Option (Json Number)
  | value, [] => some value.kind
  | .array items, .index index :: path => items[index]?.bind (look · path)
  | .object keys entry, .key name :: path => (own keys entry name).bind (look · path)
  | _, _ :: _ => none

/-- The same is found on all paths without a key `__proto__`. -/
def AgreesApart (left right : Json Number) : Prop :=
  ∀ path, .key "__proto__" ∉ path → left.look path = right.look path

@[elab_as_elim]
theorem induct {P : Json Number → Prop} (null : P .null) (bool : ∀ value, P (.bool value))
    (number : ∀ value, P (.number value)) (string : ∀ text, P (.string text))
    (array : ∀ items, (∀ item ∈ items, P item) → P (.array items))
    (object : ∀ keys entry, (∀ key, ∀ value ∈ entry key, P value) →
      P (.object keys entry)) (value : Json Number) : P value :=
  @Json.rec Number P (fun items => ∀ item ∈ items, P item) (fun entry => ∀ value ∈ entry, P value)
    null bool number string array object (by simp)
    (fun _ _ first later => forall_mem_cons.mpr ⟨first, later⟩) (by simp)
    (fun value property => by simpa using property) value

variable {numberToString : Number → String} {left right : Json Number}

def fields (keys : OrderedMap String Unit) (entry : String → Option (Json Number)) :
    List (String × Json Number) :=
  (sortedKeys keys).ownKeys.filterMap fun key => (own keys entry key).map (key, ·)

section Write

variable (numberToString)

def write (value : Json Number) : List Char := stringify numberToString (sortObjectKeys value)

def writeField (field : String × Json Number) : List Char :=
  quote field.1 ++ ':' :: field.2.write numberToString

theorem write_array (items : List (Json Number)) : (array items).write numberToString =
    '[' :: (separated ',' (items.map (write numberToString)) ++ [']']) := by
  have written : stringifyItems numberToString (sortItems items) =
      items.map (write numberToString) := by
    induction items with
    | nil => rfl
    | cons item items ih => rw [sortItems, stringifyItems, ih]; rfl
  rw [write, sortObjectKeys, stringify, written]

theorem write_object (keys : OrderedMap String Unit) (entry : String → Option (Json Number)) :
    (object keys entry).write numberToString =
      '{' :: (separated ',' ((fields keys entry).map (writeField numberToString)) ++ ['}']) := by
  have written (value : Option (Json Number)) : stringifyEntry numberToString (sortEntry value) =
      value.map (write numberToString) := by
    cases value <;> rfl
  have entries : (sortedKeys keys).ownKeys.filterMap (fun key =>
        (stringifyEntry numberToString (sortEntry (entry key))).map (quote key ++ ':' :: ·)) =
      (fields keys entry).map (writeField numberToString) := by
    rw [fields, map_filterMap]
    refine filterMap_congr fun key mem => ?_
    rw [own, if_pos (mem_ownKeys_sortedKeys.mp mem).1, written, Option.map_map, Option.map_map]
    rfl
  rw [write, sortObjectKeys, stringify, entries]

end Write

variable {keys : OrderedMap String Unit} {entry : String → Option (Json Number)}

theorem mem_fields {key : String} {value : Json Number} : (key, value) ∈ fields keys entry ↔
      key ≠ "__proto__" ∧ own keys entry key = some value := by
  simp only [fields, mem_filterMap, mem_ownKeys_sortedKeys]
  constructor
  · rintro ⟨other, ⟨_, ne⟩, isField⟩
    obtain ⟨found, isFound, same⟩ := Option.map_eq_some_iff.mp isField
    cases same
    exact ⟨ne, isFound⟩
  · rintro ⟨ne, isOwn⟩
    exact ⟨key, ⟨(Option.ite_none_right_eq_some.mp isOwn).1, ne⟩, by rw [isOwn]; rfl⟩

theorem mem_keys_of_own
    {key : String} (isOwn : (own keys entry key).isSome = true) : key ∈ keys.keys := by
  by_contra notMem
  rw [own, if_neg notMem] at isOwn
  cases isOwn

theorem map_writeField (keys : OrderedMap String Unit) (entry : String → Option (Json Number)) :
    (fields keys entry).map (writeField numberToString) =
      ((sortedKeys keys).ownKeys.filter (own keys entry · |>.isSome)).filterMap fun key =>
        ((own keys entry key).map (write numberToString)).map (quote key ++ ':' :: ·) := by
  rw [fields, map_filterMap, filterMap_filter]
  refine filterMap_congr fun key _ => ?_
  cases own keys entry key <;> rfl

theorem map_write_eq {first second : Option (Json Number)}
    (ih : ∀ value ∈ first, ∀ other, value.AgreesApart other → value.kind = other.kind →
      value.write numberToString = other.write numberToString)
    (found : ∀ path, .key "__proto__" ∉ path →
      first.bind (look · path) = second.bind (look · path)) :
    first.map (write numberToString) = second.map (write numberToString) := by
  have start := found [] not_mem_nil
  cases first <;> cases second
  · rfl
  · simp [look] at start
  · simp [look] at start
  next value other =>
    exact congrArg some (ih value rfl other found (Option.some.inj start))

/-- Values that agree where they are written are written alike. -/
theorem write_eq (agrees : AgreesApart left right) :
    left.write numberToString = right.write numberToString := by
  have kinds : left.kind = right.kind := Option.some.inj (agrees [] not_mem_nil)
  induction left using induct generalizing right with
  | null | bool | number | string =>
    cases right <;> cases kinds
    rfl
  | array items ih =>
    cases right <;> cases kinds
    next others =>
      have written : items.map (write numberToString) = others.map (write numberToString) := by
        refine ext_getElem? fun index => ?_
        rw [getElem?_map, getElem?_map]
        exact map_write_eq (fun item mem _ => ih item (mem_of_getElem? mem))
          (fun path free => agrees (.index index :: path) (by simp [free]))
      rw [write_array, write_array, written]
  | object keys entry ih =>
    cases right <;> cases kinds
    next others other =>
      have same (key : String) (ne : key ≠ "__proto__") :
          (own keys entry key).map (write numberToString) =
            (own others other key).map (write numberToString) :=
        map_write_eq (fun value isOwn _ => ih key value (Option.ite_none_right_eq_some.mp isOwn).2)
          (fun path free => agrees (.key key :: path) (by simp [free, ne.symm]))
      have filtered : (sortedKeys keys).ownKeys.filter (own keys entry · |>.isSome) =
          (sortedKeys others).ownKeys.filter (own others other · |>.isSome) := by
        have isSome (key : String) (ne : key ≠ "__proto__") :
            (own keys entry key).isSome = (own others other key).isSome := by
          simpa using congrArg Option.isSome (same key ne)
        refine (filter_ownKeys_eq fun key kept ne => ?_).trans (filter_congr fun key mem =>
          isSome key (mem_ownKeys_sortedKeys.mp mem).2)
        exact iff_of_true (mem_keys_of_own kept) (mem_keys_of_own (isSome key ne ▸ kept))
      rw [write_object, write_object, map_writeField, map_writeField, filtered]
      congr 3
      refine filterMap_congr fun key mem => ?_
      rw [same key (mem_ownKeys_sortedKeys.mp (mem_filter.mp mem).1).2]

end Json

/-- Numbers are told apart by their texts, in which nothing ends a value. -/
structure WritesNumbers (numberToString : Number → String) : Prop where
  injective : Function.Injective numberToString
  nonempty : ∀ number, (numberToString number).toList ≠ []
  digits : ∀ number, ∀ char ∈ (numberToString number).toList, char ∈ "0123456789+-.e".toList

namespace Json

variable {numberToString : Number → String} {left right : Json Number} {rest other : List Char}

def stops : List Char := [',', ']', '}']

/-- The text behind a value. -/
def Ends (rest : List Char) : Prop := ∀ char ∈ rest.head?, char ∈ stops

theorem word_append_inj {word second : List Char} (plain : ∀ char ∈ word, char ∉ stops)
    (plainSecond : ∀ char ∈ second, char ∉ stops) (ends : Ends rest) (endsOther : Ends other)
    (same : word ++ rest = second ++ other) : word = second ∧ rest = other := by
  have cut {word rest : List Char} (plain : ∀ char ∈ word, char ∉ stops)
      (ends : Ends rest) : (word ++ rest).takeWhile (· ∉ stops) = word := by
    rw [takeWhile_append_of_pos (by simpa using plain)]
    cases rest with
    | nil => simp
    | cons char rest => simp [ends char rfl]
  obtain rfl : word = second := by rw [← cut plain ends, same, cut plainSecond endsOther]
  exact ⟨rfl, append_cancel_left same⟩

def rank : Json Number → Nat
  | .null => 0
  | .bool _ => 1
  | .number _ => 2
  | .string _ => 3
  | .array _ => 4
  | .object _ _ => 5

/-- The rank of the values that begin with a character. -/
def charRank (char : Char) : Nat :=
  match char with
  | 'n' => 0
  | 't' | 'f' => 1
  | '"' => 3
  | '[' => 4
  | '{' => 5
  | ']' => 6
  | _ => 2

theorem write_start (writes : WritesNumbers numberToString) (value : Json Number) :
    ∃ char rest, value.write numberToString = char :: rest ∧ charRank char = value.rank := by
  cases value with
  | null => exact ⟨_, _, rfl, rfl⟩
  | bool value => cases value <;> exact ⟨_, _, rfl, rfl⟩
  | number number =>
    obtain ⟨char, rest, written⟩ := exists_cons_of_ne_nil (writes.nonempty number)
    have ranks : ∀ char ∈ "0123456789+-.e".toList, charRank char = 2 :=
      forall_mem_of_all (by decide)
    exact ⟨char, rest, written, ranks char (writes.digits number char (written ▸ mem_cons_self))⟩
  | string => exact ⟨_, _, rfl, rfl⟩
  | array items => exact ⟨_, _, write_array numberToString items, rfl⟩
  | object keys entry => exact ⟨_, _, write_object numberToString keys entry, rfl⟩

theorem agreesApart_array {items others : List (Json Number)}
    (agree : Forall₂ AgreesApart items others) : AgreesApart (array items) (array others) := by
  intro path free
  match path with
  | [] => rfl
  | .key _ :: _ => rfl
  | .index index :: path =>
    rw [look, look]
    replace free : .key "__proto__" ∉ path := fun mem => free (mem_cons_of_mem _ mem)
    induction agree generalizing index with
    | nil => rfl
    | cons first _ ih =>
      cases index with
      | zero => exact first path free
      | succ index => exact ih index

theorem agreesApart_object {keys others : OrderedMap String Unit}
    {entry otherEntry : String → Option (Json Number)}
    (agree : Forall₂ (fun field other => field.1 = other.1 ∧ AgreesApart field.2 other.2)
      (fields keys entry) (fields others otherEntry)) :
    AgreesApart (object keys entry) (object others otherEntry) := by
  intro path free
  match path with
  | [] => rfl
  | .index _ :: _ => rfl
  | .key key :: path =>
    rw [mem_cons, not_or] at free
    have ne : key ≠ "__proto__" := fun same => free.1 (congrArg Step.key same.symm)
    rw [look, look]
    cases isOwn : own keys entry key with
    | none =>
      cases isOther : own others otherEntry key with
      | none => rfl
      | some value =>
        obtain ⟨⟨_, found⟩, mem, rfl, _⟩ := AgreeingSearch.exists_of_mem agree.flip (mem_fields.mpr ⟨ne, isOther⟩)
        exact nomatch isOwn.symm.trans (mem_fields.mp mem).2
    | some value =>
      obtain ⟨⟨_, found⟩, mem, rfl, same⟩ := AgreeingSearch.exists_of_mem agree (mem_fields.mpr ⟨ne, isOwn⟩)
      rw [(mem_fields.mp mem).2]
      exact same path free.2

theorem rank_eq (writes : WritesNumbers numberToString)
    (same : left.write numberToString ++ rest = right.write numberToString ++ other) :
    left.rank = right.rank := by
  obtain ⟨char, _, written, isRank⟩ := write_start writes left
  obtain ⟨second, _, isWritten, isSecond⟩ := write_start writes right
  rw [written, isWritten] at same
  rw [← isRank, ← isSecond, (cons.inj same).1]

/-- What is written can be told apart from what follows. -/
theorem write_append_inj (writes : WritesNumbers numberToString) (ends : Ends rest)
    (endsOther : Ends other)
    (same : left.write numberToString ++ rest = right.write numberToString ++ other) :
    AgreesApart left right ∧ rest = other := by
  have ended (rest : List Char) : Ends (',' :: rest) ∧ Ends (']' :: rest) ∧ Ends ('}' :: rest) := by
    simp [Ends, stops]
  have ranks := rank_eq writes same
  induction left using induct generalizing right rest other with
  | null =>
    cases right <;> cases ranks
    exact ⟨fun _ _ => rfl, append_cancel_left same⟩
  | bool value =>
    cases right <;> cases ranks
    next second =>
      have plain (value : Bool) : ∀ char ∈ (toString value).toList, char ∉ stops :=
        forall_mem_of_all (by cases value <;> decide)
      have injective : ∀ value second : Bool,
          (toString value).toList = (toString second).toList → value = second := by
        decide
      obtain ⟨word, rest⟩ := word_append_inj (plain value) (plain second) ends endsOther same
      obtain rfl := injective value second word
      exact ⟨fun _ _ => rfl, rest⟩
  | number value =>
    cases right <;> cases ranks
    next second =>
      have digits : ∀ char ∈ "0123456789+-.e".toList, char ∉ stops := forall_mem_of_all (by decide)
      have plain (number : Number) : ∀ char ∈ (numberToString number).toList, char ∉ stops :=
        fun char mem => digits char (writes.digits number char mem)
      obtain ⟨word, rest⟩ := word_append_inj (plain value) (plain second) ends endsOther same
      obtain rfl := writes.injective (String.toList_injective word)
      exact ⟨fun _ _ => rfl, rest⟩
  | string text =>
    cases right <;> cases ranks
    obtain ⟨rfl, rest⟩ := quote_append_inj same
    exact ⟨fun _ _ => rfl, rest⟩
  | array items ih =>
    cases right <;> cases ranks
    next others =>
      simp only [write_array, cons_append, append_assoc, nil_append, cons.injEq, true_and] at same
      exact (separated_append_inj (by decide) (fun rest => ⟨(ended rest).1, (ended rest).2.1⟩)
        (fun value => by
          obtain ⟨char, rest, written, isRank⟩ := write_start writes value
          refine ⟨char, rest, written, ?_⟩
          rintro rfl
          cases value <;> cases isRank)
        (fun item mem _ _ _ ends endsOther same =>
          ih item mem ends endsOther same (rank_eq writes same)) same).imp_left agreesApart_array
  | object keys entry ih =>
    cases right <;> cases ranks
    next others otherEntry =>
      simp only [write_object, cons_append, append_assoc, nil_append, cons.injEq, true_and] at same
      refine (separated_append_inj (by decide) (fun rest => ⟨(ended rest).1, (ended rest).2.2⟩)
        (fun field => ⟨_, _, rfl, by decide⟩) ?_ same).imp_left agreesApart_object
      intro field mem second rest other ends endsOther same
      change quote field.1 ++ (':' :: field.2.write numberToString) ++ rest =
        quote second.1 ++ (':' :: second.2.write numberToString) ++ other at same
      rw [append_assoc, append_assoc] at same
      obtain ⟨key, same⟩ := quote_append_inj same
      have isOwn := (mem_fields.mp mem).2
      obtain ⟨agrees, rest⟩ := ih field.1 field.2 (Option.ite_none_right_eq_some.mp isOwn).2
        ends endsOther (cons.inj same).2 (rank_eq writes (cons.inj same).2)
      exact ⟨⟨key, agrees⟩, rest⟩

end Json

namespace WorkflowSnapshot

def look (workflow : WorkflowSnapshot Number) (field : String) (path : List Step) :
    Option (Json Number) :=
  (workflow field).bind (·.look path)

section

variable (workflow other : WorkflowSnapshot Number)

/-- The fields agree on all paths, whatever the order of the keys. -/
def Agrees : Prop :=
  ∀ field ∈ CHECKSUM_FIELDS, ∀ path, workflow.look field path = other.look field path

/-- The fields agree on all paths without a key `__proto__`. -/
def AgreesApart : Prop :=
  ∀ field ∈ CHECKSUM_FIELDS, ∀ path, .key "__proto__" ∉ path →
    workflow.look field path = other.look field path

end

end WorkflowSnapshot

section Checksum

variable {numberToString : Number → String} {sha256 : String → String}
  {workflow other : WorkflowSnapshot Number}

theorem look_checksumPayload (workflow : WorkflowSnapshot Number) (field : String)
    (path : List Step) : (checksumPayload workflow).look (.key field :: path) =
      if field ∈ CHECKSUM_FIELDS then workflow.look field path else none := by
  simp only [checksumPayload, Json.look, Json.own, OrderedMap.mem_keys_ofList, map_map,
    Function.comp_def, map_id', mem_filter, WorkflowSnapshot.look]
  by_cases isField : field ∈ CHECKSUM_FIELDS <;> cases workflow field <;> simp [isField]

theorem agreesApart_checksumPayload_iff :
    (checksumPayload workflow).AgreesApart (checksumPayload other) ↔
      workflow.AgreesApart other := by
  constructor
  · intro agrees field isField path free
    have ne : field ≠ "__proto__" :=
      ne_of_mem_of_not_mem isField (by decide : "__proto__" ∉ CHECKSUM_FIELDS)
    simpa only [look_checksumPayload, if_pos isField] using
      agrees (.key field :: path) (by simp [free, ne.symm])
  · intro agrees path free
    match path with
    | [] => rfl
    | .index _ :: _ => rfl
    | .key field :: path =>
      rw [look_checksumPayload, look_checksumPayload]
      split
      next isField => exact agrees field isField path (fun mem => free (mem_cons_of_mem _ mem))
      · rfl

theorem calculateWorkflowChecksum_eq_iff (writes : WritesNumbers numberToString)
    (noCollision : Function.Injective sha256) :
    calculateWorkflowChecksum numberToString sha256 workflow =
      calculateWorkflowChecksum numberToString sha256 other ↔ workflow.AgreesApart other := by
  rw [← agreesApart_checksumPayload_iff]
  constructor
  · intro same
    have written := congrArg (· ++ []) (String.ofList_injective (noCollision same))
    exact (Json.write_append_inj writes (by simp [Json.Ends]) (by simp [Json.Ends]) written).1
  · exact fun agrees => congrArg (sha256 ∘ String.ofList) (Json.write_eq agrees)

/-- Checksums tell apart all snapshots that do not differ in the entries of keys
`__proto__` only. -/
theorem calculateWorkflowChecksum_identifies_iff (writes : WritesNumbers numberToString)
    (noCollision : Function.Injective sha256) (workflow other : WorkflowSnapshot Number) :
    (calculateWorkflowChecksum numberToString sha256 workflow =
        calculateWorkflowChecksum numberToString sha256 other ↔ workflow.Agrees other) ↔
      (workflow.AgreesApart other → workflow.Agrees other) := by
  rw [calculateWorkflowChecksum_eq_iff writes noCollision]
  constructor
  · exact Iff.mp
  · exact fun all => ⟨all, fun agrees field isField path _ => agrees field isField path⟩

/-- A snapshot with an object whose entries are the digit one. -/
def withMeta (keys : List String) : WorkflowSnapshot (Fin 10) := fun field =>
  if field = "meta" then some (.object (.ofList (keys.map (·, ()))) fun _ => some (.number 1))
  else none

theorem calculateWorkflowChecksum_identifies_keyOrder :
    calculateWorkflowChecksum toString id (withMeta ["b", "a"]) =
        calculateWorkflowChecksum toString id (withMeta ["a", "b"]) ↔
      (withMeta ["b", "a"]).Agrees (withMeta ["a", "b"]) := by
  refine (calculateWorkflowChecksum_identifies_iff ⟨?_, ?_, ?_⟩ Function.injective_id _ _).mpr
    fun _ field _ path => ?_
  · intro first second
    revert first second
    decide
  · decide
  · exact fun number => forall_mem_of_all (by revert number; decide)
  · have sameKeys (key : String) : key ∈ (OrderedMap.ofList [("b", ()), ("a", ())]).keys ↔
        key ∈ (OrderedMap.ofList [("a", ()), ("b", ())]).keys := by
      simp [OrderedMap.mem_keys_ofList, or_comm]
    rcases path with _ | ⟨_ | key, path⟩ <;> by_cases isMeta : field = "meta" <;>
      simp [WorkflowSnapshot.look, Json.look, Json.kind, Json.own, withMeta, isMeta, sameKeys]

theorem not_identifies_proto : ¬ (calculateWorkflowChecksum toString id (withMeta []) =
        calculateWorkflowChecksum toString id (withMeta ["__proto__"]) ↔
      (withMeta []).Agrees (withMeta ["__proto__"])) := by
  intro identifies
  have agrees := identifies.mp (by decide +kernel) "meta" (by decide) [.key "__proto__"]
  cases agrees

end Checksum

end WorkflowChecksum

end N8n
