import Mathlib.Logic.Function.Basic
import N8n.Library.OrderedMap
import N8n.TaskRunnerPython.TaskAnalyzer

/-!
# The cache of the static check

All analyzers of a process share the cache.  Its keys hold the hash of the code
and the sorted allowlists, on which the violations depend and on nothing else.
-/

namespace N8n

open OrderedMap SecurityValidator

namespace TaskAnalyzer

abbrev CacheKey (Hash : Type) := Hash × List String × List String

abbrev ValidationCache (Hash : Type) := OrderedMap (CacheKey Hash) (List String)

def MAX_VALIDATION_CACHE_SIZE : Nat := 500

inductive ValidationError (SyntaxError : Type) where
  | syntaxError (error : SyntaxError)
  | securityViolation (description : String)

def sortedTuple (members : List String) : List String :=
  members.dedup.mergeSort (decide <| · ≤ ·)

def allowlists (config : SecurityConfig) : List String × List String :=
  (sortedTuple config.stdlibAllow, sortedTuple config.externalAllow)

def allowAll (config : SecurityConfig) : Bool :=
  "*" ∈ config.stdlibAllow && "*" ∈ config.externalAllow

def raiseSecurityError {SyntaxError : Type} (violations : List String) :
    Except (ValidationError SyntaxError) Unit :=
  .error (.securityViolation ("\n".intercalate violations))

variable {Hash SyntaxError : Type} [DecidableEq Hash]

section

variable (cache : ValidationCache Hash)

def moveToEnd (key : CacheKey Hash) : ValidationCache Hash :=
  match cache.get? key with
  | none => cache
  | some violations => (cache.delete key).set key violations

/-- `popitem(last=False)` -/
def popFirst : ValidationCache Hash :=
  match cache.keys with
  | [] => cache
  | key :: _ => cache.delete key

def setInCache (cacheKey : CacheKey Hash) (violations : List String) : ValidationCache Hash :=
  let cache := if MAX_VALIDATION_CACHE_SIZE ≤ cache.size then popFirst cache else cache
  moveToEnd (cache.set cacheKey violations) cacheKey

end

variable (parse : String → Except SyntaxError PyNode) (codeHash : String → Hash)

def toCacheKey (config : SecurityConfig) (code : String) : CacheKey Hash :=
  (codeHash code, allowlists config)

/-- The cache behind a call, and how the call ends. -/
def validate (config : SecurityConfig) (code : String) (cache : ValidationCache Hash) :
    ValidationCache Hash × Except (ValidationError SyntaxError) Unit :=
  if allowAll config then (cache, .ok ())
  else
    let cacheKey := toCacheKey codeHash config code
    match cache.get? cacheKey with
    | some violations =>
      (moveToEnd cache cacheKey,
        if violations.length = 0 then .ok () else raiseSecurityError violations)
    | none =>
      match parse code with
      | .error error => (cache, .error (.syntaxError error))
      | .ok tree =>
        let violations := (visit config {} tree).violations
        (setInCache cache cacheKey violations,
          if violations = [] then .ok () else raiseSecurityError violations)

/-- The cache behind calls of any analyzers. -/
def cacheAfter (calls : List (SecurityConfig × String)) : ValidationCache Hash :=
  calls.foldl (fun cache call => (validate parse codeHash call.1 call.2 cache).1) .empty

variable {left right : List String}

theorem mem_congr (same : sortedTuple left = sortedTuple right) (name : String) :
    name ∈ left ↔ name ∈ right := by
  have mem (members : List String) : name ∈ sortedTuple members ↔ name ∈ members := by
    rw [sortedTuple, List.mem_mergeSort, List.mem_dedup]
  rw [← mem, same, mem]

theorem allowedText_congr (same : sortedTuple left = sortedTuple right) :
    allowedText left = allowedText right := by
  have empty : left = [] ↔ right = [] := by
    simp only [List.eq_nil_iff_forall_not_mem, mem_congr same]
  unfold sortedTuple at same
  simp only [allowedText, empty, same]

section Congr

variable {config other : SecurityConfig}

theorem validateModuleImport_congr (names : config.stdlibModuleNames =
      other.stdlibModuleNames) (same : allowlists config = allowlists other)
    (path : String) :
    validateModuleImport path config = validateModuleImport path other := by
  obtain ⟨stdlib, external⟩ := Prod.mk.inj same
  simp only [validateModuleImport, names, mem_congr stdlib, mem_congr external,
    allowedText_congr stdlib, allowedText_congr external]

theorem visit_congr (names : config.stdlibModuleNames = other.stdlibModuleNames)
    (same : allowlists config = allowlists other) (validator : SecurityValidator)
    (tree : PyNode) :
    visit config validator tree = visit other validator tree := by
  have handled : handle config = handle other := by
    funext validator node
    cases node <;> simp only [handle, visitImport, visitImportFrom, visitCall,
      validateImport, validateModuleImport_congr names same]
  rw [visit_eq_foldl, visit_eq_foldl, handled]

end Congr

theorem get?_moveToEnd (cache : ValidationCache Hash) (key other : CacheKey Hash) :
    (moveToEnd cache key).get? other = cache.get? other := by
  unfold moveToEnd
  cases found : cache.get? key with
  | none => rfl
  | some violations =>
    by_cases same : key = other
    · simp [← same, found]
    · simp [get?_set, get?_delete, same]

theorem size_moveToEnd_le (cache : ValidationCache Hash) (key : CacheKey Hash) :
    (moveToEnd cache key).size ≤ cache.size := by
  unfold moveToEnd
  cases found : cache.get? key with
  | none => exact Nat.le_refl _
  | some violations =>
    exact (size_set_le _ _ _).trans (size_delete_of_get? found)

variable {cache : ValidationCache Hash}

theorem get?_of_popFirst {key : CacheKey Hash}
    {violations : List String} (found : (popFirst cache).get? key = some violations) :
    cache.get? key = some violations := by
  unfold popFirst at found
  split at found
  · exact found
  · rw [get?_delete] at found
    split at found
    · cases found
    · exact found

theorem size_popFirst (cache : ValidationCache Hash) : (popFirst cache).size ≤ cache.size - 1 := by
  unfold popFirst
  cases keys : cache.keys with
  | nil =>
    have empty : cache.size = 0 := by
      simpa [OrderedMap.size, OrderedMap.keys] using congrArg List.length keys
    simp [empty]
  | cons key rest =>
    obtain ⟨violations, found⟩ := Option.isSome_iff_exists.mp
      (has_iff.mpr (keys ▸ List.mem_cons_self : key ∈ cache.keys))
    exact Nat.le_sub_one_of_lt (size_delete_of_get? found)

theorem setInCache_cases {key other : CacheKey Hash} {violations found : List String}
    (isFound : (setInCache cache key violations).get? other = some found) :
    key = other ∧ violations = found ∨ cache.get? other = some found := by
  rw [setInCache, get?_moveToEnd, get?_set] at isFound
  split at isFound
  next same =>
    exact .inl ⟨same, Option.some.inj isFound⟩
  · split at isFound
    · exact .inr (get?_of_popFirst isFound)
    · exact .inr isFound

theorem size_setInCache {key : CacheKey Hash}
    (violations : List String) (bounded : cache.size ≤ MAX_VALIDATION_CACHE_SIZE) :
    (setInCache cache key violations).size ≤ MAX_VALIDATION_CACHE_SIZE := by
  refine (size_moveToEnd_le _ _).trans ((size_set_le _ _ _).trans ?_)
  have popped := size_popFirst cache
  unfold MAX_VALIDATION_CACHE_SIZE at *
  split <;> omega

/-- What is cached for a code and allowlists are their violations. -/
structure Sound (names : List String) (cache : ValidationCache Hash) : Prop where
  bounded : cache.size ≤ MAX_VALIDATION_CACHE_SIZE
  fresh : ∀ config code violations, config.stdlibModuleNames = names →
    cache.get? (toCacheKey codeHash config code) = some violations →
      ∃ tree, parse code = .ok tree ∧ violations = (visit config {} tree).violations

variable {parse codeHash} {names : List String} {cache : ValidationCache Hash}
  {config : SecurityConfig}

theorem Sound.setInCache (injective : Function.Injective codeHash)
    (sound : Sound parse codeHash names cache)
    (interpreter : config.stdlibModuleNames = names) {code : String} {tree : PyNode}
    (parsed : parse code = .ok tree) :
    Sound parse codeHash names (setInCache cache (toCacheKey codeHash config code)
      (visit config {} tree).violations) := by
  refine ⟨size_setInCache _ sound.bounded, fun other otherCode found isOther isFound => ?_⟩
  rcases setInCache_cases isFound with ⟨sameKey, rfl⟩ | old
  · obtain ⟨sameHash, sameLists⟩ := Prod.mk.inj sameKey
    refine ⟨tree, injective sameHash ▸ parsed, ?_⟩
    rw [visit_congr (interpreter.trans isOther.symm) sameLists]
  · exact sound.fresh other otherCode found isOther old

theorem Sound.validate (injective : Function.Injective codeHash)
    (sound : Sound parse codeHash names cache)
    (interpreter : config.stdlibModuleNames = names) (code : String) :
    Sound parse codeHash names (validate parse codeHash config code cache).1 ∧
      (TaskAnalyzer.validate parse codeHash config code cache).2 =
        (TaskAnalyzer.validate parse codeHash config code .empty).2 := by
  unfold TaskAnalyzer.validate
  by_cases all : allowAll config = true
  · simp only [if_pos all]
    exact ⟨sound, trivial⟩
  simp only [if_neg all, get?_empty]
  cases found : cache.get? (toCacheKey codeHash config code) with
  | some violations =>
    obtain ⟨tree, parsed, rfl⟩ := sound.fresh config code violations interpreter found
    refine ⟨⟨(size_moveToEnd_le _ _).trans sound.bounded, fun other code found => ?_⟩, ?_⟩
    · rw [get?_moveToEnd]
      exact sound.fresh other code found
    · simp only [parsed, List.length_eq_zero_iff]
  | none =>
    cases parsed : parse code with
    | error error => exact ⟨sound, rfl⟩
    | ok tree => exact ⟨sound.setInCache injective interpreter parsed, rfl⟩

theorem sound_cacheAfter (injective : Function.Injective codeHash)
    (calls : List (SecurityConfig × String))
    (interpreter : ∀ call ∈ calls, call.1.stdlibModuleNames = names) :
    Sound parse codeHash names (cacheAfter parse codeHash calls) := by
  refine List.foldlRecOn calls _ ⟨Nat.zero_le _, ?_⟩ fun cache sound call mem =>
    (sound.validate injective (interpreter call mem) call.2).1
  intro config code violations _ found
  cases found

/-- Each call ends as it does with an empty cache. -/
theorem validate_asFresh (injective : Function.Injective codeHash)
    (calls : List (SecurityConfig × String)) (config : SecurityConfig) (code : String)
    (interpreter : ∀ call ∈ calls, call.1.stdlibModuleNames = config.stdlibModuleNames) :
    (cacheAfter parse codeHash calls).size ≤ MAX_VALIDATION_CACHE_SIZE ∧
      (validate parse codeHash config code (cacheAfter parse codeHash calls)).2 =
        (validate parse codeHash config code .empty).2 := by
  have sound : Sound parse codeHash _ (cacheAfter parse codeHash calls) :=
    sound_cacheAfter injective calls interpreter
  exact ⟨sound.bounded, (sound.validate injective rfl code).2⟩

/-- The second call finds the violations of the first one. -/
theorem validate_asFresh_twice :
    let parse : String → Except Unit PyNode := fun id => .ok (.name 1 id)
    let config : SecurityConfig := ⟨[], [], []⟩
    (cacheAfter parse id [(config, "__spec__")]).size ≤ MAX_VALIDATION_CACHE_SIZE ∧
      (validate parse id config "__spec__" (cacheAfter parse id [(config, "__spec__")])).2 =
          (validate parse id config "__spec__" .empty).2 :=
  validate_asFresh Function.injective_id _ _ _ (by simp)

end TaskAnalyzer

end N8n
