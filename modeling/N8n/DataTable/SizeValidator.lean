import N8n.Library.Machine

/-!
# Size of the data tables

The size is fetched and kept for a while.  A call joins a fetch that is pending,
or starts one if what is kept is too old.  When a fetch ends, the calls that
await it store its result, even if there was a reset in between.
-/

namespace N8n

namespace SizeValidator

/-- The fields of the validator, with the number of the pending fetch. -/
structure Validator (Data : Type) where
  lastCheck : Option Nat := none
  cachedSizeData : Option Data := none
  pendingCheck : Option Nat := none

/-- When a fetch started, and how many resets there were before. -/
structure Fetch where
  startedAt : Nat
  resets : Nat

inductive CallPhase (Data : Type) where
  | awaits (fetch : Nat) (starts : Bool)
  | returned (data : Option Data)
  | threw

structure Call (Data : Type) where
  now : Nat
  resets : Nat
  phase : CallPhase Data

/-- The results of the fetches are kept to compare them with what the calls
return. -/
structure SizeChecks (Data : Type) where
  validator : Validator Data := {}
  time : Nat := 0
  resets : Nat := 0
  fetches : List Fetch := []
  settled : List Nat := []
  results : List (Nat × Data) := []
  calls : List (Call Data) := []

/-- A fetch fails without an outcome. -/
inductive Event (Data : Type) where
  | getCachedSizeData (now : Nat)
  | settle (fetch : Nat) (outcome : Option Data)
  | reset

variable {Data : Type} (duration : Nat)

namespace Validator

variable (validator : Validator Data)

def shouldRefresh (now : Nat) : Bool :=
  match validator.lastCheck, validator.cachedSizeData with
  | some lastCheck, some _ => lastCheck + duration ≤ now
  | _, _ => true

/-- How a call goes on after the fetch which it has started, or only joined. -/
def resume (outcome : Option Data) (starts : Bool) (now : Nat) : Validator Data :=
  match outcome, starts with
  | some data, true => { lastCheck := some now, cachedSizeData := some data }
  | some data, false => { validator with cachedSizeData := some data }
  | none, true => { validator with pendingCheck := none }
  | none, false => validator

/-- The calls that await a fetch go on one after the other. -/
def resumeAll (fetch : Nat) (outcome : Option Data) (calls : List (Call Data)) : Validator Data :=
  calls.foldl (fun validator call =>
    match call.phase with
    | .awaits other starts =>
      if other = fetch then validator.resume outcome starts call.now else validator
    | .returned _ | .threw => validator) validator

end Validator

/-- A call returns what it has just stored. -/
def Call.resume (fetch : Nat) (outcome : Option Data) (call : Call Data) : Call Data :=
  match call.phase with
  | .awaits other _ =>
    if other = fetch then { call with
      phase := match outcome with
        | some data => .returned (some data)
        | none => .threw }
    else call
  | .returned _ | .threw => call

namespace SizeChecks

variable (checks : SizeChecks Data)

def add (now : Nat) (phase : CallPhase Data) : SizeChecks Data :=
  { checks with
    time := now
    calls := checks.calls ++ [{ now, resets := checks.resets, phase }] }

def getCachedSizeData (now : Nat) : SizeChecks Data :=
  match checks.validator.pendingCheck with
  | some fetch => checks.add now (.awaits fetch false)
  | none =>
    if checks.validator.shouldRefresh duration now then
      { checks.add now (.awaits checks.fetches.length true) with
        validator := { checks.validator with pendingCheck := checks.fetches.length }
        fetches := checks.fetches ++ [{ startedAt := now, resets := checks.resets }] }
    else checks.add now (.returned checks.validator.cachedSizeData)

def settle (fetch : Nat) (outcome : Option Data) : SizeChecks Data :=
  { checks with
    validator := checks.validator.resumeAll fetch outcome checks.calls
    settled := fetch :: checks.settled
    results := (outcome.map (fetch, ·)).toList ++ checks.results
    calls := checks.calls.map (Call.resume fetch outcome) }

def reset : SizeChecks Data :=
  { checks with validator := {}, resets := checks.resets + 1 }

/-- Time does not run backwards. -/
def step : Machine (SizeChecks Data) (Event Data)
  | checks, .getCachedSizeData now =>
    if checks.time ≤ now then some (checks.getCachedSizeData duration now) else none
  | checks, .settle fetch outcome =>
    if fetch < checks.fetches.length ∧ fetch ∉ checks.settled then
      some (checks.settle fetch outcome)
    else none
  | checks, .reset => some checks.reset

end SizeChecks

/-- The fetch started less than the duration before, or later. -/
def Fetch.InTime (fetch : Fetch) (now : Nat) : Prop :=
  now < fetch.startedAt + duration ∨ now ≤ fetch.startedAt

instance (fetch : Fetch) (now : Nat) : Decidable (fetch.InTime duration now) :=
  inferInstanceAs (Decidable (_ ∨ _))

/-- The fetch started after the last reset before the call, and in time. -/
def Fetch.FreshFor (fetch : Fetch) (call : Call Data) : Prop :=
  call.resets ≤ fetch.resets ∧ fetch.InTime duration call.now

namespace SizeChecks

section

variable (checks : SizeChecks Data)

/-- The data is the result of a fetch that is fresh for the call. -/
def HasFresh (call : Call Data) (data : Option Data) : Prop :=
  ∃ id fetch result, checks.fetches[id]? = some fetch ∧
    (id, result) ∈ checks.results ∧ data = some result ∧ fetch.FreshFor duration call

/-- Every call that returns gives the result of a fresh fetch. -/
def ReturnsFresh : Prop :=
  ∀ call ∈ checks.calls, ∀ data, call.phase = .returned data → checks.HasFresh duration call data

/-- A call joins a fetch in time only, and no fetch succeeds after a reset which
came after its start. -/
def KeepsFresh : Event Data → Prop
  | .getCachedSizeData now => ∀ id ∈ checks.validator.pendingCheck,
    ∀ fetch ∈ checks.fetches[id]?, fetch.InTime duration now
  | .settle id (some _) =>
    ∀ fetch ∈ checks.fetches[id]?, fetch.resets = checks.resets
  | .settle _ none | .reset => True

end

instance : ∀ (checks : SizeChecks Data) (event : Event Data),
    Decidable (checks.KeepsFresh duration event)
  | _, .getCachedSizeData _ => inferInstanceAs (Decidable (∀ _ ∈ _, ∀ _ ∈ _, _))
  | _, .settle _ (some _) => inferInstanceAs (Decidable (∀ _ ∈ _, _))
  | _, .settle _ none | _, .reset => isTrue True.intro

/-- What is kept is the result of the last check, which was after the last reset,
and each fetch that is not settled has the call that started it. -/
structure Sound (checks : SizeChecks Data) : Prop where
  pending : ∀ id ∈ checks.validator.pendingCheck, ∃ fetch,
    checks.fetches[id]? = some fetch ∧ fetch.resets = checks.resets
  cached : ∀ time ∈ checks.validator.lastCheck, ∃ id fetch result,
    checks.fetches[id]? = some fetch ∧ (id, result) ∈ checks.results ∧
      checks.validator.cachedSizeData = some result ∧
        fetch.startedAt = time ∧ fetch.resets = checks.resets
  awaits : ∀ call ∈ checks.calls, ∀ id starts, call.phase = .awaits id starts →
    ∃ fetch, checks.fetches[id]? = some fetch ∧ fetch.FreshFor duration call ∧
      (starts = true → call.now = fetch.startedAt)
  started : ∀ id < checks.fetches.length, id ∉ checks.settled →
    ∃ call ∈ checks.calls, call.phase = .awaits id true
  returned : checks.ReturnsFresh duration

variable {duration} {checks next : SizeChecks Data} {id : Nat}

section Resume

variable {validator : Validator Data} {calls : List (Call Data)} {data : Data}

theorem resumeAll_none (id : Nat) (validator : Validator Data)
    (calls : List (Call Data)) : let last := validator.resumeAll id none calls
    last.lastCheck = validator.lastCheck ∧ last.cachedSizeData = validator.cachedSizeData ∧
      ∀ fetch ∈ last.pendingCheck, fetch ∈ validator.pendingCheck := by
  induction calls generalizing validator with
  | nil => exact ⟨rfl, rfl, fun _ mem => mem⟩
  | cons call calls ih =>
    simp only [Validator.resumeAll, List.foldl_cons]
    rw [← Validator.resumeAll]
    split
    next other starts _ =>
      split
      · cases starts with
        | true =>
          have later := ih (validator.resume none true call.now)
          refine ⟨later.1, later.2.1, fun fetch mem => ?_⟩
          cases later.2.2 fetch mem
        | false => exact ih _
      · exact ih _
    · exact ih _
    · exact ih _

theorem resumeAll_some {now : Nat}
    (times : ∀ call ∈ calls, call.phase = .awaits id true → call.now = now)
    (stored : validator = { lastCheck := some now, cachedSizeData := some data } ∨
      ∃ call ∈ calls, call.phase = .awaits id true) :
    validator.resumeAll id (some data) calls =
      { lastCheck := some now, cachedSizeData := some data } := by
  induction calls generalizing validator with
  | nil => exact stored.resolve_right (by simp)
  | cons call calls ih =>
    rw [List.forall_mem_cons] at times
    simp only [Validator.resumeAll, List.foldl_cons]
    rw [← Validator.resumeAll]
    rw [List.exists_mem_cons_iff] at stored
    split
    next other starts phase =>
      split
      next same =>
        subst same
        cases starts with
        | true => exact ih times.2 (.inl (by rw [Validator.resume, times.1 phase]))
        | false =>
          refine ih times.2 (stored.imp (fun same => by rw [same, Validator.resume]) ?_)
          exact fun found => found.resolve_left (by simp [phase])
      next ne =>
        exact ih times.2 (stored.imp_right fun found =>
          found.resolve_left (by simp [phase, ne]))
    next phase =>
      exact ih times.2 (stored.imp_right fun found => found.resolve_left (by simp [phase]))
    next phase =>
      exact ih times.2 (stored.imp_right fun found => found.resolve_left (by simp [phase]))

end Resume

theorem Sound.add (sound : checks.Sound duration) (now : Nat)
    (phase : CallPhase Data) {fetches : List Fetch} {validator : Validator Data}
    (lastCheck : validator.lastCheck = checks.validator.lastCheck)
    (cached : validator.cachedSizeData = checks.validator.cachedSizeData)
    (kept : ∀ (id : Nat) fetch, checks.fetches[id]? = some fetch → fetches[id]? = some fetch)
    (pending : ∀ id ∈ validator.pendingCheck, ∃ fetch,
      fetches[id]? = some fetch ∧ fetch.resets = checks.resets)
    (awaits : ∀ id starts, phase = .awaits id starts → ∃ fetch,
      fetches[id]? = some fetch ∧ checks.resets ≤ fetch.resets ∧
        fetch.InTime duration now ∧ (starts = true → now = fetch.startedAt))
    (started : ∀ id < fetches.length, checks.fetches.length ≤ id → phase = .awaits id true)
    (returned : ∀ data, phase = .returned data →
      checks.HasFresh duration { now, resets := checks.resets, phase } data) :
    { checks.add now phase with validator, fetches : SizeChecks Data }.Sound
      duration := by
  constructor
  · exact pending
  · intro time isLast
    obtain ⟨id, fetch, result, found, listed, isCached, rest⟩ :=
      sound.cached time (lastCheck ▸ isLast)
    exact ⟨id, fetch, result, kept id fetch found, listed, cached.trans isCached, rest⟩
  · intro other mem id starts isPhase
    rcases List.mem_append.mp mem with old | new
    · obtain ⟨fetch, found, rest⟩ := sound.awaits other old id starts isPhase
      exact ⟨fetch, kept id fetch found, rest⟩
    · obtain rfl := List.mem_singleton.mp new
      obtain ⟨fetch, found, resets, inTime, same⟩ := awaits id starts isPhase
      exact ⟨fetch, found, ⟨resets, inTime⟩, same⟩
  · intro id inside unsettled
    by_cases old : id < checks.fetches.length
    · obtain ⟨other, mem, isPhase⟩ := sound.started id old unsettled
      exact ⟨other, List.mem_append_left _ mem, isPhase⟩
    · refine ⟨_, List.mem_append_right _ List.mem_cons_self, ?_⟩
      exact started id inside (Nat.le_of_not_lt old)
  · intro other mem data isPhase
    have fresh : checks.HasFresh duration other data := by
      rcases List.mem_append.mp mem with old | new
      · exact sound.returned other old data isPhase
      · obtain rfl := List.mem_singleton.mp new
        exact returned data isPhase
    obtain ⟨id, fetch, result, found, rest⟩ := fresh
    exact ⟨id, fetch, result, kept id fetch found, rest⟩

theorem Sound.getCachedSizeData (sound : checks.Sound duration) (now : Nat)
    (keeps : checks.KeepsFresh duration (.getCachedSizeData now)) :
    (checks.getCachedSizeData duration now).Sound duration := by
  rw [SizeChecks.getCachedSizeData]
  split
  next id isPending =>
    obtain ⟨fetch, found, resets⟩ := sound.pending id isPending
    refine sound.add now _ rfl rfl (fun _ _ found => found) sound.pending ?_ ?_ ?_
    · rintro _ _ ⟨⟩
      exact ⟨fetch, found, resets.ge, keeps id isPending fetch found, by simp⟩
    · exact fun _ inside new => absurd inside (Nat.not_lt.mpr new)
    · rintro _ ⟨⟩
  next noPending =>
    split
    · refine sound.add now _ rfl rfl ?_ ?_ ?_ ?_ ?_
      · intro id fetch found
        rw [List.getElem?_append_left (List.getElem?_eq_some_iff.mp found).1, found]
      · rintro _ ⟨⟩
        exact ⟨_, List.getElem?_concat_length, rfl⟩
      · rintro _ _ ⟨⟩
        exact ⟨_, List.getElem?_concat_length, Nat.le_refl _, .inr (Nat.le_refl _), fun _ => rfl⟩
      · intro id inside new
        rw [List.length_append, List.length_singleton] at inside
        rw [Nat.le_antisymm new (Nat.le_of_lt_succ inside)]
      · rintro _ ⟨⟩
    next recent =>
      refine sound.add now _ rfl rfl (fun _ _ found => found) sound.pending ?_ ?_ ?_
      · rintro _ _ ⟨⟩
      · exact fun _ inside new => absurd inside (Nat.not_lt.mpr new)
      · rintro _ ⟨⟩
        rw [Validator.shouldRefresh] at recent
        split at recent
        next time _ isLast _ =>
          obtain ⟨id, fetch, result, found, listed, isCached, rfl, resets⟩ :=
            sound.cached time isLast
          refine ⟨id, fetch, result, found, listed, isCached, resets.ge, .inl ?_⟩
          simpa using recent
        · exact absurd rfl recent

section Settle

variable {call : Call Data} {outcome : Option Data}

theorem resume_eq (id : Nat) (call : Call Data) (outcome : Option Data) : call.resume id outcome = call ∨ (∃ starts,
    call.phase = .awaits id starts) ∧ call.resume id outcome = { call with
      phase := match outcome with
        | some data => .returned (some data)
        | none => .threw } := by
  simp only [Call.resume]
  split
  next other starts phase =>
    split
    next same => exact .inr ⟨⟨starts, same ▸ phase⟩, rfl⟩
    · exact .inl rfl
  all_goals exact .inl rfl

theorem resume_of_ne {other : Nat} {starts : Bool} (ne : other ≠ id)
    (phase : call.phase = .awaits other starts) : call.resume id outcome = call := by
  simp [Call.resume, phase, ne]

theorem Sound.settleValidator (sound : checks.Sound duration)
    (inside : id < checks.fetches.length) (unsettled : id ∉ checks.settled)
    (keeps : checks.KeepsFresh duration (.settle id outcome)) :
    let validator := checks.validator.resumeAll id outcome checks.calls
    (∀ other ∈ validator.pendingCheck, ∃ fetch,
        checks.fetches[other]? = some fetch ∧ fetch.resets = checks.resets) ∧
      ∀ time ∈ validator.lastCheck, ∃ other fetch result, checks.fetches[other]? = some fetch ∧
          (other, result) ∈ (checks.settle id outcome).results ∧
          validator.cachedSizeData = some result ∧
            fetch.startedAt = time ∧ fetch.resets = checks.resets := by
  cases outcome with
  | none =>
    obtain ⟨lastCheck, cached, pending⟩ := resumeAll_none id checks.validator checks.calls
    simp only [lastCheck, cached]
    exact ⟨fun other mem => sound.pending other (pending other mem), sound.cached⟩
  | some data =>
    obtain ⟨fetch, found⟩ : ∃ fetch, checks.fetches[id]? = some fetch :=
      ⟨_, List.getElem?_eq_getElem inside⟩
    have times : ∀ call ∈ checks.calls, call.phase = .awaits id true →
        call.now = fetch.startedAt := by
      intro call mem phase
      obtain ⟨other, otherFound, _, same⟩ := sound.awaits call mem id true phase
      cases found.symm.trans otherFound
      exact same rfl
    simp only [resumeAll_some times (.inr (sound.started id inside unsettled))]
    refine ⟨by simp, ?_⟩
    rintro _ ⟨⟩
    exact ⟨id, fetch, data, found, by simp [settle], rfl, rfl, keeps fetch found⟩

theorem Sound.settle (sound : checks.Sound duration)
    (inside : id < checks.fetches.length) (unsettled : id ∉ checks.settled)
    (keeps : checks.KeepsFresh duration (.settle id outcome)) :
    (checks.settle id outcome).Sound duration := by
  obtain ⟨pending, cached⟩ := sound.settleValidator inside unsettled keeps
  refine ⟨pending, cached, ?_, ?_, ?_⟩
  · intro call mem other starts phase
    obtain ⟨before, old, rfl⟩ := List.mem_map.mp mem
    rcases resume_eq id before outcome with same | ⟨_, same⟩
    · rw [same] at phase ⊢
      exact sound.awaits before old other starts phase
    · rw [same] at phase
      cases outcome <;> cases phase
  · intro other otherInside otherUnsettled
    rw [SizeChecks.settle, List.mem_cons, not_or] at otherUnsettled
    obtain ⟨call, mem, phase⟩ := sound.started other otherInside otherUnsettled.2
    refine ⟨call, List.mem_map.mpr ⟨call, mem, ?_⟩, phase⟩
    exact resume_of_ne otherUnsettled.1 phase
  · intro call mem data phase
    obtain ⟨before, old, rfl⟩ := List.mem_map.mp mem
    rcases resume_eq id before outcome with
      same | ⟨⟨starts, awaited⟩, same⟩
    · rw [same] at phase ⊢
      obtain ⟨other, fetch, result, found, listed, rest⟩ := sound.returned before old data phase
      exact ⟨other, fetch, result, found, List.mem_append_right _ listed, rest⟩
    · rw [same] at phase ⊢
      obtain ⟨fetch, found, fresh, _⟩ := sound.awaits before old id starts awaited
      cases outcome with
      | none => cases phase
      | some data =>
        cases phase
        exact ⟨id, fetch, data, found, by simp [SizeChecks.settle], rfl, fresh⟩

end Settle

theorem Sound.reset (sound : checks.Sound duration) : checks.reset.Sound duration where
  pending := by simp [SizeChecks.reset]
  cached := by simp [SizeChecks.reset]
  awaits := sound.awaits
  started := sound.started
  returned := sound.returned

theorem Sound.step {event : Event Data} (sound : checks.Sound duration)
    (keeps : checks.KeepsFresh duration event)
    (moved : SizeChecks.step duration checks event = some next) :
    next.Sound duration := by
  cases event with
  | getCachedSizeData now =>
    obtain ⟨_, rfl⟩ := Machine.of_guarded moved
    exact sound.getCachedSizeData now keeps
  | settle fetch outcome =>
    obtain ⟨⟨inside, unsettled⟩, rfl⟩ := Machine.of_guarded moved
    exact sound.settle inside unsettled keeps
  | reset =>
    cases moved
    exact sound.reset

/-- In a run whose calls join fetches in time, and in which no fetch succeeds after
a reset which came after its start, every call returns fresh data. -/
theorem returnsFresh_of_keepsFresh (duration : Nat) {events : List (Event Data)}
    (meets : (SizeChecks.step duration).Meets (KeepsFresh duration) {} events) :
    (SizeChecks.step duration).Always (ReturnsFresh duration) {} events := by
  refine Machine.always_of_meets (fun _ _ _ sound keeps moved => Sound.step sound keeps moved)
    (fun _ sound => Sound.returned sound) ?_ meets
  constructor <;> simp [ReturnsFresh]

/-- A fetch that is shared and whose result is used again. -/
theorem returnsFresh_shared : (SizeChecks.step 10).Always (ReturnsFresh 10) {}
      [.getCachedSizeData 1, .getCachedSizeData 2, .settle 0 (some 5), .getCachedSizeData 4] :=
  returnsFresh_of_keepsFresh 10 (by decide)

/-- What was fetched before a reset is returned after it. -/
theorem not_returnsFresh_resetDuringFetch :
    ¬ ∀ events, (SizeChecks.step 10).Always (ReturnsFresh 10) ({} : SizeChecks Nat) events := by
  intro always
  obtain ⟨id, fetch, _, found, _, _, resets, _⟩ := always
    [.getCachedSizeData 1, .reset, .settle 0 (some 5), .getCachedSizeData 2]
    _ List.prefix_rfl _ rfl _ (List.mem_cons_of_mem _ List.mem_cons_self) _ rfl
  cases id with
  | zero =>
    cases found
    cases resets
  | succ => cases found

end SizeChecks

end SizeValidator

end N8n
