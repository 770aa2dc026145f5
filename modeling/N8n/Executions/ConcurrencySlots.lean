import N8n.Executions.ActiveExecutions

/-!
# Concurrency slots

A call of `add` that the concurrency control lets through holds a slot until
the callback of its promise has run.  The slot is lost when the call fails
before it registers the execution, and when the registration is replaced or
deleted before its promise settles.
-/

namespace N8n

open List OrderedMap Nat

namespace ActiveExecutions

/-- Slots are given back once by the time the execution is finalized or its
call of `add` has failed, and only by calls that hold one. -/
structure ReleasesOnce (active : ActiveExecutions) : Prop where
  held : ∀ addId, active.released.count addId ≤ active.acquired.count addId
  single : ∀ addId, active.acquired.count addId ≤ 1
  once : ∀ addId call, active.calls[addId]? = some call → addId ∈ active.acquired →
    call.phase = .failed ∨ call.finalized = true ∧ call.postExecutePromise ≠ .settled →
    active.released.count addId = 1

/-- The slot of a registered execution that has not ended. -/
def InUse (active : ActiveExecutions) (addId : AddId) : Prop :=
  addId ∈ active.acquired ∧ ∀ call, active.calls[addId]? = some call →
    call.postExecutePromise = .pending

/-- No slot is lost, and none is given back that nobody holds. -/
def KeepsSlots (active : ActiveExecutions) : ActiveEvent → Prop
  | .saveFails addId => addId ∉ active.acquired
  | .saved addId => ∀ call, active.calls[addId]? = some call → ∀ executionId ∈ call.executionId,
      ∀ other ∈ active.activeExecutions.get? executionId, ¬ active.InUse other
  | .stopExecution executionId =>
    ∀ entry ∈ active.get? executionId, entry.2.status = .waiting → ¬ active.InUse entry.1
  | .promiseHandled addId => ∀ call, active.calls[addId]? = some call →
      call.status ≠ .waiting → ∀ executionId ∈ call.executionId,
      ∀ other ∈ active.activeExecutions.get? executionId, other ≠ addId → ¬ active.InUse other
  | .remove mode executionId =>
    ∀ queue ∈ active.control.getQueue mode, executionId ∈ queue.queue → queue.queue = [executionId]
  | .shutdown _ => active.control.isEnabled = false
  | _ => True

/-- What holds of a call while no slot is lost. -/
structure CallSound (active : ActiveExecutions) (addId : AddId)
    (call : AddCall) : Prop where
  waits : call.phase = .throttled → active.control.limits call.mode = true
  unheld : call.phase ≠ .saving → call.phase ≠ .added → active.acquired.count addId = 0
  held : call.phase = .saving ∨ call.phase = .added →
    active.acquired.count addId = if active.control.limits call.mode then 1 else 0
  released : active.released.count addId =
    if call.postExecutePromise = .handled then active.acquired.count addId
    else 0
  early : call.phase ≠ .added → call.postExecutePromise = .pending ∧ call.finalized = false
  current : active.acquired.count addId ≠ 0 → call.phase = .added →
    call.postExecutePromise = .pending →
    call.finalized = false ∧ ∃ executionId, call.executionId = some executionId ∧
      active.activeExecutions.get? executionId = some addId

structure Sound (active : ActiveExecutions) : Prop where
  regular : active.control.isEnabled = true → active.regular = true
  calls : ∀ addId call, active.calls[addId]? = some call → active.CallSound addId call
  unknown : ∀ addId, active.calls[addId]? = none →
    active.acquired.count addId = 0 ∧ active.released.count addId = 0
  entries : ∀ executionId addId, active.activeExecutions.get? executionId = some addId →
    ∃ call, active.calls[addId]? = some call ∧ call.phase = .added

section Changes

variable {active after : ActiveExecutions} {addId : AddId} {call next : AddCall}

theorem getElem?_setCall (found : active.calls[addId]? = some call) (other : AddId) :
    (active.calls.set addId next)[other]? =
      if addId = other then some next else active.calls[other]? := by
  rw [getElem?_set]
  split
  next same =>
    rw [if_pos (List.getElem?_eq_some_iff.mp found).1]
  · rfl

theorem Sound.change (sound : active.Sound) (found : active.calls[addId]? = some call)
    (calls : after.calls = active.calls.set addId next)
    (regular : after.regular = active.regular)
    (enabled : after.control.isEnabled = active.control.isEnabled)
    (limits : ∀ mode, after.control.limits mode = active.control.limits mode)
    (others : ∀ other, other ≠ addId → after.acquired.count other = active.acquired.count other ∧
        after.released.count other = active.released.count other)
    (entries : ∀ executionId other, after.activeExecutions.get? executionId = some other →
      other ≠ addId →
      active.activeExecutions.get? executionId = some other)
    (entry : ∀ executionId, after.activeExecutions.get? executionId = some addId →
      next.phase = .added)
    (kept : ∀ executionId other otherCall, other ≠ addId → active.calls[other]? = some otherCall →
      active.acquired.count other ≠ 0 → otherCall.phase = .added →
      otherCall.postExecutePromise = .pending →
      active.activeExecutions.get? executionId = some other →
      after.activeExecutions.get? executionId = some other)
    (its : after.CallSound addId next) : after.Sound := by
  constructor
  · rw [enabled, regular]
    exact sound.regular
  · intro other otherCall otherFound
    rw [calls, getElem?_setCall found] at otherFound
    split at otherFound
    next same =>
      subst same
      cases otherFound
      exact its
    next ne =>
      have before := sound.calls other otherCall otherFound
      obtain ⟨acquired, released⟩ := others other (Ne.symm ne)
      constructor
      · rw [limits]
        exact before.waits
      · rw [acquired]
        exact before.unheld
      · rw [acquired, limits]
        exact before.held
      · rw [acquired, released]
        exact before.released
      · exact before.early
      · rw [acquired]
        intro held added pending
        obtain ⟨open_, executionId, its, registered⟩ := before.current held added pending
        exact ⟨open_, executionId, its, kept executionId other otherCall
          (Ne.symm ne) otherFound held added pending registered⟩
  · intro other missing
    rw [calls, getElem?_setCall found] at missing
    split at missing
    · cases missing
    next ne =>
      obtain ⟨acquired, released⟩ := others other (Ne.symm ne)
      rw [acquired, released]
      exact sound.unknown other missing
  · intro executionId other registered
    rw [calls, getElem?_setCall found]
    split
    next same =>
      subst same
      exact ⟨next, rfl, entry executionId registered⟩
    next ne =>
      exact sound.entries executionId other (entries executionId other registered (Ne.symm ne))

theorem count_snoc_ne {addIds : List AddId} {other : AddId} (ne : other ≠ addId) :
    (addIds ++ [addId]).count other = addIds.count other := by
  simp [count_append, ne.symm]

theorem throttled_eq_some {type : Option ConcurrencyQueueType} {executionId : String}
    (found : active.throttled type executionId = some addId) :
    ∃ call, active.calls[addId]? = some call ∧ call.phase = .throttled := by
  obtain ⟨bound, waits, _⟩ := findIdx?_eq_some_iff_getElem.mp found
  simp only [Bool.and_eq_true, decide_eq_true_eq] at waits
  exact ⟨_, getElem?_eq_getElem bound, waits.1.1⟩

theorem Sound.changePhase (sound : active.Sound)
    (found : active.calls[addId]? = some call) (unregistered : call.phase ≠ .added)
    (calls : after.calls = active.calls.set addId next)
    (regular : after.regular = active.regular)
    (enabled : after.control.isEnabled = active.control.isEnabled)
    (limits : ∀ mode, after.control.limits mode = active.control.limits mode)
    (others : ∀ other, other ≠ addId → after.acquired.count other = active.acquired.count other ∧
        after.released.count other = active.released.count other)
    (entries : after.activeExecutions = active.activeExecutions)
    (its : after.CallSound addId next) : after.Sound := by
  apply sound.change found calls regular enabled limits others
  · rw [entries]
    exact fun _ _ registered _ => registered
  · rw [entries]
    intro executionId registered
    obtain ⟨other, otherFound, added⟩ := sound.entries _ _ registered
    cases found.symm.trans otherFound
    exact absurd added unregistered
  · rw [entries]
    exact fun _ _ _ _ _ _ _ _ registered => registered
  · exact its

theorem Sound.letThrough (sound : active.Sound)
    (type : Option ConcurrencyQueueType) (executionId : String) :
    (active.letThrough type executionId).Sound := by
  simp only [ActiveExecutions.letThrough]
  split
  · exact sound
  next addId waits =>
    obtain ⟨call, found, throttled⟩ := throttled_eq_some waits
    simp only [found]
    have its := sound.calls addId call found
    have unregistered : call.phase ≠ .added := by
      rw [throttled]
      exact nofun
    have unheld := its.unheld (throttled ▸ nofun) unregistered
    obtain ⟨pending, _⟩ := its.early unregistered
    refine sound.changePhase found unregistered rfl rfl rfl (fun _ => rfl) ?_ rfl ?_
    · exact fun other ne => ⟨count_snoc_ne ne, rfl⟩
    · constructor
      · exact nofun
      · exact fun saving => absurd rfl saving
      · intro _
        simp [setCall, unheld, its.waits throttled]
      · simpa [setCall, pending] using its.released
      · exact fun _ => its.early unregistered
      · exact fun _ => nofun

theorem Sound.control (sound : active.Sound) {control : ConcurrencyControl}
    (enabled : control.isEnabled = active.control.isEnabled)
    (limits : ∀ mode, control.limits mode = active.control.limits mode) :
    { active with control := control }.Sound := by
  constructor
  · rw [enabled]
    exact sound.regular
  · intro addId call found
    have its := sound.calls addId call found
    constructor
    · rw [limits]
      exact its.waits
    · exact its.unheld
    · rw [limits]
      exact its.held
    · exact its.released
    · exact its.early
    · exact its.current
  · exact sound.unknown
  · exact sound.entries

theorem Sound.letNext (sound : active.Sound) (mode other : ExecutionMode)
    (call : ConcurrencyQueue → ConcurrencyQueue × Option String) :
    (active.letNext other (active.control.onQueue mode call)).Sound := by
  have changed : { active with
      control := (active.control.onQueue mode call).1 }.Sound := by
    apply sound.control
    · exact (ConcurrencyControl.limits_onQueue mode mode call).1
    · exact fun other =>
        (ConcurrencyControl.limits_onQueue mode other call).2
  simp only [ActiveExecutions.letNext]
  split
  · exact changed
  · exact changed.letThrough _ _

end Changes

section Steps

variable {active next : ActiveExecutions} {addId : AddId} {call : AddCall}

theorem Sound.addCall (sound : active.Sound) (mode : ExecutionMode) :
    (active.addCall mode).Sound := by
  have fresh : active.acquired.count active.calls.length = 0 ∧
      active.released.count active.calls.length = 0 :=
    sound.unknown _ (getElem?_eq_none (Nat.le_refl _))
  constructor
  · exact sound.regular
  · intro addId call found
    rcases lt_or_ge addId active.calls.length with before | new
    · have old : active.calls[addId]? = some call := by
        rw [← found]
        exact (getElem?_append_left before).symm
      have its := sound.calls addId call old
      exact ⟨its.waits, its.unheld, its.held, its.released, its.early, its.current⟩
    · have bound := (List.getElem?_eq_some_iff.mp found).1
      simp only [ActiveExecutions.addCall, List.length_append, length_singleton] at bound
      have last : addId = active.calls.length := Nat.le_antisymm (Nat.lt_succ_iff.mp bound) new
      subst last
      have created : some { mode := mode } = some call := getElem?_concat_length.symm.trans found
      cases created
      constructor
      · exact nofun
      · exact fun _ _ => fresh.1
      · exact nofun
      · exact fresh.2
      · exact fun _ => ⟨rfl, rfl⟩
      · exact fun _ => nofun
  · intro addId missing
    apply sound.unknown
    apply getElem?_eq_none
    have bound := getElem?_eq_none_iff.mp missing
    simp only [ActiveExecutions.addCall, List.length_append] at bound
    exact le_trans (le_add_right _ _) bound
  · intro executionId addId registered
    obtain ⟨call, found, added⟩ := sound.entries _ _ registered
    refine ⟨call, ?_, added⟩
    rw [ActiveExecutions.addCall, getElem?_append_left]
    · exact found
    · exact (List.getElem?_eq_some_iff.mp found).1

theorem Sound.throttle (sound : active.Sound) (found : active.calls[addId]? = some call)
    (creating : call.phase = .creating) (executionId : String) :
    (active.throttle addId call executionId).Sound := by
  have its := sound.calls addId call found
  have unregistered : call.phase ≠ .added := by
    rw [creating]
    exact nofun
  have unheld := its.unheld (creating ▸ nofun) unregistered
  obtain ⟨pending, open_⟩ := its.early unregistered
  simp only [ActiveExecutions.throttle]
  split
  next limited =>
    apply Sound.letNext
    refine sound.changePhase found unregistered rfl rfl rfl (fun _ => rfl) ?_ rfl ?_
    · exact fun _ _ => ⟨rfl, rfl⟩
    · constructor
      · exact fun _ => limited
      · exact fun _ _ => unheld
      · exact nofun
      · exact its.released
      · exact fun _ => ⟨pending, open_⟩
      · exact fun _ => nofun
  next unlimited =>
    refine sound.changePhase found unregistered rfl rfl rfl (fun _ => rfl) ?_ rfl ?_
    · exact fun _ _ => ⟨rfl, rfl⟩
    · constructor
      · exact nofun
      · exact fun saving => absurd rfl saving
      · intro _
        simpa [setCall, unlimited] using unheld
      · exact its.released
      · exact fun _ => ⟨pending, open_⟩
      · exact fun _ => nofun

theorem Sound.register (sound : active.Sound)
    (found : active.calls[addId]? = some call) (unregistered : call.phase ≠ .added)
    (held : active.acquired.count addId =
      if active.control.limits call.mode then 1 else 0)
    (executionId : String)
    (free : ∀ other ∈ active.activeExecutions.get? executionId, ¬ active.InUse other) :
    (active.register addId call executionId).Sound := by
  have its := sound.calls addId call found
  obtain ⟨pending, open_⟩ := its.early unregistered
  refine sound.change found rfl rfl rfl (fun _ => rfl) ?_ ?_ ?_ ?_ ?_
  · exact fun _ _ => ⟨rfl, rfl⟩
  · intro other otherId registered ne
    simp only [ActiveExecutions.register, get?_set] at registered
    split at registered
    · cases registered
      exact absurd rfl ne
    · exact registered
  · exact fun _ _ => rfl
  · intro other otherId otherCall ne otherFound acquired added otherPending registered
    simp only [ActiveExecutions.register, get?_set]
    split
    next same =>
      subst same
      apply absurd _ (free otherId registered)
      refine ⟨count_pos_iff.mp (Nat.pos_of_ne_zero acquired), ?_⟩
      intro sameCall sameFound
      cases otherFound.symm.trans sameFound
      exact otherPending
    · exact registered
  · constructor
    · intro throttled
      cases throttled
    · exact fun _ added => absurd rfl added
    · exact fun _ => held
    · exact its.released
    · exact fun added => absurd rfl added
    · intro _ _ _
      refine ⟨open_, executionId, rfl, ?_⟩
      simp [ActiveExecutions.register]

variable {executionId : String}

theorem get?_eq_some {entry : AddId × AddCall} : active.get? executionId = some entry ↔
      active.activeExecutions.get? executionId = some entry.1 ∧
        active.calls[entry.1]? = some entry.2 := by
  simp only [ActiveExecutions.get?, Option.bind_eq_some_iff, Option.map_eq_some_iff]
  constructor
  · intro held
    obtain ⟨addId, registered, call, found, same⟩ := held
    subst same
    exact ⟨registered, found⟩
  · intro held
    exact ⟨_, held.1, _, held.2, rfl⟩

theorem Sound.update (sound : active.Sound)
    (found : active.calls[addId]? = some call) (status : ExecutionStatus)
    (responsePromise : Bool) :
    (active.setCall addId { call with
        status := status
        responsePromise := responsePromise }).Sound := by
  have its := sound.calls addId call found
  refine sound.change found rfl rfl rfl (fun _ => rfl) ?_ ?_ ?_ ?_ ?_
  · exact fun _ _ => ⟨rfl, rfl⟩
  · exact fun _ _ registered _ => registered
  · intro executionId registered
    obtain ⟨other, otherFound, added⟩ := sound.entries _ _ registered
    cases found.symm.trans otherFound
    exact added
  · exact fun _ _ _ _ _ _ _ _ registered => registered
  · exact ⟨its.waits, its.unheld, its.held, its.released, its.early, its.current⟩

theorem Sound.settle (sound : active.Sound)
    (registered : active.activeExecutions.get? executionId = some addId) :
    (active.settle addId).Sound := by
  obtain ⟨call, found, added⟩ := sound.entries _ _ registered
  have its := sound.calls addId call found
  simp only [ActiveExecutions.settle, found]
  split
  next pending =>
    refine sound.change found rfl rfl rfl (fun _ => rfl) ?_ ?_ ?_ ?_ ?_
    · exact fun _ _ => ⟨rfl, rfl⟩
    · exact fun _ _ registered _ => registered
    · exact fun _ _ => added
    · exact fun _ _ _ _ _ _ _ _ registered => registered
    · constructor
      · exact its.waits
      · exact its.unheld
      · exact its.held
      · simpa [setCall, pending] using its.released
      · exact fun other => absurd added other
      · exact fun _ _ => nofun
  · exact sound

theorem settled_settle (found : (active.settle addId).calls[addId]? =
    some call) : call.postExecutePromise ≠ .pending := by
  simp only [ActiveExecutions.settle] at found
  split at found
  next missing =>
    cases missing.symm.trans found
  next old oldFound =>
    split at found
    · rw [setCall, getElem?_setCall oldFound, if_pos rfl] at found
      cases found
      exact nofun
    next settled =>
      cases oldFound.symm.trans found
      exact settled

theorem Sound.finish (sound : active.Sound)
    (ended : ∀ addId call, active.activeExecutions.get? executionId = some addId →
      active.calls[addId]? = some call →
      call.postExecutePromise ≠ .pending) :
    (active.finish executionId).Sound := by
  constructor
  · exact sound.regular
  · intro addId changed found
    simp only [ActiveExecutions.finish, getElem?_map, Option.map_eq_some_iff] at found
    obtain ⟨call, found, rfl⟩ := found
    have its := sound.calls addId call found
    split
    next ends =>
      constructor
      · exact its.waits
      · exact its.unheld
      · exact its.held
      · exact its.released
      · exact fun other => absurd ends.1 other
      · intro held added pending
        obtain ⟨_, other, registeredAs, registered⟩ := its.current held added pending
        cases registeredAs.symm.trans ends.2
        exact absurd pending (ended addId call registered found)
    · exact ⟨its.waits, its.unheld, its.held, its.released, its.early, its.current⟩
  · intro addId missing
    simp only [ActiveExecutions.finish, getElem?_map, Option.map_eq_none_iff] at missing
    exact sound.unknown addId missing
  · intro other addId registered
    obtain ⟨call, found, added⟩ := sound.entries other addId registered
    simp only [ActiveExecutions.finish, getElem?_map, found, Option.map_some]
    split
    · exact ⟨_, rfl, added⟩
    · exact ⟨_, rfl, added⟩

theorem Sound.delete (sound : active.Sound)
    (unused : ∀ addId, active.activeExecutions.get? executionId = some addId →
      ¬ active.InUse addId) :
    { active with
      activeExecutions :=
        active.activeExecutions.delete executionId }.Sound := by
  constructor
  · exact sound.regular
  · intro addId call found
    have its := sound.calls addId call found
    refine ⟨its.waits, its.unheld, its.held, its.released, its.early, ?_⟩
    intro held added pending
    obtain ⟨open_, other, registeredAs, registered⟩ := its.current held added pending
    refine ⟨open_, other, registeredAs, ?_⟩
    rw [get?_delete, if_neg]
    · exact registered
    · intro same
      subst same
      apply unused addId registered
      refine ⟨count_pos_iff.mp (Nat.pos_of_ne_zero held), ?_⟩
      intro sameCall sameFound
      cases found.symm.trans sameFound
      exact pending
  · exact sound.unknown
  · intro other addId registered
    rw [get?_delete] at registered
    split at registered
    · cases registered
    · exact sound.entries other addId registered

theorem activeExecutions_settle (addId : AddId) :
    (active.settle addId).activeExecutions = active.activeExecutions := by
  simp only [ActiveExecutions.settle]
  split
  · rfl
  · split <;> rfl

theorem Sound.finishSettled (sound : active.Sound)
    (registered : active.activeExecutions.get? executionId = some addId) :
    ((active.settle addId).finish executionId).Sound := by
  apply (sound.settle registered).finish
  intro other call same found
  rw [activeExecutions_settle, registered] at same
  cases same
  exact settled_settle found

theorem Sound.finalizeExecution (sound : active.Sound) (executionId : String) :
    ((active.finalizeExecution executionId).finish executionId).Sound := by
  simp only [ActiveExecutions.finalizeExecution]
  split
  next missing =>
    apply sound.finish
    intro addId call registered
    cases missing.symm.trans registered
  next registered =>
    exact sound.finishSettled registered

theorem Sound.stopExecution (sound : active.Sound) (unused : ∀ entry ∈ active.get? executionId,
      entry.2.status = .waiting → ¬ active.InUse entry.1) :
    ((active.stopExecution executionId).finish executionId).Sound := by
  simp only [ActiveExecutions.stopExecution]
  split
  next missing =>
    apply sound.finish
    intro addId call registered found
    have present : active.get? executionId = some (addId, call) :=
      get?_eq_some.mpr ⟨registered, found⟩
    cases missing.symm.trans present
  next addId call present =>
    obtain ⟨registered, found⟩ := get?_eq_some.mp present
    split
    next waiting =>
      refine (sound.delete ?_).finish ?_
      · intro other same
        cases registered.symm.trans same
        exact unused _ present waiting
      · intro other otherCall same
        rw [get?_delete, if_pos rfl] at same
        cases same
    · exact sound.finishSettled registered

theorem Sound.releaseSlot (sound : active.Sound) (found : active.calls[addId]? = some call)
    (settled : call.postExecutePromise = .settled) :
    { active.setCall addId { call with postExecutePromise := .handled } with
      released := if active.control.limits call.mode then
          active.released ++ [addId]
        else active.released }.Sound := by
  have its := sound.calls addId call found
  have added : call.phase = .added := by
    apply Classical.byContradiction
    intro unregistered
    have pending := (its.early unregistered).1
    rw [settled] at pending
    cases pending
  refine sound.change found rfl rfl rfl (fun _ => rfl) ?_ ?_ ?_ ?_ ?_
  · intro other ne
    refine ⟨rfl, ?_⟩
    split
    · exact count_snoc_ne ne
    · rfl
  · exact fun _ _ registered _ => registered
  · exact fun _ _ => added
  · exact fun _ _ _ _ _ _ _ _ registered => registered
  · have unreleased : active.released.count addId = 0 := by
      simpa [settled] using its.released
    constructor
    · exact its.waits
    · exact its.unheld
    · exact its.held
    · have held := its.held (.inr added)
      by_cases limited : active.control.limits call.mode = true
      · simp [setCall, held, limited, unreleased]
      · simp [setCall, held, limited, unreleased]
    · exact fun other => absurd added other
    · exact fun _ _ => nofun

theorem letNext_withEntries (mode : ExecutionMode) (resolved : ConcurrencyControl × Option String)
    (entries : OrderedMap String AddId) :
    { active.letNext mode resolved with activeExecutions := entries } =
      { active with activeExecutions := entries }.letNext mode resolved := by
  simp only [letNext, letThrough, throttled]
  split
  · rfl
  · split
    · rfl
    · split <;> rfl

theorem activeExecutions_letNext (mode : ExecutionMode)
    (resolved : ConcurrencyControl × Option String) :
    (active.letNext mode resolved).activeExecutions =
      active.activeExecutions := by
  simp only [letNext, letThrough]
  split
  · rfl
  · split
    · rfl
    · split <;> rfl

theorem Sound.handlePromise (sound : active.Sound) (found : active.calls[addId]? = some call)
    (settled : call.postExecutePromise = .settled)
    (unused : call.status ≠ .waiting → ∀ executionId ∈ call.executionId,
      ∀ other ∈ active.activeExecutions.get? executionId, other ≠ addId → ¬ active.InUse other) :
    (active.handlePromise addId call).Sound := by
  have released := sound.releaseSlot found settled
  simp only [ActiveExecutions.handlePromise]
  split
  · exact released.letNext _ _ _
  next executionId its =>
    split
    · exact released.letNext _ _ _
    next notWaiting =>
      rw [letNext_withEntries, activeExecutions_letNext]
      refine Sound.letNext ?_ _ _ _
      apply released.delete
      intro other registered inUse
      by_cases same : other = addId
      · subst same
        have pending := inUse.2 { call with postExecutePromise := .handled }
          (by rw [setCall, getElem?_setCall found, if_pos rfl])
        cases pending
      · refine unused notWaiting executionId its other registered same ?_
        refine ⟨inUse.1, ?_⟩
        intro otherCall otherFound
        apply inUse.2
        rw [setCall, getElem?_setCall found, if_neg (Ne.symm same)]
        exact otherFound

variable {mode : ExecutionMode}

theorem remove_alone {control : ConcurrencyControl} (alone : ∀ queue ∈ control.getQueue mode,
      executionId ∈ queue.queue → queue.queue = [executionId]) :
    (control.remove mode executionId).2 = none := by
  simp only [ConcurrencyControl.remove, ConcurrencyControl.onQueue]
  split
  next type queue _ found =>
    split
    · simp only [ConcurrencyQueue.remove]
      split
      next waits =>
        simp [alone queue found waits, ConcurrencyQueue.resolveNext]
      · rfl
    · rfl
  · rfl

theorem Sound.remove (sound : active.Sound) (alone : ∀ queue ∈ active.control.getQueue mode,
      executionId ∈ queue.queue → queue.queue = [executionId]) :
    (active.remove mode executionId).Sound := by
  have nobody := remove_alone alone
  simp only [ActiveExecutions.remove]
  split
  · exact sound.letNext _ _ _
  next addId waits =>
    obtain ⟨call, found, throttled⟩ := throttled_eq_some waits
    have its := sound.calls addId call found
    have unregistered : call.phase ≠ .added := by
      rw [throttled]
      exact nofun
    simp only [found, nobody, Option.isSome_none, Bool.false_eq_true, if_false]
    refine Sound.letNext ?_ _ _ _
    refine sound.changePhase found unregistered rfl rfl rfl (fun _ => rfl) ?_ rfl ?_
    · exact fun _ _ => ⟨rfl, rfl⟩
    · constructor
      · exact nofun
      · exact fun _ _ => its.unheld (throttled ▸ nofun) unregistered
      · exact nofun
      · exact its.released
      · exact fun _ => its.early unregistered
      · exact fun _ => nofun

theorem Sound.not_inUse (sound : active.Sound)
    (disabled : active.control.isEnabled = false) (addId : AddId) :
    ¬ active.InUse addId := by
  intro inUse
  have held : active.acquired.count addId ≠ 0 := Nat.ne_of_gt (count_pos_iff.mpr inUse.1)
  cases found : active.calls[addId]? with
  | none => exact held (sound.unknown addId found).1
  | some call =>
    have its := sound.calls addId call found
    have unlimited : active.control.limits call.mode ≠ true := by
      simp [ConcurrencyControl.limits, disabled]
    by_cases taken : call.phase = .saving ∨ call.phase = .added
    · apply held
      rw [its.held taken, if_neg unlimited]
    · apply held
      apply its.unheld
      · exact fun saving => taken (.inl saving)
      · exact fun added => taken (.inr added)

theorem Sound.shutdownExecution (sound : active.Sound)
    (disabled : active.control.isEnabled = false) (cancelAll : Bool)
    (executionId : String) :
    (active.shutdownExecution cancelAll executionId).Sound ∧
      (active.shutdownExecution cancelAll executionId).control =
        active.control := by
  have control : ((active.stopExecution executionId).finish
      executionId).control = active.control := by
    simp only [ActiveExecutions.finish, ActiveExecutions.stopExecution, ActiveExecutions.settle]
    repeat' split
    all_goals rfl
  simp only [ActiveExecutions.shutdownExecution]
  split
  · exact ⟨sound, rfl⟩
  · split
    · refine ⟨?_, control⟩
      apply sound.stopExecution
      exact fun entry _ _ => sound.not_inUse disabled entry.1
    · split
      · refine ⟨?_, rfl⟩
        apply sound.delete
        exact fun addId _ => sound.not_inUse disabled addId
      · exact ⟨sound, rfl⟩

theorem Sound.shutdown (sound : active.Sound)
    (disabled : active.control.isEnabled = false) (cancelAll : Bool) :
    (active.shutdown cancelAll).Sound := by
  have turns : ∀ (executionIds : List String) (active : ActiveExecutions),
      active.Sound → active.control.isEnabled = false →
      (executionIds.foldl (ActiveExecutions.shutdownExecution cancelAll) active).Sound := by
    intro executionIds
    induction executionIds with
    | nil => exact fun _ sound _ => sound
    | cons executionId executionIds ih =>
      intro active sound disabled
      obtain ⟨turn, control⟩ := sound.shutdownExecution disabled cancelAll executionId
      exact ih _ turn (control ▸ disabled)
  have same : active.control.disable = active.control := by
    rw [ConcurrencyControl.disable, ← disabled]
  simp only [ActiveExecutions.shutdown, same, ite_self]
  exact turns _ _ sound disabled

theorem Sound.fail (sound : active.Sound) (found : active.calls[addId]? = some call)
    (unregistered : call.phase ≠ .added)
    (unheld : active.acquired.count addId = 0) :
    (active.setCall addId { call with phase := .failed }).Sound := by
  have its := sound.calls addId call found
  refine sound.changePhase found unregistered rfl rfl rfl (fun _ => rfl) ?_ rfl ?_
  · exact fun _ _ => ⟨rfl, rfl⟩
  · constructor
    · exact nofun
    · exact fun _ _ => unheld
    · exact nofun
    · exact its.released
    · exact fun _ => its.early unregistered
    · exact fun _ => nofun

theorem sound_step (event : ActiveEvent) (sound : active.Sound) (keeps : active.KeepsSlots event)
    (moved : step active event = some next) : next.Sound := by
  cases event with
  | add mode =>
    cases moved
    exact sound.addCall mode
  | resume mode executionId =>
    cases moved
    apply (sound.addCall mode).throttle
    · exact getElem?_concat_length
    · rfl
  | created addId executionId =>
    simp only [step] at moved
    split at moved
    · cases moved
    next call found =>
      simp only [Option.ite_none_right_eq_some] at moved
      obtain ⟨⟨creating, fresh⟩, moved⟩ := moved
      split at moved
      · cases moved
        exact sound.throttle found creating executionId
      next scaling =>
        cases moved
        have disabled : active.control.isEnabled = false := by
          rw [← Bool.not_eq_true]
          exact fun enabled => scaling (sound.regular enabled)
        have unlimited : active.control.limits call.mode ≠ true := by
          simp [ConcurrencyControl.limits, disabled]
        refine sound.register found (by simp [creating]) ?_ executionId ?_
        · rw [if_neg unlimited]
          exact (sound.calls addId call found).unheld (by simp [creating]) (by simp [creating])
        · exact fun other _ => sound.not_inUse disabled other
  | createFails addId =>
    simp only [step] at moved
    split at moved
    · cases moved
    next call found =>
      obtain ⟨creating, rfl⟩ := Machine.of_guarded moved
      apply sound.fail found (by simp [creating])
      exact (sound.calls addId call found).unheld (by simp [creating]) (by simp [creating])
  | saved addId =>
    simp only [step] at moved
    split at moved
    · cases moved
    next call found =>
      split at moved
      next executionId saving its =>
        cases moved
        apply sound.register found (by simp [saving])
        · exact (sound.calls addId call found).held (.inl saving)
        · exact keeps call found executionId its
      · cases moved
  | saveFails addId =>
    simp only [step] at moved
    split at moved
    · cases moved
    next call found =>
      obtain ⟨saving, rfl⟩ := Machine.of_guarded moved
      apply sound.fail found (by simp [saving])
      exact count_eq_zero.mpr keeps
  | setStatus executionId status =>
    simp only [step, ActiveExecutions.update, Option.map_eq_some_iff] at moved
    obtain ⟨entry, present, rfl⟩ := moved
    obtain ⟨_, found⟩ := get?_eq_some.mp present
    exact sound.update found status _
  | attachResponsePromise executionId =>
    simp only [step, ActiveExecutions.update, Option.map_eq_some_iff] at moved
    obtain ⟨entry, present, rfl⟩ := moved
    obtain ⟨_, found⟩ := get?_eq_some.mp present
    exact sound.update found _ true
  | stopExecution executionId =>
    cases moved
    exact sound.stopExecution keeps
  | finalizeExecution executionId =>
    cases moved
    exact sound.finalizeExecution executionId
  | promiseHandled addId =>
    simp only [step] at moved
    split at moved
    · cases moved
    next call found =>
      obtain ⟨settled, rfl⟩ := Machine.of_guarded moved
      exact sound.handlePromise found settled (keeps call found)
  | remove mode executionId =>
    obtain ⟨_, rfl⟩ := Machine.of_guarded moved
    exact sound.remove keeps
  | shutdown cancelAll =>
    cases moved
    exact sound.shutdown keeps cancelAll

theorem releasesOnce_of_sound (sound : active.Sound) : active.ReleasesOnce := by
  constructor
  · intro addId
    cases found : active.calls[addId]? with
    | none =>
      rw [(sound.unknown addId found).2]
      exact Nat.zero_le _
    | some call =>
      rw [(sound.calls addId call found).released]
      split
      · exact Nat.le_refl _
      · exact Nat.zero_le _
  · intro addId
    cases found : active.calls[addId]? with
    | none =>
      rw [(sound.unknown addId found).1]
      exact Nat.zero_le _
    | some call =>
      have its := sound.calls addId call found
      by_cases taken : call.phase = .saving ∨ call.phase = .added
      · rw [its.held taken]
        split
        · exact Nat.le_refl _
        · exact Nat.zero_le _
      · rw [its.unheld (fun saving => taken (.inl saving)) (fun added => taken (.inr added))]
        exact Nat.zero_le _
  · intro addId call found mem isOver
    have its := sound.calls addId call found
    have held : active.acquired.count addId ≠ 0 := Nat.ne_of_gt (count_pos_iff.mpr mem)
    rcases isOver with failed | ⟨finalized, notSettled⟩
    · exact absurd (its.unheld (failed ▸ nofun) (failed ▸ nofun)) held
    · have added : call.phase = .added := by
        apply Classical.byContradiction
        intro unregistered
        rw [(its.early unregistered).2] at finalized
        cases finalized
      have handled : call.postExecutePromise = .handled := by
        cases promise : call.postExecutePromise with
        | pending =>
          rw [(its.current held added promise).1] at finalized
          cases finalized
        | settled => exact absurd promise notSettled
        | handled => rfl
      have taken := its.held (.inr added)
      rw [its.released, if_pos handled, taken, if_pos]
      apply Classical.byContradiction
      intro unlimited
      rw [if_neg unlimited] at taken
      exact held taken

end Steps

theorem sound_start {regular : Bool} {productionLimit evaluationLimit : Int}
    {control : ConcurrencyControl}
    (created : ConcurrencyControl.create regular productionLimit evaluationLimit = some control) :
    Sound
      { regular := regular
        control := control } := by
  constructor
  · exact ConcurrencyControl.regular_of_create created
  · intro addId call found
    cases found
  · exact fun _ _ => ⟨rfl, rfl⟩
  · intro executionId addId registered
    cases registered

/-- Slots are given back exactly once in every state of a run that loses
none. -/
theorem releasesOnce_of_keepsSlots {regular : Bool}
    {productionLimit evaluationLimit : Int} {control : ConcurrencyControl}
    (created : ConcurrencyControl.create regular productionLimit
      evaluationLimit = some control) {events : List ActiveEvent}
    (keeps : step.Meets KeepsSlots
      { regular := regular
        control := control } events) :
    step.Always ReleasesOnce
      { regular := regular
        control := control } events :=
  Machine.always_of_meets (fun _ event _ sound keeps stepped =>
      sound_step event sound keeps stepped)
    (fun _ sound => releasesOnce_of_sound sound)
    (sound_start created) keeps

section Example

instance (active : ActiveExecutions) (addId : AddId) : Decidable (active.InUse addId) :=
  inferInstanceAs (Decidable (_ ∧ ∀ call ∈ active.calls[addId]?, _))

instance (active : ActiveExecutions) (event : ActiveEvent) : Decidable (active.KeepsSlots event) :=
  match event with
  | .saveFails addId =>
    inferInstanceAs (Decidable (addId ∉ active.acquired))
  | .saved addId =>
    inferInstanceAs (Decidable (∀ call ∈ active.calls[addId]?, _))
  | .stopExecution executionId =>
    inferInstanceAs (Decidable (∀ entry ∈ active.get? executionId, _))
  | .promiseHandled addId =>
    inferInstanceAs (Decidable (∀ call ∈ active.calls[addId]?, _))
  | .remove mode _ =>
    inferInstanceAs (Decidable (∀ queue ∈ active.control.getQueue mode, _))
  | .shutdown _ =>
    inferInstanceAs (Decidable (active.control.isEnabled = false))
  | .add _ | .resume _ _ | .created _ _ | .createFails _ | .setStatus _ _
  | .attachResponsePromise _ | .finalizeExecution _ => isTrue True.intro

def twoSlots : ConcurrencyControl :=
  { isEnabled := true
    production := some { capacity := 2 } }

/-- Two executions run, a third one takes over the slot of the first, which
comes back from a wait, and the second is stopped. -/
def resumedAndStopped : List ActiveEvent :=
  [.add .webhook, .created 0 "1", .saved 0, .add .webhook, .created 1 "2",
   .saved 1, .add .trigger, .created 2 "3", .setStatus "1" .waiting,
   .finalizeExecution "1", .promiseHandled 0, .saved 2,
   .resume .webhook "1", .stopExecution "2", .promiseHandled 1, .saved 3,
   .finalizeExecution "1", .promiseHandled 3]

theorem releasesOnce_resumedAndStopped : step.Always ReleasesOnce
      { regular := true
        control := twoSlots } resumedAndStopped := by
  have created : ConcurrencyControl.create true 2 (-1) = some twoSlots := rfl
  apply releasesOnce_of_keepsSlots created
  decide

/-- The first execution of the run takes a slot and never gives it back. -/
def LosesSlot (events : List ActiveEvent) : Prop :=
  ∃ last, step.run
      { regular := true
        control := twoSlots } events = some last ∧
    last.acquired.count 0 = 1 ∧ last.released.count 0 = 0 ∧
    ¬ last.ReleasesOnce

/-- A call that fails while it saves keeps its slot, whether it creates an
execution or resumes one, and so does a registration that a resumed execution
replaces. -/
theorem not_releasesOnce_failedWhileSaving :
    LosesSlot [.add .webhook, .created 0 "1", .saveFails 0] ∧
      LosesSlot [.resume .webhook "1", .saveFails 0] ∧
      LosesSlot [.add .webhook, .created 0 "1", .saved 0,
        .setStatus "1" .waiting, .resume .webhook "1", .saved 1,
        .finalizeExecution "1", .promiseHandled 1] := by
  have lost : ∀ (last : ActiveExecutions) (call : AddCall), last.calls[0]? = some call →
      call.phase = .failed ∨ call.finalized = true ∧ call.postExecutePromise ≠ .settled →
      last.acquired.count 0 = 1 → last.released.count 0 = 0 →
      ¬ last.ReleasesOnce := by
    intro last call found isOver acquired released once
    have mem : 0 ∈ last.acquired := count_pos_iff.mp (acquired ▸ Nat.one_pos)
    have given := once.once 0 call found mem isOver
    rw [released] at given
    cases given
  refine ⟨?_, ?_, ?_⟩
  · exact ⟨_, rfl, rfl, rfl, lost _ _ rfl (.inl rfl) rfl rfl⟩
  · exact ⟨_, rfl, rfl, rfl, lost _ _ rfl (.inl rfl) rfl rfl⟩
  · exact ⟨_, rfl, rfl, rfl, lost _ _ rfl (.inr ⟨rfl, nofun⟩) rfl rfl⟩

end Example

end ActiveExecutions

end N8n
