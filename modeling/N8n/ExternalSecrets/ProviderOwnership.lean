import N8n.ExternalSecrets.ExternalSecretsManager

/-!
# Who owns a connected provider

A connected instance is held by an operation or stored under a name of the
settings.  Operations that overlap may store an instance where another one is,
or write settings that others have changed since they were read.
-/

namespace N8n

open OrderedMap ExternalSecretsManager

/-- The instance that an operation holds. -/
def ManagerPhase.provider? : ManagerPhase → Option SecretsProvider
  | .removes provider _ _ _ | .disconnects provider _ _ | .inits provider _ _
  | .connects provider _ | .abandons provider _ | .tests provider
  | .disconnectsTest provider => some provider
  | .reads _ | .hasRead _ _ | .saves _ _ _ | .hasSaved _ _ => none

/-- The names whose providers an operation is going to remove. -/
def ManagerPhase.pending : ManagerPhase → List String
  | .removes _ _ rest newProviders =>
    rest.filter fun name => name ∉ newProviders
  | .disconnects _ _ _ | .inits _ _ _ | .connects _ _ | .abandons _ _
  | .tests _ | .disconnectsTest _ | .reads _ | .hasRead _ _ | .saves _ _ _
  | .hasSaved _ _ => []

namespace ExternalSecretsManager

section

variable (manager : ExternalSecretsManager)

def Stores (provider : SecretsProvider) : Prop :=
  manager.providers.get? provider.name = some provider

/-- An operation holds the instance, or is going to remove it. -/
def Holds (provider : SecretsProvider) : Prop :=
  ∃ entry ∈ manager.operations.entries, entry.2.provider? = some provider ∨
      provider.name ∈ entry.2.pending ∧ manager.Stores provider

/-- No connected instance is without an owner, and the stored settings contain
the last change of each provider. -/
structure NoOrphans (manager : ExternalSecretsManager) : Prop where
  owned : ∀ provider ∈ manager.connected, ¬ manager.Holds provider →
    manager.Stores provider ∧ provider.name ∈ manager.cachedSettings.keys
  changes : ∀ name settings, manager.saved.get? name = some settings →
    ∃ stored, manager.storedSettings = some stored ∧ stored.get? name = some settings

section

variable (operation : Nat)

section

variable (provider : SecretsProvider)

/-- Another operation holds the instance. -/
def HeldByOther : Prop :=
  ∃ entry ∈ manager.operations.entries, entry.1 ≠ operation ∧ entry.2.provider? = some provider

/-- Another operation is going to remove the provider. -/
def RemovedByOther (name : String) : Prop :=
  ∃ entry ∈ manager.operations.entries, entry.1 ≠ operation ∧ name ∈ entry.2.pending

/-- No other connected instance is stored under the name, unless another
operation holds it. -/
def IsFree (name : String) (provider : SecretsProvider) : Prop :=
  ∀ other ∈ manager.providers.get? name, other ∈ manager.connected →
    other = provider ∨ manager.HeldByOther operation other

/-- The instance may be stored: nothing is displaced, and if it is connected
its name is in the settings. -/
def MayStore (isConnected : Bool) : Prop :=
  manager.IsFree operation provider.name provider ∧
    (isConnected = true → provider.name ∈ manager.cachedSettings.keys ∨
      manager.RemovedByOther operation provider.name)

end

/-- The settings name the providers that are connected. -/
def NamesConnected (settings : ExternalSecretsSettings) : Prop :=
  ∀ provider ∈ manager.providers.values, provider ∈ manager.connected →
    provider.name ∈ settings.keys ∨ manager.HeldByOther operation provider ∨
      manager.RemovedByOther operation provider.name

def MaySettle (succeeds : Bool) : ManagerPhase → Prop
  | .removes disconnected name _ _ | .disconnects disconnected name _ =>
    manager.IsFree operation name disconnected
  | .inits provider settings (.reload _) =>
    (succeeds = true → ∃ read ∈ settings, read.connected = false) →
      manager.MayStore operation provider (provider ∈ manager.connected)
  | .connects provider (.reload _) =>
    succeeds = true → manager.MayStore operation provider true
  | .abandons provider (.reload _) =>
    manager.MayStore operation provider false
  | .hasSaved _ settings => manager.NamesConnected operation settings
  | .inits _ _ .test | .connects _ .test | .abandons _ .test | .tests _
  | .disconnectsTest _ | .reads _ | .hasRead _ _ | .saves _ _ _ => True

end

/-- The database may execute what an operation has sent: the settings that it
writes have the last change of each other provider. -/
def MayAnswer : ManagerPhase → Prop
  | .saves provider _ settings => ∀ entry ∈ manager.saved.entries,
      entry.1 = provider ∨ settings.get? entry.1 = some entry.2
  | .removes _ _ _ _ | .disconnects _ _ _ | .inits _ _ _ | .connects _ _
  | .abandons _ _ | .tests _ | .disconnectsTest _ | .reads _ | .hasRead _ _
  | .hasSaved _ _ => True

/-- The condition under which a step leaves no orphans and loses no change. -/
def KeepsProviders : ManagerEvent → Prop
  | .answers operation => ∀ phase ∈ manager.operations.get? operation, manager.MayAnswer phase
  | .settles operation succeeds _ =>
    ∀ phase ∈ manager.operations.get? operation, manager.MaySettle operation succeeds phase
  | .reloadAllProviders | .reloadProvider _ | .setProviderSettings _ _
  | .setProviderConnected _ _ | .testProviderSettings _ _ _ | .fires _ _ => True

end

variable {manager next : ExternalSecretsManager} {operation : Nat}
  {phase : ManagerPhase} {provider disconnected : SecretsProvider}
  {classes : List String}

/-- The instance is owned, possibly by an operation. -/
def Owned (manager : ExternalSecretsManager) (provider : SecretsProvider) : Prop :=
  manager.Holds provider ∨ manager.Stores provider ∧ provider.name ∈ manager.cachedSettings.keys

/-- The instance is owned without the operation. -/
def OwnedOutside (manager : ExternalSecretsManager) (operation : Nat)
    (provider : SecretsProvider) : Prop :=
  manager.HeldByOther operation provider ∨ manager.Stores provider ∧
      (provider.name ∈ manager.cachedSettings.keys ∨ manager.RemovedByOther operation provider.name)

/-- Only the operation goes on, and maybe an instance is created or a timer
is set. -/
structure MovesOn (manager next : ExternalSecretsManager) (operation : Nat) :
    Prop where
  providers : next.providers = manager.providers
  cachedSettings : next.cachedSettings = manager.cachedSettings
  connected : next.connected = manager.connected
  storedSettings : next.storedSettings = manager.storedSettings
  saved : next.saved = manager.saved
  nextOperation : next.nextOperation = manager.nextOperation
  others : ∀ other, other ≠ operation →
    next.operations.get? other = manager.operations.get? other

theorem MovesOn.setPhase (manager : ExternalSecretsManager) (operation : Nat)
    (phase : ManagerPhase) :
    MovesOn manager (manager.setPhase operation phase) operation :=
  ⟨rfl, rfl, rfl, rfl, rfl, rfl, fun _ ne =>
    get?_set_ne _ _ (Ne.symm ne)⟩

theorem MovesOn.finish (manager : ExternalSecretsManager) (operation : Nat) :
    MovesOn manager (manager.finish operation) operation := by
  refine ⟨rfl, rfl, rfl, rfl, rfl, rfl, fun other ne => ?_⟩
  exact (get?_delete _ _ _).trans (if_neg (Ne.symm ne))

theorem MovesOn.initProvider (manager : ExternalSecretsManager) (operation : Nat) (name : String)
    (settings : Option SecretsProviderSettings) (purpose : InitPurpose) :
    MovesOn manager (manager.initProvider operation name settings purpose) operation :=
  ⟨rfl, rfl, rfl, rfl, rfl, rfl, fun _ ne =>
    get?_set_ne _ _ (Ne.symm ne)⟩

theorem MovesOn.reloadProviders (classes : List String)
    (manager : ExternalSecretsManager) (operation : Nat) (names : List String) :
    MovesOn manager (manager.reloadProviders classes operation names) operation := by
  induction names with
  | nil => exact .finish manager operation
  | cons name rest ih =>
    rw [ExternalSecretsManager.reloadProviders]
    split
    · exact .setPhase _ _ _
    · split
      · exact .initProvider _ _ _ _ _
      · exact ih

theorem MovesOn.initReloaded (classes : List String)
    (manager : ExternalSecretsManager) (operation : Nat) (name : String)
    (after : AfterReload) :
    MovesOn manager (manager.initReloaded classes operation name after) operation := by
  rw [ExternalSecretsManager.initReloaded]
  split
  · exact .initProvider _ _ _ _ _
  · exact .reloadProviders _ _ _ _

theorem MovesOn.removeProviders (classes : List String)
    (manager : ExternalSecretsManager) (operation : Nat)
    (newProviders names : List String) :
    MovesOn manager (manager.removeProviders classes operation newProviders names)
      operation := by
  induction names with
  | nil => exact .reloadProviders _ _ _ _
  | cons name rest ih =>
    rw [ExternalSecretsManager.removeProviders]
    split
    · exact ih
    · split
      · exact .setPhase _ _ _
      · exact ih

theorem MovesOn.mem_entries (moves : MovesOn manager next operation)
    {entry : Nat × ManagerPhase} (ne : entry.1 ≠ operation)
    (mem : entry ∈ manager.operations.entries) :
    entry ∈ next.operations.entries := by
  rw [← get?_eq_some_iff] at mem ⊢
  rw [moves.others entry.1 ne, mem]

theorem OwnedOutside.owned (owned : manager.OwnedOutside operation provider)
    (moves : MovesOn manager next operation) : next.Owned provider := by
  rcases owned with ⟨entry, mem, ne, holds⟩ | ⟨stored, inSettings | ⟨entry, mem, ne, removes⟩⟩
  · exact .inl ⟨entry, moves.mem_entries ne mem, .inl holds⟩
  · right
    rw [Stores, moves.providers, moves.cachedSettings]
    exact ⟨stored, inSettings⟩
  · refine .inl ⟨entry, moves.mem_entries ne mem, .inr ⟨removes, ?_⟩⟩
    rw [Stores, moves.providers]
    exact stored

theorem Owned.cases (owned : manager.Owned provider)
    (found : manager.operations.get? operation = some phase) :
    manager.OwnedOutside operation provider ∨ phase.provider? = some provider ∨
      provider.name ∈ phase.pending ∧ manager.Stores provider := by
  rcases owned with ⟨entry, mem, holds⟩ | ⟨stored, inSettings⟩
  · by_cases same : entry.1 = operation
    · have isPhase : entry.2 = phase := by
        rw [← get?_eq_some_iff, same, found] at mem
        exact (Option.some.inj mem).symm
      rw [isPhase] at holds
      exact .inr holds
    · left
      rcases holds with holds | ⟨removes, stored⟩
      · exact .inl ⟨entry, mem, same, holds⟩
      · exact .inr ⟨stored, .inr ⟨entry, mem, same, removes⟩⟩
  · exact .inl (.inr ⟨stored, .inl inSettings⟩)

theorem owned_setPhase (holds : phase.provider? = some provider) :
    (manager.setPhase operation phase).Owned provider :=
  .inl ⟨(operation, phase), get?_eq_some_iff.mp (get?_set_self _ _ _), .inl holds⟩

theorem owned_removeProviders {newProviders names : List String}
    (listed : provider.name ∈ names) (removed : provider.name ∉ newProviders)
    (stored : manager.Stores provider) :
    (manager.removeProviders classes operation newProviders names).Owned provider := by
  induction names with
  | nil => cases listed
  | cons name rest ih =>
    rw [removeProviders]
    by_cases isNew : name ∈ newProviders
    · rw [if_pos isNew]
      refine ih ((List.mem_cons.mp listed).resolve_left ?_)
      rintro rfl
      exact removed isNew
    · rw [if_neg isNew]
      split
      next other found =>
        rcases List.mem_cons.mp listed with isName | later
        · rw [← isName] at found
          obtain rfl := Option.some.inj (stored.symm.trans found)
          exact owned_setPhase rfl
        · refine .inl ⟨(operation, _), get?_eq_some_iff.mp (get?_set_self _ _ _), .inr ⟨?_, stored⟩⟩
          exact List.mem_filter.mpr ⟨later, decide_eq_true removed⟩
      next missing =>
        refine ih ((List.mem_cons.mp listed).resolve_left ?_)
        intro isName
        rw [← isName] at missing
        cases stored.symm.trans missing

variable {name : String}

theorem OwnedOutside.deleteProvider (owned : manager.OwnedOutside operation provider)
    (isFree : manager.IsFree operation name disconnected)
    (isConnected : provider ∈ manager.connected) (ne : provider ≠ disconnected) :
    ((manager.disconnect disconnected).deleteProvider name).OwnedOutside operation provider := by
  rcases owned with held | ⟨stored, known⟩
  · exact .inl held
  · by_cases same : name = provider.name
    · subst same
      exact .inl ((isFree provider stored isConnected).resolve_left ne)
    · refine .inr ⟨?_, known⟩
      exact (get?_delete _ _ _).trans ((if_neg same).trans stored)

variable {purpose : InitPurpose}

theorem owned_finishInit (mayStore : ∀ after, purpose = .reload after →
      manager.MayStore operation disconnected
        (disconnected ∈ manager.connected)) (owned : provider = disconnected ∨
      manager.OwnedOutside operation provider)
    (isConnected : provider ∈ manager.connected) :
    (manager.finishInit classes operation disconnected purpose).Owned provider := by
  cases purpose with
  | test =>
    rcases owned with rfl | owned
    · exact owned_setPhase rfl
    · exact owned.owned (.setPhase _ _ _)
  | reload after =>
    obtain ⟨isFree, inSettings⟩ := mayStore after rfl
    apply OwnedOutside.owned _ (.reloadProviders _ _ _ _)
    rcases owned with rfl | owned
    · right
      refine ⟨get?_set_self _ _ _, ?_⟩
      exact inSettings (decide_eq_true isConnected)
    · rcases owned with held | ⟨stored, known⟩
      · exact .inl held
      · by_cases same : disconnected.name = provider.name
        · rcases isFree provider (same ▸ stored) isConnected with rfl | held
          · right
            refine ⟨get?_set_self _ _ _, ?_⟩
            exact inSettings (decide_eq_true isConnected)
          · exact .inl held
        · refine .inr ⟨?_, known⟩
          exact (get?_set_ne _ _ same).trans stored

theorem connected_finishInit (classes : List String)
    (manager : ExternalSecretsManager) (operation : Nat)
    (provider : SecretsProvider) (purpose : InitPurpose) :
    (manager.finishInit classes operation provider purpose).connected =
      manager.connected := by
  cases purpose with
  | test => rfl
  | reload after => exact (MovesOn.reloadProviders _ _ _ _).connected

def AllOwned (manager : ExternalSecretsManager) : Prop :=
  ∀ provider ∈ manager.connected, manager.Owned provider

theorem AllOwned.of_moves (owned : manager.AllOwned)
    (found : manager.operations.get? operation = some phase)
    (holdsNothing : phase.provider? = none) (removesNothing : phase.pending = [])
    (moves : MovesOn manager next operation) : next.AllOwned := by
  intro provider isConnected
  rw [moves.connected] at isConnected
  rcases (owned provider isConnected).cases found with outside | holds | removes
  · exact outside.owned moves
  · rw [holdsNothing] at holds
    cases holds
  · rw [removesNothing] at removes
    cases removes.1

theorem AllOwned.setPhase {changed : ManagerPhase} (owned : manager.AllOwned)
    (found : manager.operations.get? operation = some phase)
    (holds : changed.provider? = phase.provider?)
    (removesNothing : phase.pending = []) :
    (manager.setPhase operation changed).AllOwned := by
  intro provider isConnected
  rcases (owned provider isConnected).cases found with outside | held | removes
  · exact outside.owned (.setPhase _ _ _)
  · exact owned_setPhase (holds.trans held)
  · rw [removesNothing] at removes
    cases removes.1

variable {later : ExternalSecretsManager}

theorem AllOwned.finishInit (owned : manager.AllOwned)
    (found : manager.operations.get? operation = some phase)
    (holds : phase.provider? = some provider) (removesNothing : phase.pending = [])
    (mayStore : ∀ after, purpose = .reload after →
      later.MayStore operation provider (provider ∈ later.connected))
    (moves : ∀ other ∈ later.connected, other = provider ∨ other ∈ manager.connected)
    (providers : later.providers = manager.providers)
    (cachedSettings : later.cachedSettings = manager.cachedSettings)
    (operations : later.operations = manager.operations) :
    (later.finishInit classes operation provider purpose).AllOwned := by
  intro other isConnected
  rw [connected_finishInit] at isConnected
  refine owned_finishInit mayStore ?_ isConnected
  rcases moves other isConnected with same | wasConnected
  · exact .inl same
  · rcases (owned other wasConnected).cases found with outside | held | removes
    · right
      rw [OwnedOutside, HeldByOther, Stores, RemovedByOther, providers, cachedSettings, operations]
      exact outside
    · exact .inl (Option.some.inj (held.symm.trans holds))
    · rw [removesNothing] at removes
      cases removes.1

theorem AllOwned.deleteProvider (owned : manager.AllOwned)
    (found : manager.operations.get? operation = some phase)
    (holds : phase.provider? = some disconnected)
    (isFree : manager.IsFree operation name disconnected)
    (moves : MovesOn ((manager.disconnect disconnected).deleteProvider name)
      next operation)
    (removes : ∀ provider ∈ manager.connected, provider ≠ disconnected →
      provider.name ∈ phase.pending →
      ((manager.disconnect disconnected).deleteProvider name).Stores
        provider → next.Owned provider) : next.AllOwned := by
  intro provider isConnected
  rw [moves.connected] at isConnected
  obtain ⟨ne, wasConnected⟩ := Finset.mem_erase.mp isConnected
  rcases (owned provider wasConnected).cases found with
    outside | held | ⟨isPending, stored⟩
  · exact (outside.deleteProvider isFree wasConnected ne).owned moves
  · exact absurd (Option.some.inj (held.symm.trans holds)) ne
  · by_cases same : name = provider.name
    · subst same
      apply OwnedOutside.owned _ moves
      exact .inl ((isFree provider stored wasConnected).resolve_left ne)
    · refine removes provider wasConnected ne isPending ?_
      exact (get?_delete _ _ _).trans ((if_neg same).trans stored)

variable {now : Nat}

theorem AllOwned.useSettings {reader : SettingsReader}
    {settings : Option ExternalSecretsSettings} (owned : manager.AllOwned)
    (found : manager.operations.get? operation = some (.hasRead reader settings)) :
    (manager.useSettings classes operation now reader settings).AllOwned := by
  cases reader with
  | setProvider provider change =>
    exact owned.of_moves found rfl rfl (.setPhase _ _ _)
  | reloadAllProviders =>
    intro provider isConnected
    have moves := MovesOn.removeProviders classes
      { manager with cachedSettings := settings.getD .empty } operation
      (settings.getD .empty).keys manager.providers.keys
    rw [ExternalSecretsManager.useSettings] at isConnected ⊢
    rw [moves.connected] at isConnected
    rcases (owned provider isConnected).cases found with
      (held | ⟨stored, _⟩) | holds | removes
    · apply OwnedOutside.owned _ moves
      exact .inl held
    · by_cases inSettings : provider.name ∈ (settings.getD .empty).keys
      · apply OwnedOutside.owned _ moves
        exact .inr ⟨stored, .inl inSettings⟩
      · refine owned_removeProviders ?_ inSettings stored
        rw [← has_iff, has, stored]
        rfl
    · cases holds
    · cases removes.1

theorem AllOwned.settle {succeeds : Bool} (owned : manager.AllOwned)
    (found : manager.operations.get? operation = some phase)
    (may : manager.MaySettle operation succeeds phase)
    (settled : manager.settle classes operation succeeds now phase =
      some next) : next.AllOwned := by
  cases phase with
  | reads reader | saves provider changed settings =>
    simp only [settle] at settled
    split at settled
    · cases settled
    · cases settled
      exact owned.of_moves found rfl rfl (.finish _ _)
  | hasRead reader settings =>
    simp only [settle] at settled
    split at settled
    · cases settled
      exact owned.useSettings found
    · cases settled
      exact owned.of_moves found rfl rfl (.finish _ _)
  | hasSaved name settings =>
    cases settled
    intro provider isConnected
    have moves := MovesOn.reloadProviders classes
      { manager with cachedSettings := settings } operation [name]
    rw [moves.connected] at isConnected
    apply OwnedOutside.owned _ moves
    rcases (owned provider isConnected).cases found with
      (held | ⟨stored, _⟩) | holds | removes
    · exact .inl held
    · have listed : provider ∈ manager.providers.values := mem_values_of_mem_entries
          (get?_eq_some_iff.mp stored)
      rcases may provider listed isConnected with inSettings | held | removed
      · exact .inr ⟨stored, .inl inSettings⟩
      · exact .inl held
      · exact .inr ⟨stored, .inr removed⟩
    · cases holds
    · cases removes.1
  | removes disconnected name rest newProviders =>
    cases settled
    refine owned.deleteProvider found rfl may (.removeProviders _ _ _ _ _) ?_
    intro provider _ _ isPending stored
    obtain ⟨listed, removed⟩ := List.mem_filter.mp isPending
    exact owned_removeProviders listed (of_decide_eq_true removed) stored
  | disconnects disconnected name after =>
    cases settled
    refine owned.deleteProvider found rfl may (.initReloaded _ _ _ _ _) ?_
    intro provider _ _ isPending
    cases isPending
  | inits provider settings purpose =>
    have mayStore (stores : succeeds = true → ∃ read ∈ settings, read.connected = false) :
        ∀ after, purpose = .reload after → manager.MayStore operation provider
          (provider ∈ manager.connected) := by
      rintro after rfl
      exact may stores
    simp only [settle] at settled
    split at settled
    · cases settled
      cases settings with
      | none => exact owned.setPhase found rfl rfl
      | some read =>
        simp only [initialized]
        split
        · exact owned.setPhase found rfl rfl
        next notConnected =>
          exact owned.finishInit found rfl rfl (mayStore fun _ =>
            ⟨read, rfl, Bool.eq_false_iff.mpr notConnected⟩)
            (fun _ => .inr) rfl rfl rfl
    next failed =>
      cases settled
      exact owned.finishInit found rfl rfl
        (mayStore fun succeeded => absurd succeeded failed) (fun _ => .inr)
        rfl rfl rfl
  | connects provider purpose =>
    simp only [settle] at settled
    split at settled
    next succeeded =>
      cases settled
      refine owned.finishInit found rfl rfl ?_ ?_ rfl rfl rfl
      · rintro after rfl
        obtain ⟨isFree, inSettings⟩ := may succeeded
        refine ⟨?_, fun _ => inSettings rfl⟩
        intro other stored isConnected
        rcases Finset.mem_insert.mp isConnected with same | wasConnected
        · exact .inl same
        · exact isFree other stored wasConnected
      · exact fun other isConnected => Finset.mem_insert.mp isConnected
    · cases settled
      exact owned.setPhase found rfl rfl
  | abandons provider purpose =>
    cases settled
    refine owned.finishInit found rfl rfl ?_ ?_ rfl rfl rfl
    · rintro after rfl
      obtain ⟨isFree, _⟩ := may
      refine ⟨?_, ?_⟩
      · intro other stored isConnected
        exact isFree other stored (Finset.mem_of_mem_erase isConnected)
      · intro isConnected
        exact absurd (of_decide_eq_true isConnected) (Finset.notMem_erase _ _)
    · exact fun other isConnected => .inr (Finset.mem_of_mem_erase isConnected)
  | tests provider =>
    cases settled
    exact owned.setPhase found rfl rfl
  | disconnectsTest provider =>
    cases settled
    intro other isConnected
    obtain ⟨ne, wasConnected⟩ := Finset.mem_erase.mp isConnected
    rcases (owned other wasConnected).cases found with
      outside | held | removes
    · have stillOwned : (manager.disconnect provider).OwnedOutside operation
          other := outside
      exact stillOwned.owned (.finish _ _)
    · exact absurd (Option.some.inj held).symm ne
    · cases removes.1

/-- What an operation that goes on leaves as it is. -/
structure LeavesOthers (manager next : ExternalSecretsManager)
    (operation : Nat) : Prop where
  storedSettings : next.storedSettings = manager.storedSettings
  saved : next.saved = manager.saved
  nextOperation : next.nextOperation = manager.nextOperation
  others : ∀ other, other ≠ operation →
    next.operations.get? other = manager.operations.get? other

theorem MovesOn.leavesOthers (moves : MovesOn later next operation)
    (storedSettings : later.storedSettings = manager.storedSettings)
    (saved : later.saved = manager.saved)
    (nextOperation : later.nextOperation = manager.nextOperation)
    (operations : later.operations = manager.operations) :
    LeavesOthers manager next operation :=
  ⟨moves.storedSettings.trans storedSettings, moves.saved.trans saved,
    moves.nextOperation.trans nextOperation, fun other ne => by
      rw [moves.others other ne, operations]⟩

theorem leavesOthers_finishInit (storedSettings : later.storedSettings = manager.storedSettings)
    (saved : later.saved = manager.saved)
    (nextOperation : later.nextOperation = manager.nextOperation)
    (operations : later.operations = manager.operations) :
    LeavesOthers manager (later.finishInit classes operation provider purpose)
      operation := by
  cases purpose with
  | test =>
    exact (MovesOn.setPhase _ _ _).leavesOthers storedSettings saved nextOperation operations
  | reload after =>
    exact (MovesOn.reloadProviders _ _ _ _).leavesOthers storedSettings saved
      nextOperation operations

theorem leavesOthers_of_settle {succeeds : Bool}
    (settled : manager.settle classes operation succeeds now phase =
      some next) : LeavesOthers manager next operation := by
  cases phase with
  | reads reader | saves provider changed settings =>
    simp only [settle] at settled
    split at settled
    · cases settled
    · cases settled
      exact (MovesOn.finish _ _).leavesOthers rfl rfl rfl rfl
  | hasRead reader settings =>
    simp only [settle] at settled
    split at settled
    · cases settled
      cases reader with
      | setProvider provider change =>
        exact (MovesOn.setPhase _ _ _).leavesOthers rfl rfl rfl rfl
      | reloadAllProviders =>
        exact (MovesOn.removeProviders _ _ _ _ _).leavesOthers rfl rfl rfl rfl
    · cases settled
      exact (MovesOn.finish _ _).leavesOthers rfl rfl rfl rfl
  | hasSaved name settings =>
    cases settled
    exact (MovesOn.reloadProviders _ _ _ _).leavesOthers rfl rfl rfl rfl
  | removes disconnected name rest newProviders =>
    cases settled
    exact (MovesOn.removeProviders _ _ _ _ _).leavesOthers rfl rfl rfl rfl
  | disconnects disconnected name after =>
    cases settled
    exact (MovesOn.initReloaded _ _ _ _ _).leavesOthers rfl rfl rfl rfl
  | inits provider settings purpose =>
    simp only [settle] at settled
    split at settled
    · cases settled
      cases settings with
      | none => exact (MovesOn.setPhase _ _ _).leavesOthers rfl rfl rfl rfl
      | some read =>
        simp only [initialized]
        split
        · exact (MovesOn.setPhase _ _ _).leavesOthers rfl rfl rfl rfl
        · exact leavesOthers_finishInit rfl rfl rfl rfl
    · cases settled
      exact leavesOthers_finishInit rfl rfl rfl rfl
  | connects provider purpose =>
    simp only [settle] at settled
    split at settled
    · cases settled
      exact leavesOthers_finishInit rfl rfl rfl rfl
    · cases settled
      exact (MovesOn.setPhase _ _ _).leavesOthers rfl rfl rfl rfl
  | abandons provider purpose =>
    cases settled
    exact leavesOthers_finishInit rfl rfl rfl rfl
  | tests provider =>
    cases settled
    exact (MovesOn.setPhase _ _ _).leavesOthers rfl rfl rfl rfl
  | disconnectsTest provider =>
    cases settled
    exact (MovesOn.finish _ _).leavesOthers rfl rfl rfl rfl

/-- What holds as long as no step leaves an orphan or loses a change. -/
structure Sound (manager : ExternalSecretsManager) : Prop where
  owned : manager.AllOwned
  numbers : ∀ operation phase, manager.operations.get? operation = some phase →
      operation < manager.nextOperation
  changes : ∀ name settings, manager.saved.get? name = some settings →
    ∃ stored, manager.storedSettings = some stored ∧ stored.get? name = some settings

theorem Sound.noOrphans (sound : manager.Sound) : manager.NoOrphans where
  owned provider isConnected notHeld := (sound.owned provider isConnected).resolve_left notHeld
  changes := sound.changes

theorem Sound.of_leavesOthers (sound : manager.Sound)
    (found : manager.operations.get? operation = some phase)
    (leaves : LeavesOthers manager next operation) (owned : next.AllOwned) :
    next.Sound := by
  refine ⟨owned, ?_, ?_⟩
  · intro other otherPhase otherFound
    rw [leaves.nextOperation]
    by_cases same : other = operation
    · exact same ▸ sound.numbers operation phase found
    · rw [leaves.others other same] at otherFound
      exact sound.numbers other otherPhase otherFound
  · rw [leaves.saved, leaves.storedSettings]
    exact sound.changes

theorem Sound.begin (sound : manager.Sound) (moves : MovesOn later next manager.nextOperation)
    (providers : later.providers = manager.providers)
    (cachedSettings : later.cachedSettings = manager.cachedSettings)
    (connected : later.connected = manager.connected)
    (storedSettings : later.storedSettings = manager.storedSettings)
    (saved : later.saved = manager.saved)
    (nextOperation : later.nextOperation = manager.nextOperation + 1)
    (operations : later.operations = manager.operations) : next.Sound := by
  have otherThanNew {entry : Nat × ManagerPhase} (mem : entry ∈ manager.operations.entries) :
      entry.1 ≠ manager.nextOperation :=
    Nat.ne_of_lt (sound.numbers entry.1 entry.2 (get?_eq_some_iff.mpr mem))
  refine ⟨?_, ?_, ?_⟩
  · intro provider isConnected
    rw [moves.connected, connected] at isConnected
    apply OwnedOutside.owned _ moves
    rw [OwnedOutside, HeldByOther, Stores, RemovedByOther, providers, cachedSettings, operations]
    rcases sound.owned provider isConnected with
      ⟨entry, mem, held | ⟨removes, stored⟩⟩ | ⟨stored, inSettings⟩
    · exact .inl ⟨entry, mem, otherThanNew mem, held⟩
    · exact .inr ⟨stored, .inr ⟨entry, mem, otherThanNew mem, removes⟩⟩
    · exact .inr ⟨stored, .inl inSettings⟩
  · intro other phase found
    rw [moves.nextOperation, nextOperation]
    by_cases same : other = manager.nextOperation
    · exact same ▸ Nat.lt_succ_self _
    · rw [moves.others other same, operations] at found
      exact Nat.lt_succ_of_lt (sound.numbers other phase found)
  · rw [moves.saved, saved, moves.storedSettings, storedSettings]
    exact sound.changes

theorem Sound.fire {hasError : Bool} (sound : manager.Sound) :
    (manager.fire classes name hasError).Sound := by
  simp only [ExternalSecretsManager.fire]
  split
  · exact ⟨sound.owned, sound.numbers, sound.changes⟩
  · exact sound.begin (.reloadProviders _ _ _ _) rfl rfl rfl rfl rfl rfl rfl

theorem Sound.answer (sound : manager.Sound)
    (found : manager.operations.get? operation = some phase)
    (may : manager.MayAnswer phase)
    (answered : manager.answer operation phase = some next) : next.Sound := by
  cases phase with
  | reads reader =>
    cases answered
    have moves := MovesOn.setPhase manager operation (.hasRead reader manager.storedSettings)
    exact sound.of_leavesOthers found (moves.leavesOthers rfl rfl rfl rfl)
      (sound.owned.of_moves found rfl rfl moves)
  | saves provider changed settings =>
    cases answered
    have moves := MovesOn.setPhase manager operation
      (.hasSaved provider (settings.set provider changed))
    have moved := sound.of_leavesOthers found (moves.leavesOthers rfl rfl rfl rfl)
      (sound.owned.of_moves found rfl rfl moves)
    refine ⟨moved.owned, moved.numbers, ?_⟩
    intro name saved isSaved
    refine ⟨settings.set provider changed, rfl, ?_⟩
    change (manager.saved.set provider changed).get? name = _ at isSaved
    rw [get?_set] at isSaved ⊢
    by_cases same : provider = name
    · rw [if_pos same] at isSaved ⊢
      exact isSaved
    · rw [if_neg same] at isSaved ⊢
      have listed := get?_eq_some_iff.mp isSaved
      exact (may (name, saved) listed).resolve_left (Ne.symm same)
  | _ => cases answered

theorem Sound.step {event : ManagerEvent} (sound : manager.Sound)
    (keeps : manager.KeepsProviders event)
    (moved : ExternalSecretsManager.step classes manager event = some next) :
    next.Sound := by
  cases event with
  | reloadAllProviders | setProviderSettings provider data
  | setProviderConnected provider connected =>
    cases moved
    exact sound.begin (.setPhase _ _ _) rfl rfl rfl rfl rfl rfl rfl
  | reloadProvider provider =>
    cases moved
    exact sound.begin (.reloadProviders _ _ _ _) rfl rfl rfl rfl rfl rfl rfl
  | testProviderSettings provider data now =>
    simp only [ExternalSecretsManager.step] at moved
    split at moved
    · cases moved
      exact sound.begin (.initProvider _ _ _ _ _) rfl rfl rfl rfl rfl rfl rfl
    · cases moved
      exact sound
  | fires provider hasError =>
    obtain ⟨_, rfl⟩ := Machine.of_guarded moved
    exact sound.fire
  | answers operation =>
    obtain ⟨phase, found, answered⟩ := Option.bind_eq_some_iff.mp moved
    exact sound.answer found (keeps phase found) answered
  | settles operation succeeds now =>
    obtain ⟨phase, found, settled⟩ := Option.bind_eq_some_iff.mp moved
    exact sound.of_leavesOthers found (leavesOthers_of_settle settled)
      (sound.owned.settle found (keeps phase found) settled)

variable (storedSettings : Option ExternalSecretsSettings)

/-- A new manager, with what is in the database. -/
def start : ExternalSecretsManager :=
  { storedSettings }

theorem sound_start : (start storedSettings).Sound :=
  ⟨by simp [AllOwned, start], by simp [start], by simp [start]⟩

/-- If no operation displaces a connected instance or writes settings that
others have changed, there are no orphans and no change is lost. -/
theorem noOrphans_of_keepsProviders (classes : List String)
    (storedSettings : Option ExternalSecretsSettings) {events : List ManagerEvent}
    (keeps : (step classes).Meets KeepsProviders (start storedSettings) events) :
    (step classes).Always NoOrphans (start storedSettings) events :=
  Machine.always_of_meets (fun _ _ _ sound kept stepped => Sound.step sound kept stepped)
    (fun _ sound => Sound.noOrphans sound) (sound_start storedSettings) keeps

instance (manager : ExternalSecretsManager) (operation : Nat) (provider : SecretsProvider) :
    Decidable (manager.HeldByOther operation provider) :=
  inferInstanceAs (Decidable (∃ entry ∈ manager.operations.entries, _))

instance (manager : ExternalSecretsManager) (operation : Nat)
    (name : String) : Decidable (manager.RemovedByOther operation name) :=
  inferInstanceAs (Decidable (∃ entry ∈ manager.operations.entries, _))

instance (manager : ExternalSecretsManager) (provider : SecretsProvider) :
    Decidable (manager.Stores provider) :=
  inferInstanceAs (Decidable (_ = _))

instance (manager : ExternalSecretsManager) (operation : Nat) (name : String)
    (provider : SecretsProvider) :
    Decidable (manager.IsFree operation name provider) :=
  inferInstanceAs (Decidable (∀ other ∈ manager.providers.get? name, _))

instance (manager : ExternalSecretsManager) (operation : Nat)
    (provider : SecretsProvider) (isConnected : Bool) :
    Decidable (manager.MayStore operation provider isConnected) :=
  inferInstanceAs (Decidable (_ ∧ _))

instance (manager : ExternalSecretsManager) (operation : Nat) (settings : ExternalSecretsSettings) :
    Decidable (manager.NamesConnected operation settings) :=
  inferInstanceAs (Decidable (∀ provider ∈ manager.providers.values, _))

instance (manager : ExternalSecretsManager) (operation : Nat)
    (succeeds : Bool) : (phase : ManagerPhase) →
      Decidable (manager.MaySettle operation succeeds phase)
  | .removes disconnected name _ _ | .disconnects disconnected name _ =>
    inferInstanceAs (Decidable (manager.IsFree operation name disconnected))
  | .inits provider settings (.reload _) => inferInstanceAs (Decidable
      ((succeeds = true → ∃ read ∈ settings, read.connected = false) →
        manager.MayStore operation provider (provider ∈ manager.connected)))
  | .connects provider (.reload _) => inferInstanceAs (Decidable
      (succeeds = true → manager.MayStore operation provider true))
  | .abandons provider (.reload _) => inferInstanceAs (Decidable
      (manager.MayStore operation provider false))
  | .hasSaved _ settings => inferInstanceAs (Decidable (manager.NamesConnected operation settings))
  | .inits _ _ .test => isTrue True.intro
  | .connects _ .test => isTrue True.intro
  | .abandons _ .test => isTrue True.intro
  | .tests _ => isTrue True.intro
  | .disconnectsTest _ => isTrue True.intro
  | .reads _ => isTrue True.intro
  | .hasRead _ _ => isTrue True.intro
  | .saves _ _ _ => isTrue True.intro

instance (manager : ExternalSecretsManager) : (phase : ManagerPhase) →
      Decidable (manager.MayAnswer phase)
  | .saves provider _ settings => inferInstanceAs (Decidable (∀ entry ∈ manager.saved.entries,
        entry.1 = provider ∨ settings.get? entry.1 = some entry.2))
  | .removes _ _ _ _ => isTrue True.intro
  | .disconnects _ _ _ => isTrue True.intro
  | .inits _ _ _ => isTrue True.intro
  | .connects _ _ => isTrue True.intro
  | .abandons _ _ => isTrue True.intro
  | .tests _ => isTrue True.intro
  | .disconnectsTest _ => isTrue True.intro
  | .reads _ => isTrue True.intro
  | .hasRead _ _ => isTrue True.intro
  | .hasSaved _ _ => isTrue True.intro

instance (manager : ExternalSecretsManager) :
    (event : ManagerEvent) → Decidable (manager.KeepsProviders event)
  | .answers operation => inferInstanceAs (Decidable
      (∀ phase ∈ manager.operations.get? operation, manager.MayAnswer phase))
  | .settles operation succeeds _ => inferInstanceAs (Decidable
      (∀ phase ∈ manager.operations.get? operation, manager.MaySettle operation succeeds phase))
  | .reloadAllProviders => isTrue True.intro
  | .reloadProvider _ => isTrue True.intro
  | .setProviderSettings _ _ => isTrue True.intro
  | .setProviderConnected _ _ => isTrue True.intro
  | .testProviderSettings _ _ _ => isTrue True.intro
  | .fires _ _ => isTrue True.intro

def sampleEvents : List ManagerEvent :=
  [.testProviderSettings "vault" .null 1, .settles 0 true 1, .settles 0 true 1,
    .settles 0 true 1, .setProviderSettings "vault" .null, .settles 0 true 2,
    .answers 1, .settles 1 true 2, .answers 1, .settles 1 true 2,
    .settles 1 true 2, .setProviderConnected "vault" true, .answers 2,
    .settles 2 true 3, .answers 2, .settles 2 true 3, .settles 2 true 3,
    .settles 2 true 3, .settles 2 true 3]

theorem noOrphans_sampleEvents : ∃ last,
    (step ["vault"]).run (start none) sampleEvents = some last ∧
      last.NoOrphans ∧ last.operations.entries = [] ∧
      ∃ provider ∈ last.connected, last.Stores provider := by
  have always := noOrphans_of_keepsProviders ["vault"] none
    (show (step ["vault"]).Meets KeepsProviders (start none) sampleEvents by
      decide +kernel)
  have reached : ((step ["vault"]).run (start none) sampleEvents).isSome := by
    decide +kernel
  have facts : ∀ manager ∈ (step ["vault"]).run (start none) sampleEvents,
      manager.operations.entries = [] ∧
        ∃ provider ∈ manager.connected, manager.Stores provider := by
    decide +kernel
  obtain ⟨last, isLast⟩ := Option.isSome_iff_exists.mp reached
  exact ⟨last, isLast, always _ (List.prefix_refl _) last isLast, facts last isLast⟩

def vaultSettings : ExternalSecretsSettings :=
  .ofList [("vault", { connected := true, connectedAt := none, settings := .null })]

def overlappingReloads : List ManagerEvent :=
  [.reloadAllProviders, .answers 0, .settles 0 true 1, .reloadProvider "vault",
    .settles 0 true 1, .settles 0 true 1, .settles 1 true 1,
    .settles 1 true 1]

def overlappingSettings : List ManagerEvent :=
  [.setProviderSettings "vault" .null, .setProviderSettings "aws" .null,
    .answers 0, .answers 1, .settles 0 true 1, .settles 1 true 1, .answers 0,
    .answers 1, .settles 0 true 1, .settles 1 true 1, .settles 0 true 1,
    .settles 1 true 1]

/-- An instance that is connected has no owner, and the settings of a provider
are lost. -/
theorem orphan_and_lost_settings : (∃ last, (step ["vault"]).run (start (some vaultSettings))
      overlappingReloads = some last ∧ last.operations.entries = [] ∧
        ∃ provider ∈ last.connected, ¬ last.Stores provider) ∧
    (∃ last, (step ["vault", "aws"]).run (start none) overlappingSettings =
      some last ∧ last.operations.entries = [] ∧
        ∃ stored, last.storedSettings = some stored ∧ stored.get? "vault" = none) := by
  have orphan : ∀ last ∈ (step ["vault"]).run (start (some vaultSettings))
      overlappingReloads, last.operations.entries = [] ∧
        ∃ provider ∈ last.connected, ¬ last.Stores provider := by
    decide +kernel
  have lost : ∀ last ∈ (step ["vault", "aws"]).run (start none)
      overlappingSettings, last.operations.entries = [] ∧
        ∃ stored ∈ last.storedSettings, stored.get? "vault" = none := by
    decide +kernel
  constructor
  · have reached : ((step ["vault"]).run (start (some vaultSettings))
        overlappingReloads).isSome := by
      decide +kernel
    obtain ⟨last, isLast⟩ := Option.isSome_iff_exists.mp reached
    exact ⟨last, isLast, orphan last isLast⟩
  · have reached : ((step ["vault", "aws"]).run (start none) overlappingSettings).isSome := by
      decide +kernel
    obtain ⟨last, isLast⟩ := Option.isSome_iff_exists.mp reached
    exact ⟨last, isLast, lost last isLast⟩

end ExternalSecretsManager

end N8n
