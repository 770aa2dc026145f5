import N8n.Library.JsonValue
import N8n.Library.Machine
import N8n.Library.OrderedMap
import Mathlib.Data.Finset.Erase
import Mathlib.Data.Finset.Insert

/-!
# External secrets manager

The operations of the manager await the settings in the database and their
instances of providers, which are created, connected, stored by name and
disconnected in separate steps.  The length of back-offs is left out: a retry
timer may fire at any time.
-/

namespace N8n

/-- `connectedAt` is in milliseconds. -/
structure SecretsProviderSettings where
  connected : Bool
  connectedAt : Option Nat
  settings : JsonValue
deriving DecidableEq

abbrev ExternalSecretsSettings := OrderedMap String SecretsProviderSettings

/-- An instance of a provider; `number` tells it from all other ones. -/
structure SecretsProvider where
  name : String
  number : Nat
deriving DecidableEq

inductive SettingsChange where
  | settings (data : JsonValue)
  | connected (connected : Bool)

inductive SettingsReader where
  | reloadAllProviders
  | setProvider (provider : String) (change : SettingsChange)

/-- The providers that are reloaded after one, if the operation goes on. -/
abbrev AfterReload := List String

inductive InitPurpose where
  | reload (after : AfterReload)
  | test

/-- What an operation awaits.  The database answers before the operation goes
on with the answer; the settings that are saved are those that were read with
one provider changed. -/
inductive ManagerPhase where
  | reads (reader : SettingsReader)
  | hasRead (reader : SettingsReader) (settings : Option ExternalSecretsSettings)
  | saves (provider : String) (changed : SecretsProviderSettings)
      (settings : ExternalSecretsSettings)
  | hasSaved (provider : String) (settings : ExternalSecretsSettings)
  | removes (disconnected : SecretsProvider) (name : String) (rest newProviders : List String)
  | disconnects (disconnected : SecretsProvider) (name : String) (after : AfterReload)
  | inits (provider : SecretsProvider)
      (settings : Option SecretsProviderSettings) (purpose : InitPurpose)
  | connects (provider : SecretsProvider) (purpose : InitPurpose)
  | abandons (provider : SecretsProvider) (purpose : InitPurpose)
  | tests (provider : SecretsProvider)
  | disconnectsTest (provider : SecretsProvider)

/-- The manager with the settings in the database and its operations in
progress.  `connected` are the instances that have been connected and not
disconnected since, and `saved` the last changes that were written. -/
structure ExternalSecretsManager where
  storedSettings : Option ExternalSecretsSettings := none
  cachedSettings : ExternalSecretsSettings := .empty
  providers : OrderedMap String SecretsProvider := .empty
  initRetryTimeouts : Finset String := ∅
  nextInstance : Nat := 0
  connected : Finset SecretsProvider := ∅
  operations : OrderedMap Nat ManagerPhase := .empty
  nextOperation : Nat := 0
  saved : ExternalSecretsSettings := .empty

/-- `answers` is an answer of the database, `settles` the end of what an
operation awaits, and `now` the time at that moment. -/
inductive ManagerEvent where
  | reloadAllProviders
  | reloadProvider (provider : String)
  | setProviderSettings (provider : String) (data : JsonValue)
  | setProviderConnected (provider : String) (connected : Bool)
  | testProviderSettings (provider : String) (data : JsonValue) (now : Nat)
  | fires (provider : String) (hasError : Bool)
  | answers (operation : Nat)
  | settles (operation : Nat) (succeeds : Bool) (now : Nat)

namespace SettingsChange

def apply (change : SettingsChange) (old : Option SecretsProviderSettings)
    (now : Nat) : SecretsProviderSettings :=
  match change with
  | .settings data =>
    { connected := (old.map (·.connected)).getD false
      connectedAt := some ((old.bind (·.connectedAt)).getD now)
      settings := data }
  | .connected isConnected =>
    { connected := isConnected
      connectedAt := if isConnected then some now else old.bind (·.connectedAt)
      settings := (old.map (·.settings)).getD (.object []) }

end SettingsChange

namespace ExternalSecretsManager

-- the names for which there is a class of providers
variable (classes : List String) (manager : ExternalSecretsManager) (operation : Nat)

def setPhase (phase : ManagerPhase) : ExternalSecretsManager :=
  { manager with operations := manager.operations.set operation phase }

def finish : ExternalSecretsManager :=
  { manager with operations := manager.operations.delete operation }

variable (name : String)

def retryInitWithBackoff : ExternalSecretsManager :=
  { manager with initRetryTimeouts := insert name manager.initRetryTimeouts }

def initProvider (settings : Option SecretsProviderSettings)
    (purpose : InitPurpose) : ExternalSecretsManager :=
  { manager with nextInstance := manager.nextInstance + 1 }.setPhase operation
    (.inits { name, number := manager.nextInstance } settings purpose)

/-- Providers are reloaded one after the other.  In the end the secrets are
updated. -/
def reloadProviders (manager : ExternalSecretsManager) (operation : Nat) :
    List String → ExternalSecretsManager
  | [] => manager.finish operation
  | name :: rest =>
    match manager.providers.get? name with
    | some provider =>
      manager.setPhase operation (.disconnects provider name rest)
    | none =>
      if name ∈ classes then
        manager.initProvider operation name (manager.cachedSettings.get? name) (.reload rest)
      else manager.reloadProviders operation rest

/-- A provider is initialized again when the old instance has been removed. -/
def initReloaded (after : AfterReload) : ExternalSecretsManager :=
  if name ∈ classes then
    manager.initProvider operation name (manager.cachedSettings.get? name) (.reload after)
  else manager.reloadProviders classes operation after

/-- The providers that are no longer in the settings are removed, and the
others are reloaded.  An entry that is gone is an error that is caught. -/
def removeProviders (manager : ExternalSecretsManager) (operation : Nat)
    (newProviders : List String) : List String → ExternalSecretsManager
  | [] => manager.reloadProviders classes operation newProviders
  | name :: rest =>
    if name ∈ newProviders then
      manager.removeProviders operation newProviders rest
    else match manager.providers.get? name with
      | some provider => manager.setPhase operation (.removes provider name rest newProviders)
      | none => manager.removeProviders operation newProviders rest

variable (provider : SecretsProvider)

def disconnect : ExternalSecretsManager :=
  { manager with connected := manager.connected.erase provider }

def connect : ExternalSecretsManager :=
  { manager with connected := insert provider manager.connected }

def deleteProvider (name : String) : ExternalSecretsManager :=
  { manager with providers := manager.providers.delete name }

def storeProvider : ExternalSecretsManager :=
  { manager with providers := manager.providers.set provider.name provider }

/-- `initProvider` returns an instance. -/
def finishInit (purpose : InitPurpose) : ExternalSecretsManager :=
  match purpose with
  | .reload after => (manager.storeProvider provider).reloadProviders classes operation after
  | .test => manager.setPhase operation (.tests provider)

/-- Settings that are `undefined` fail when `connected` is read. -/
def initialized (settings : Option SecretsProviderSettings)
    (purpose : InitPurpose) : ExternalSecretsManager :=
  match settings with
  | none => manager.setPhase operation (.abandons provider purpose)
  | some settings =>
    if settings.connected then
      manager.setPhase operation (.connects provider purpose)
    else manager.finishInit classes operation provider purpose

def useSettings (now : Nat) (reader : SettingsReader)
    (settings : Option ExternalSecretsSettings) : ExternalSecretsManager :=
  let settings := settings.getD .empty
  match reader with
  | .reloadAllProviders =>
    { manager with cachedSettings := settings }.removeProviders classes
      operation settings.keys manager.providers.keys
  | .setProvider provider change => manager.setPhase operation
      (.saves provider (change.apply (settings.get? provider) now) settings)

/-- An operation goes on when what it awaits has ended. -/
def settle (succeeds : Bool) (now : Nat) : ManagerPhase → Option ExternalSecretsManager
  | .reads _ | .saves _ _ _ =>
    if succeeds then none else some (manager.finish operation)
  | .hasRead reader settings =>
    if succeeds then
      some (manager.useSettings classes operation now reader settings)
    else some (manager.finish operation)
  | .hasSaved provider settings =>
    some ({ manager with cachedSettings := settings }.reloadProviders classes operation [provider])
  | .removes disconnected name rest newProviders =>
    some (((manager.disconnect disconnected).deleteProvider
      name).removeProviders classes operation newProviders rest)
  | .disconnects disconnected name after =>
    some (((manager.disconnect disconnected).deleteProvider
      name).initReloaded classes operation name after)
  | .inits provider settings purpose =>
    if succeeds then
      some (manager.initialized classes operation provider settings purpose)
    else some ((manager.retryInitWithBackoff provider.name).finishInit classes
      operation provider purpose)
  | .connects provider purpose =>
    if succeeds then
      some ((manager.connect provider).finishInit classes operation provider purpose)
    else some (manager.setPhase operation (.abandons provider purpose))
  | .abandons provider purpose =>
    some (((manager.disconnect provider).retryInitWithBackoff
      provider.name).finishInit classes operation provider purpose)
  | .tests provider =>
    some (manager.setPhase operation (.disconnectsTest provider))
  | .disconnectsTest provider =>
    some ((manager.disconnect provider).finish operation)

def answer : ManagerPhase → Option ExternalSecretsManager
  | .reads reader => some (manager.setPhase operation (.hasRead reader manager.storedSettings))
  | .saves provider changed settings => some ({ manager with
      storedSettings := some (settings.set provider changed)
      saved := manager.saved.set provider changed }.setPhase operation
        (.hasSaved provider (settings.set provider changed)))
  | _ => none

def begin : ExternalSecretsManager :=
  { manager with nextOperation := manager.nextOperation + 1 }

/-- The callback of a retry timer. -/
def fire (name : String) (hasError : Bool) : ExternalSecretsManager :=
  let fired := { manager with
    initRetryTimeouts := manager.initRetryTimeouts.erase name }
  if (fired.providers.get? name).isSome ∧ !hasError then fired
  else fired.begin.reloadProviders classes manager.nextOperation [name]

def step : Machine ExternalSecretsManager ManagerEvent := fun manager event =>
  match event with
  | .reloadAllProviders => some (manager.begin.setPhase manager.nextOperation
      (.reads .reloadAllProviders))
  | .reloadProvider provider => some (manager.begin.reloadProviders classes
      manager.nextOperation [provider])
  | .setProviderSettings provider data =>
    some (manager.begin.setPhase manager.nextOperation
      (.reads (.setProvider provider (.settings data))))
  | .setProviderConnected provider connected =>
    some (manager.begin.setPhase manager.nextOperation
      (.reads (.setProvider provider (.connected connected))))
  | .testProviderSettings provider data now =>
    if provider ∈ classes then
      some (manager.begin.initProvider manager.nextOperation provider
        (some { connected := true, connectedAt := some now, settings := data })
        .test)
    else some manager
  | .fires provider hasError =>
    if provider ∈ manager.initRetryTimeouts then
      some (manager.fire classes provider hasError)
    else none
  | .answers operation => do
    manager.answer operation (← manager.operations.get? operation)
  | .settles operation succeeds now => do
    manager.settle classes operation succeeds now (← manager.operations.get? operation)

end ExternalSecretsManager

end N8n
