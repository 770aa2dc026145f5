import N8n.Library.Machine
import N8n.Library.OrderedMap
import N8n.Library.TextSearch

/-!
# The cache of webhooks

A store writes the cache and then the database, a delete has the cache emptied
and the database at the same time, and a reader fills the cache with what it
has found in the database.  Each of these accesses takes effect at some moment,
and calls overlap between them.
-/

namespace N8n

inductive HttpRequestMethod where
  | delete
  | get
  | head
  | patch
  | post
  | put
deriving DecidableEq

def HttpRequestMethod.name : HttpRequestMethod → String
  | .delete => "DELETE"
  | .get => "GET"
  | .head => "HEAD"
  | .patch => "PATCH"
  | .post => "POST"
  | .put => "PUT"

def pathSegments (path : String) : List (List Char) := path.toList.splitOn '/'

def isDynamicSegment (segment : List Char) : Bool := segment.head? = some ':'

def hasDynamicSegment (path : String) : Bool :=
  (pathSegments path).any isDynamicSegment

/-- The key under which a webhook is cached for a path. -/
def webhookKey (method : HttpRequestMethod) (path : String) : String :=
  "webhook:" ++ method.name ++ "-" ++ path

structure WebhookEntity where
  workflowId : String
  webhookPath : String
  method : HttpRequestMethod
  node : String
  webhookId : Option String := none
  pathLength : Option Nat := none
deriving DecidableEq

namespace WebhookEntity

section

variable (webhook : WebhookEntity)

def uniquePath : String :=
  if ':' ∈ webhook.webhookPath.toList then
    webhook.webhookId.getD "" ++ "/" ++ webhook.webhookPath
  else webhook.webhookPath

def cacheKey : String :=
  webhookKey webhook.method webhook.uniquePath

def staticSegments : List (List Char) :=
  (pathSegments webhook.webhookPath).filter fun segment =>
    !isDynamicSegment segment

end

end WebhookEntity

/-- A call that is in progress, by the access that it waits for. -/
inductive WebhookCall where
  | storing (webhook : WebhookEntity)
  | upserting (webhook : WebhookEntity)
  | selecting (workflowId : String)
  | removing (webhooks : List WebhookEntity)
  | reading (method : HttpRequestMethod) (path : String)
  | querying (method : HttpRequestMethod) (path : String)
  | filling (method : HttpRequestMethod) (path : String) (webhook : WebhookEntity)
  | searching (method : HttpRequestMethod) (path : String)
deriving DecidableEq

/-- The repository and the cache with the calls that are in progress.
`deletions` are the accesses to the cache that nobody waits for, and `found`
lists what `findWebhook` has returned. -/
structure Webhooks where
  repository : OrderedMap (HttpRequestMethod × String) WebhookEntity := .empty
  cache : OrderedMap String WebhookEntity := .empty
  calls : List WebhookCall := []
  deletions : List (List String) := []
  found : List (Option WebhookEntity) := []

/-- A method of the service is called, an access takes effect or fails, or the
cache drops an entry. -/
inductive WebhookEvent where
  | storeWebhook (webhook : WebhookEntity)
  | deleteWorkflowWebhooks (workflowId : String)
  | findWebhook (method : HttpRequestMethod) (path : String)
  | access (call : WebhookCall) (succeeds : Bool)
  | deleteMany (keys : List String) (succeeds : Bool)
  | expire (key : String)

namespace Webhooks

/-- One round of the search for the dynamic webhook with the most static
segments. -/
def preferWebhook (requestSegments : List (List Char))
    (best : Option WebhookEntity × Nat) (dynamic : WebhookEntity) :
    Option WebhookEntity × Nat :=
  let segments := dynamic.staticSegments
  if segments.all (· ∈ requestSegments) && best.2 < segments.length then
    (some dynamic, segments.length)
  else if segments.length = 0 && best.1 = none then (some dynamic, best.2)
  else best

/-- All static segments of the webhook are somewhere in the request. -/
def ContainsSegments (otherSegments : List (List Char)) (webhook : WebhookEntity) : Prop :=
  webhook.staticSegments.all (· ∈ otherSegments) = true

instance (otherSegments : List (List Char)) (webhook : WebhookEntity) :
    Decidable (ContainsSegments otherSegments webhook) :=
  inferInstanceAs (Decidable (_ = _))

section

variable (webhooks : Webhooks)

def findDynamicWebhook (path : String) (method : HttpRequestMethod) : Option WebhookEntity :=
  match pathSegments path with
  | [] => none
  | uuidSegment :: otherSegments =>
    let dynamicWebhooks := webhooks.repository.values.filter fun webhook =>
      webhook.webhookId.map String.toList = some uuidSegment && webhook.method = method &&
        webhook.pathLength = some otherSegments.length
    (dynamicWebhooks.foldl (preferWebhook otherSegments) (none, 0)).1

/-- What a query of the cache answers, if it does not fail. -/
def queryCache (answers : Bool)
    (method : HttpRequestMethod) (path : String) : Option WebhookEntity :=
  if answers then webhooks.cache.get? (webhookKey method path) else none

section

variable (method : HttpRequestMethod) (path : String)

def findStaticWebhook : Option WebhookEntity :=
  webhooks.repository.get? (method, path)

def upsert (webhook : WebhookEntity) : Webhooks :=
  { webhooks with
    repository := webhooks.repository.set (webhook.method, webhook.webhookPath) webhook }

def remove (removed : List WebhookEntity) : Webhooks :=
  { webhooks with
    repository := (removed.map fun webhook => (webhook.method, webhook.webhookPath)).foldl
        OrderedMap.delete webhooks.repository }

def cacheSet (key : String) (webhook : WebhookEntity) (succeeds : Bool) : Webhooks :=
  if succeeds then
    { webhooks with cache := webhooks.cache.set key webhook }
  else webhooks

def cacheDelete (keys : List String) : Webhooks :=
  { webhooks with
    cache := keys.foldl OrderedMap.delete webhooks.cache }

def begin (call : WebhookCall) : Webhooks :=
  { webhooks with calls := webhooks.calls ++ [call] }

def returns (webhook : Option WebhookEntity) : Webhooks :=
  { webhooks with found := webhook :: webhooks.found }

/-- The access of a call takes effect or fails, and the call goes on to its
next access.  A failure of the cache is only logged. -/
def access : WebhookCall → Bool → Webhooks
  | .storing webhook, succeeds =>
    (webhooks.cacheSet webhook.cacheKey webhook succeeds).begin (.upserting webhook)
  | .upserting webhook, true => webhooks.upsert webhook
  | .selecting workflowId, true =>
    let selected := webhooks.repository.values.filter fun webhook =>
      webhook.workflowId = workflowId
    { webhooks.begin (.removing selected) with
      deletions := webhooks.deletions ++ [selected.map WebhookEntity.cacheKey] }
  | .removing removed, true => webhooks.remove removed
  | .reading method path, succeeds =>
    match webhooks.queryCache succeeds method path with
    | some webhook => webhooks.returns (some webhook)
    | none => webhooks.begin (.querying method path)
  | .querying method path, true =>
    match webhooks.findStaticWebhook method path with
    | some webhook => webhooks.begin (.filling method path webhook)
    | none => webhooks.begin (.searching method path)
  | .filling method path webhook, succeeds =>
    (webhooks.cacheSet (webhookKey method path) webhook succeeds).returns (some webhook)
  | .searching method path, true =>
    webhooks.returns (webhooks.findDynamicWebhook path method)
  | _, false => webhooks

def resume (call : WebhookCall) : Webhooks :=
  { webhooks with calls := webhooks.calls.erase call }

def step : Machine Webhooks WebhookEvent
  | webhooks, .storeWebhook webhook => some (webhooks.begin (.storing webhook))
  | webhooks, .deleteWorkflowWebhooks workflowId =>
    some (webhooks.begin (.selecting workflowId))
  | webhooks, .findWebhook method path =>
    some (webhooks.begin (.reading method path))
  | webhooks, .access call succeeds =>
    if call ∈ webhooks.calls then
      some ((webhooks.resume call).access call succeeds)
    else none
  | webhooks, .deleteMany keys succeeds =>
    if keys ∈ webhooks.deletions then
      let started := { webhooks with deletions := webhooks.deletions.erase keys }
      some (if succeeds then started.cacheDelete keys else started)
    else none
  | webhooks, .expire key => some (webhooks.cacheDelete [key])

/-- What `findWebhook` returns when it runs alone; the query of the cache may
fail. -/
def findCached (cacheAnswers : Bool)
    (method : HttpRequestMethod) (path : String) : Option WebhookEntity :=
  match webhooks.queryCache cacheAnswers method path with
  | some webhook => some webhook
  | none =>
    match webhooks.findStaticWebhook method path with
    | some webhook => some webhook
    | none => webhooks.findDynamicWebhook path method

/-- A webhook that is found is the stored one, or, if there is none, another
than that of the method and path. -/
def IsRightWebhook (stored found : Option WebhookEntity) : Prop :=
  match stored with
  | some webhook => found = some webhook
  | none => ∀ webhook, found = some webhook →
      ¬ (webhook.method = method ∧ webhook.webhookPath = path)

/-- Once no call is in progress, each path without dynamic segments finds what
the repository has. -/
def AgreesWhenQuiet : Prop :=
  webhooks.calls = [] → ∀ method path, hasDynamicSegment path = false →
    ∀ cacheAnswers, IsRightWebhook method path (webhooks.findStaticWebhook method path)
      (webhooks.findCached cacheAnswers method path)

def storesAt : WebhookCall → Bool
  | .storing webhook | .upserting webhook =>
    webhook.method = method && webhook.webhookPath = path
  | _ => false

section

variable (cached stored : Option WebhookEntity)

def agrees : Bool :=
  match cached, stored with
  | none, _ => true
  | some webhook, some other => webhook = other
  | some webhook, none =>
    !(webhook.method = method && webhook.webhookPath = path)

/-- What will be cached agrees with what will be stored, or the path has a
dynamic segment, or another store for it is in progress. -/
def settles : Bool :=
  hasDynamicSegment path || agrees method path cached stored ||
    webhooks.calls.any (storesAt method path)

end

end

/-- The accesses that write the repository leave it as the cache has it, a
reader fills the cache with what is still stored, and a webhook that is cached
for another path than its own does not hide the one of that path. -/
def accessAgrees : WebhookCall → Bool → Bool
  | .storing webhook, true =>
    webhook.uniquePath = webhook.webhookPath ||
      webhooks.settles webhook.method webhook.uniquePath (some webhook)
        (webhooks.findStaticWebhook webhook.method webhook.uniquePath)
  | .upserting webhook, succeeds =>
    webhooks.settles webhook.method webhook.webhookPath
      (webhooks.cache.get? (webhookKey webhook.method webhook.webhookPath))
      (if succeeds then some webhook
        else webhooks.findStaticWebhook webhook.method webhook.webhookPath)
  | .removing removed, true => removed.all fun webhook =>
    webhooks.settles webhook.method webhook.webhookPath
      (webhooks.cache.get? (webhookKey webhook.method webhook.webhookPath))
      none
  | .filling method path webhook, true =>
    webhooks.settles method path (some webhook) (webhooks.findStaticWebhook method path)
  | _, _ => true

def keepsAgreement : WebhookEvent → Bool
  | .access call succeeds =>
    (webhooks.resume call).accessAgrees call succeeds
  | _ => true

def KeepsAgreement (event : WebhookEvent) : Prop :=
  keepsAgreement webhooks event = true

end

instance (webhooks : Webhooks) (event : WebhookEvent) : Decidable (KeepsAgreement webhooks event) :=
  inferInstanceAs (Decidable (_ = _))

theorem method_name_injective : Function.Injective HttpRequestMethod.name := by
  intro left right same
  cases left <;> cases right <;> first | rfl | exact absurd same (by decide)

theorem not_mem_method_name (method : HttpRequestMethod) :
    '-' ∉ ("webhook:" ++ method.name).toList := by
  cases method <;> decide

/-- No method has a hyphen, so the first one of a key ends the method. -/
theorem webhookKey_inj {method other : HttpRequestMethod} {path otherPath : String} :
    webhookKey method path = webhookKey other otherPath ↔ method = other ∧ path = otherPath := by
  constructor
  · intro same
    have split (method : HttpRequestMethod) (path : String) : (webhookKey method path).toList =
          ("webhook:" ++ method.name).toList ++ '-' :: path.toList := by
      simp [webhookKey]
    have chars := congrArg String.toList same
    rw [split, split] at chars
    obtain ⟨front, paths⟩ := TextSearch.append_cons_inj_of_first
      (not_mem_method_name method) (not_mem_method_name other) chars
    rw [String.toList_append, String.toList_append] at front
    have names := String.toList_inj.mp (List.append_cancel_left front)
    exact ⟨method_name_injective names, String.toList_inj.mp paths⟩
  · rintro ⟨rfl, rfl⟩
    rfl

variable {webhooks next : Webhooks} {call : WebhookCall}
  {method : HttpRequestMethod} {path : String}
  {cached stored : Option WebhookEntity}

theorem settles_iff : webhooks.settles method path cached stored = true ↔
    hasDynamicSegment path = true ∨ agrees method path cached stored = true ∨
      ∃ call ∈ webhooks.calls, storesAt method path call = true := by
  simp [settles, or_assoc]

@[simp] theorem agrees_none : agrees method path none stored = true := rfl

theorem settles_mono (subset : webhooks.calls ⊆ next.calls)
    (settled : webhooks.settles method path cached stored = true) :
    next.settles method path cached stored = true := by
  rw [settles_iff] at settled ⊢
  rcases settled with dynamic | agreed | ⟨call, mem, storing⟩
  · exact .inl dynamic
  · exact .inr (.inl agreed)
  · exact .inr (.inr ⟨call, subset mem, storing⟩)

theorem settles_resume (call : WebhookCall) (notStoring : storesAt method path call = false)
    (settled : webhooks.settles method path cached stored = true) :
    (webhooks.resume call).settles method path cached stored = true := by
  rw [settles_iff] at settled ⊢
  rcases settled with dynamic | agreed | ⟨other, mem, storing⟩
  · exact .inl dynamic
  · exact .inr (.inl agreed)
  · have ne : other ≠ call := by
      rintro rfl
      rw [notStoring] at storing
      cases storing
    refine .inr (.inr ⟨other, ?_, storing⟩)
    exact (List.mem_erase_of_ne ne).mpr mem

/-- The rows are stored under their own keys, and each path is settled. -/
structure Sound (webhooks : Webhooks) : Prop where
  rows : ∀ method path webhook, webhooks.repository.get? (method, path) = some webhook →
      webhook.method = method ∧ webhook.webhookPath = path
  settled : ∀ method path, webhooks.settles method path
    (webhooks.cache.get? (webhookKey method path))
    (webhooks.findStaticWebhook method path) = true

theorem start_sound : Sound {} := by
  constructor
  · intro method path webhook found
    cases found
  · intro method path
    simp [settles]

theorem Sound.unchanged (sound : Sound webhooks)
    (notStoring : ∀ method path, storesAt method path call = false)
    (calls : (webhooks.resume call).calls ⊆ next.calls)
    (sameCache : next.cache = webhooks.cache)
    (sameRepository : next.repository = webhooks.repository) :
    Sound next := by
  constructor
  · rw [sameRepository]
    exact sound.rows
  · intro method path
    rw [findStaticWebhook, sameRepository, sameCache]
    apply settles_mono calls
    exact settles_resume call (notStoring method path) (sound.settled method path)

theorem Sound.begin (sound : Sound webhooks) (call : WebhookCall) :
    Sound (webhooks.begin call) := by
  constructor
  · exact sound.rows
  · intro method path
    apply settles_mono _ (sound.settled method path)
    exact List.subset_append_left _ _

theorem Sound.cacheDelete (sound : Sound webhooks) (keys : List String) :
    Sound (webhooks.cacheDelete keys) := by
  constructor
  · exact sound.rows
  · intro method path
    rw [Webhooks.cacheDelete, OrderedMap.get?_foldl_delete]
    split
    · simp [settles]
    · exact sound.settled method path

theorem settles_resume_begin (call later : WebhookCall)
    (stays : storesAt method path call = true → storesAt method path later = true)
    (settled : webhooks.settles method path cached stored = true) :
    ((webhooks.resume call).begin later).settles method path cached stored =
      true := by
  cases storing : storesAt method path call with
  | false =>
    apply settles_mono _ (settles_resume call storing settled)
    exact List.subset_append_left _ _
  | true =>
    rw [settles_iff]
    refine .inr (.inr ⟨later, ?_, stays storing⟩)
    exact List.mem_append_right _ (List.mem_singleton_self _)

theorem storesAt_own (webhook : WebhookEntity) :
    storesAt webhook.method webhook.webhookPath (.upserting webhook) =
      true := by
  simp [storesAt]

variable {webhook : WebhookEntity} {succeeds : Bool}

theorem Sound.storing (sound : Sound webhooks) (keeps : (webhooks.resume (.storing webhook)).accessAgrees
      (.storing webhook) succeeds = true) :
    Sound ((webhooks.resume (.storing webhook)).access (.storing webhook) succeeds) := by
  have kept (method : HttpRequestMethod) (path : String) :=
    settles_resume_begin (.storing webhook) (.upserting webhook) id (sound.settled method path)
  cases succeeds with
  | false => exact ⟨sound.rows, kept⟩
  | true =>
    refine ⟨sound.rows, ?_⟩
    intro method path
    by_cases own : webhookKey method path = webhook.cacheKey
    · obtain ⟨rfl, rfl⟩ := webhookKey_inj.mp own
      simp only [accessAgrees, Bool.or_eq_true, decide_eq_true_eq] at keeps
      rcases keeps with plain | settled
      · rw [settles_iff]
        refine .inr (.inr ⟨.upserting webhook, ?_, ?_⟩)
        · exact List.mem_append_right _ (List.mem_singleton_self _)
        · rw [plain]
          exact storesAt_own webhook
      · have cachedNow : (webhooks.cache.set webhook.cacheKey webhook).get?
            (webhookKey webhook.method webhook.uniquePath) = some webhook := by
          rw [own, OrderedMap.get?_set_self]
        rw [← cachedNow] at settled
        exact settles_mono (List.subset_append_left _ _) settled
    · have cachedBefore : (webhooks.cache.set webhook.cacheKey webhook).get?
            (webhookKey method path) = webhooks.cache.get? (webhookKey method path) :=
        OrderedMap.get?_set_ne _ _ (Ne.symm own)
      have settled := kept method path
      rw [← cachedBefore] at settled
      exact settled

theorem Sound.upserting (sound : Sound webhooks) (keeps : (webhooks.resume (.upserting webhook)).accessAgrees
      (.upserting webhook) succeeds = true) :
    Sound ((webhooks.resume (.upserting webhook)).access (.upserting webhook) succeeds) := by
  have others (method : HttpRequestMethod) (path : String)
      (ne : (webhook.method, webhook.webhookPath) ≠ (method, path)) :=
    settles_resume (.upserting webhook) (by
      simpa [storesAt] using ne) (sound.settled method path)
  cases succeeds with
  | false =>
    refine ⟨sound.rows, ?_⟩
    intro method path
    by_cases own : (webhook.method, webhook.webhookPath) = (method, path)
    · cases own
      exact keeps
    · exact others method path own
  | true =>
    constructor
    · intro method path stored found
      simp only [Webhooks.access, upsert, OrderedMap.get?_set] at found
      split at found
      next own =>
        cases own
        cases found
        exact ⟨rfl, rfl⟩
      · exact sound.rows method path stored found
    · intro method path
      by_cases own : (webhook.method, webhook.webhookPath) = (method, path)
      · cases own
        have storedNow : (webhooks.upsert webhook).findStaticWebhook
            webhook.method webhook.webhookPath = some webhook :=
          OrderedMap.get?_set_self _ _ _
        have settled := keeps
        simp only [accessAgrees, if_true] at settled
        rw [← storedNow] at settled
        exact settled
      · have storedBefore : (webhooks.upsert webhook).findStaticWebhook
            method path = webhooks.findStaticWebhook method path :=
          OrderedMap.get?_set_ne _ _ own
        have settled := others method path own
        rw [← storedBefore] at settled
        exact settled

theorem Sound.removing (sound : Sound webhooks) {removed : List WebhookEntity}
    (keeps : (webhooks.resume (.removing removed)).accessAgrees
      (.removing removed) succeeds = true) :
    Sound ((webhooks.resume (.removing removed)).access (.removing removed) succeeds) := by
  have kept (method : HttpRequestMethod) (path : String) :=
    settles_resume (.removing removed) rfl (sound.settled method path)
  cases succeeds with
  | false => exact ⟨sound.rows, kept⟩
  | true =>
    constructor
    · intro method path webhook found
      simp only [Webhooks.access, remove, OrderedMap.get?_foldl_delete] at found
      split at found
      · cases found
      · exact sound.rows method path webhook found
    · intro method path
      have stored := OrderedMap.get?_foldl_delete webhooks.repository
        (removed.map fun webhook => (webhook.method, webhook.webhookPath))
        (method, path)
      by_cases mem : (method, path) ∈ removed.map
          (fun webhook => (webhook.method, webhook.webhookPath))
      · rw [if_pos mem] at stored
        obtain ⟨webhook, among, own⟩ := List.mem_map.mp mem
        cases own
        have settled := List.all_eq_true.mp keeps webhook among
        rw [← stored] at settled
        exact settled
      · rw [if_neg mem] at stored
        have settled := kept method path
        rw [findStaticWebhook, ← stored] at settled
        exact settled

theorem Sound.filling (sound : Sound webhooks)
    (keeps : (webhooks.resume (.filling method path webhook)).accessAgrees
      (.filling method path webhook) succeeds = true) :
    Sound ((webhooks.resume (.filling method path webhook)).access
      (.filling method path webhook) succeeds) := by
  have kept (other : HttpRequestMethod) (otherPath : String) :=
    settles_resume (.filling method path webhook) rfl (sound.settled other otherPath)
  cases succeeds with
  | false => exact ⟨sound.rows, kept⟩
  | true =>
    refine ⟨sound.rows, ?_⟩
    intro other otherPath
    have cachedNow : (webhooks.cache.set (webhookKey method path)
        webhook).get? (webhookKey other otherPath) = _ :=
      OrderedMap.get?_set _ _ _ _
    by_cases own : webhookKey method path = webhookKey other otherPath
    · rw [if_pos own] at cachedNow
      obtain ⟨rfl, rfl⟩ := webhookKey_inj.mp own
      have settled := keeps
      rw [accessAgrees, ← cachedNow] at settled
      exact settled
    · rw [if_neg own] at cachedNow
      have settled := kept other otherPath
      rw [← cachedNow] at settled
      exact settled

theorem Sound.access (sound : Sound webhooks)
    (keeps : (webhooks.resume call).accessAgrees call succeeds = true) :
    Sound ((webhooks.resume call).access call succeeds) := by
  cases call with
  | storing webhook => exact sound.storing keeps
  | upserting webhook => exact sound.upserting keeps
  | removing removed => exact sound.removing keeps
  | filling method path webhook => exact sound.filling keeps
  | selecting workflowId =>
    cases succeeds with
    | false =>
      exact sound.unchanged (fun _ _ => rfl) (List.Subset.refl _) rfl rfl
    | true =>
      exact sound.unchanged (fun _ _ => rfl) (List.subset_append_left _ _) rfl rfl
  | reading method path =>
    have reading : (webhooks.resume (.reading method path)).calls ⊆
        ((webhooks.resume (.reading method path)).begin (.querying method path)).calls :=
      List.subset_append_left _ _
    unfold Webhooks.access
    dsimp only
    split
    · exact sound.unchanged (fun _ _ => rfl) (List.Subset.refl _) rfl rfl
    · exact sound.unchanged (fun _ _ => rfl) reading rfl rfl
  | querying method path =>
    cases succeeds with
    | false =>
      exact sound.unchanged (fun _ _ => rfl) (List.Subset.refl _) rfl rfl
    | true =>
      rw [Webhooks.access]
      split
      · exact sound.unchanged (fun _ _ => rfl) (List.subset_append_left _ _) rfl rfl
      · exact sound.unchanged (fun _ _ => rfl) (List.subset_append_left _ _) rfl rfl
  | searching method path =>
    cases succeeds with
    | false | true =>
      exact sound.unchanged (fun _ _ => rfl) (List.Subset.refl _) rfl rfl

theorem Sound.step (sound : Sound webhooks) {event : WebhookEvent}
    (keeps : KeepsAgreement webhooks event)
    (moved : step webhooks event = some next) : Sound next := by
  cases event with
  | storeWebhook webhook | deleteWorkflowWebhooks workflowId
  | findWebhook method path =>
    cases moved
    exact sound.begin _
  | access call succeeds =>
    obtain ⟨_, rfl⟩ := Machine.of_guarded moved
    exact sound.access keeps
  | deleteMany keys succeeds =>
    have started : Sound { webhooks with
        deletions := webhooks.deletions.erase keys } :=
      ⟨sound.rows, sound.settled⟩
    obtain ⟨_, rfl⟩ := Machine.of_guarded moved
    split
    · exact started.cacheDelete keys
    · exact started
  | expire key =>
    cases moved
    exact sound.cacheDelete [key]

theorem mem_of_preferWebhook {requestSegments : List (List Char)}
    {dynamic : List WebhookEntity} {best : Option WebhookEntity × Nat}
    (found : (dynamic.foldl (preferWebhook requestSegments) best).1 =
      some webhook) : best.1 = some webhook ∨ webhook ∈ dynamic := by
  induction dynamic generalizing best with
  | nil => exact .inl found
  | cons first dynamic ih =>
    rcases ih found with now | later
    · unfold preferWebhook at now
      dsimp only at now
      split at now
      · cases now
        exact .inr List.mem_cons_self
      · split at now
        · cases now
          exact .inr List.mem_cons_self
        · exact .inl now
    · exact .inr (List.mem_cons_of_mem _ later)

theorem mem_values_of_findDynamicWebhook
    (found : webhooks.findDynamicWebhook path method = some webhook) :
    webhook ∈ webhooks.repository.values := by
  unfold findDynamicWebhook at found
  split at found
  · cases found
  · rcases mem_of_preferWebhook found with none | mem
    · cases none
    · exact (List.mem_filter.mp mem).1

theorem Sound.findDynamicWebhook (sound : Sound webhooks)
    (absent : webhooks.findStaticWebhook method path = none) :
    IsRightWebhook method path none (webhooks.findDynamicWebhook path method) := by
  intro webhook found own
  obtain ⟨⟨key, value⟩, mem, rfl⟩ := List.mem_map.mp (mem_values_of_findDynamicWebhook found)
  have stored := OrderedMap.get?_eq_some_iff.mpr mem
  obtain ⟨sameMethod, samePath⟩ := sound.rows key.1 key.2 value stored
  have sameKey : key = (method, path) := by
    rw [← own.1, ← own.2, sameMethod, samePath]
  rw [findStaticWebhook, ← sameKey, stored] at absent
  cases absent

theorem Sound.agreesWhenQuiet (sound : Sound webhooks) : AgreesWhenQuiet webhooks := by
  intro quiet method path isStatic cacheAnswers
  have agreed : agrees method path (webhooks.cache.get? (webhookKey method path))
      (webhooks.findStaticWebhook method path) = true := by
    have settled := sound.settled method path
    simpa [settles, isStatic, quiet] using settled
  rw [findCached]
  cases hit : webhooks.queryCache cacheAnswers method path with
  | some webhook =>
    have cached : webhooks.cache.get? (webhookKey method path) = some webhook := by
      rw [queryCache] at hit
      split at hit
      · exact hit
      · cases hit
    rw [cached] at agreed
    cases stored : webhooks.findStaticWebhook method path with
    | none =>
      rw [stored] at agreed
      intro found same own
      cases same
      simp [agrees, own] at agreed
    | some other =>
      rw [stored] at agreed
      have same : webhook = other := by simpa [agrees] using agreed
      exact congrArg some same
  | none =>
    cases stored : webhooks.findStaticWebhook method path with
    | none => exact sound.findDynamicWebhook stored
    | some webhook => rfl

end Webhooks

end N8n
