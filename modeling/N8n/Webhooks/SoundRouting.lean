import N8n.Webhooks.WebhookRouting

/-!
# Only registered webhooks are found

Calls that store, delete and find webhooks overlap, and any of their accesses
can fail.  What is found was registered, and serves the request.
-/

namespace N8n

namespace Webhooks

/-- A request with this method and path may be routed to the webhook. -/
def Serves (method : HttpRequestMethod) (path : String) (webhook : WebhookEntity) : Prop :=
  webhook.method = method ∧ (webhook.webhookPath = path ∨ webhook.uniquePath = path ∨
    ∃ uuidSegment otherSegments, pathSegments path = uuidSegment :: otherSegments ∧
      webhook.webhookId.map String.toList = some uuidSegment ∧
        webhook.pathLength = some otherSegments.length)

/-- What a call has at hand was registered, and serves the request it is for. -/
def CallFits (registered : WebhookEntity → Prop) : WebhookCall → Prop
  | .storing webhook | .upserting webhook => registered webhook
  | .filling method path webhook => registered webhook ∧ Serves method path webhook
  | _ => True

/-- Webhooks were registered before they are stored, cached or found, and are
kept under what they serve. -/
structure Registered (registered : WebhookEntity → Prop) (webhooks : Webhooks) : Prop where
  repository : webhooks.repository.All fun key webhook =>
    registered webhook ∧ webhook.method = key.1 ∧ webhook.webhookPath = key.2
  cache : webhooks.cache.All fun key webhook => registered webhook ∧
    ∃ method path, key = webhookKey method path ∧ Serves method path webhook
  calls : ∀ call ∈ webhooks.calls, CallFits registered call
  found : ∀ webhook, some webhook ∈ webhooks.found → registered webhook

/-- Requests are only routed to webhooks that were registered and serve them. -/
def RoutesSoundly (registered : WebhookEntity → Prop) (webhooks : Webhooks) : Prop :=
  (∀ webhook, some webhook ∈ webhooks.found → registered webhook) ∧
    ∀ cacheAnswers method path webhook,
      webhooks.findCached cacheAnswers method path = some webhook →
        registered webhook ∧ Serves method path webhook

section Routes

variable {registered : WebhookEntity → Prop} {webhooks next : Webhooks} {call : WebhookCall}
  {method : HttpRequestMethod} {path : String} {webhook : WebhookEntity}

theorem Registered.begin (sound : Registered registered webhooks)
    (fits : CallFits registered call) : Registered registered (webhooks.begin call) := by
  refine { sound with calls := fun other mem => ?_ }
  rcases List.mem_append.mp mem with earlier | now
  · exact sound.calls other earlier
  · exact List.mem_singleton.mp now ▸ fits

theorem Registered.returns (sound : Registered registered webhooks) {found : Option WebhookEntity}
    (fits : ∀ webhook, found = some webhook → registered webhook) :
    Registered registered (webhooks.returns found) := by
  refine { sound with found := fun webhook mem => ?_ }
  rcases List.mem_cons.mp mem with now | earlier
  · exact fits webhook now.symm
  · exact sound.found webhook earlier

theorem Registered.cacheSet (sound : Registered registered webhooks) (fits : registered webhook)
    (serves : Serves method path webhook) (succeeds : Bool) :
    Registered registered (webhooks.cacheSet (webhookKey method path) webhook succeeds) := by
  rw [Webhooks.cacheSet]
  split
  · exact { sound with cache := sound.cache.set ⟨fits, method, path, rfl, serves⟩ }
  · exact sound

theorem Registered.queryCache (sound : Registered registered webhooks) {answers : Bool}
    (hit : webhooks.queryCache answers method path = some webhook) :
    registered webhook ∧ Serves method path webhook := by
  rw [Webhooks.queryCache] at hit
  split at hit
  · obtain ⟨fits, _, _, same, serves⟩ := sound.cache _ _ hit
    obtain ⟨rfl, rfl⟩ := webhookKey_inj.mp same
    exact ⟨fits, serves⟩
  · cases hit

theorem Registered.findStaticWebhook (sound : Registered registered webhooks)
    (found : webhooks.findStaticWebhook method path = some webhook) :
    registered webhook ∧ Serves method path webhook := by
  obtain ⟨fits, sameMethod, samePath⟩ := sound.repository _ _ found
  exact ⟨fits, sameMethod, .inl samePath⟩

theorem Registered.findDynamicWebhook (sound : Registered registered webhooks)
    (found : webhooks.findDynamicWebhook path method = some webhook) :
    registered webhook ∧ Serves method path webhook := by
  rw [Webhooks.findDynamicWebhook] at found
  split at found
  · cases found
  next uuidSegment otherSegments split =>
    rcases mem_of_preferWebhook found with none | mem
    · cases none
    · obtain ⟨stored, fits⟩ := List.mem_filter.mp mem
      obtain ⟨⟨key, _⟩, entry, rfl⟩ := List.mem_map.mp stored
      simp only [Bool.and_eq_true, decide_eq_true_eq] at fits
      obtain ⟨⟨uuid, sameMethod⟩, length⟩ := fits
      exact ⟨(sound.repository _ _ (OrderedMap.get?_eq_some_iff.mpr entry)).1, sameMethod,
        .inr (.inr ⟨uuidSegment, otherSegments, split, uuid, length⟩)⟩

theorem Registered.access (sound : Registered registered webhooks)
    (fits : CallFits registered call) (succeeds : Bool) :
    Registered registered (webhooks.access call succeeds) := by
  cases call with
  | storing webhook =>
    exact (sound.cacheSet fits ⟨rfl, .inr (.inl rfl)⟩ succeeds).begin fits
  | reading method path =>
    simp only [Webhooks.access]
    split
    next hit => exact sound.returns fun _ same => Option.some.inj same ▸ (sound.queryCache hit).1
    · exact sound.begin True.intro
  | filling method path webhook =>
    exact (sound.cacheSet fits.1 fits.2 succeeds).returns fun _ same =>
      Option.some.inj same ▸ fits.1
  | upserting webhook =>
    cases succeeds with
    | false => exact sound
    | true => exact { sound with repository := sound.repository.set ⟨fits, rfl, rfl⟩ }
  | selecting workflowId =>
    cases succeeds with
    | false => exact sound
    | true =>
      let selected := webhooks.repository.values.filter fun webhook =>
        webhook.workflowId = workflowId
      have removing : CallFits registered (.removing selected) := True.intro
      exact { sound.begin removing with }
  | removing removed =>
    cases succeeds with
    | false => exact sound
    | true => exact { sound with repository := sound.repository.foldl_delete _ }
  | querying method path =>
    cases succeeds with
    | false => exact sound
    | true =>
      simp only [Webhooks.access]
      split
      next found => exact sound.begin (sound.findStaticWebhook found)
      · exact sound.begin True.intro
  | searching method path =>
    cases succeeds with
    | false => exact sound
    | true => exact sound.returns fun _ found => (sound.findDynamicWebhook found).1

theorem Registered.step (sound : Registered registered webhooks) {event : WebhookEvent}
    (fits : ∀ webhook, event = .storeWebhook webhook → registered webhook)
    (moved : step webhooks event = some next) : Registered registered next := by
  cases event with
  | storeWebhook webhook =>
    cases moved
    exact sound.begin (fits webhook rfl)
  | deleteWorkflowWebhooks | findWebhook =>
    cases moved
    exact sound.begin True.intro
  | access call succeeds =>
    obtain ⟨mem, rfl⟩ := Machine.of_guarded moved
    have resumed : Registered registered (webhooks.resume call) :=
      { sound with calls := fun other later => sound.calls other (List.mem_of_mem_erase later) }
    exact resumed.access (sound.calls call mem) succeeds
  | deleteMany keys succeeds =>
    obtain ⟨_, rfl⟩ := Machine.of_guarded moved
    split
    · exact { sound with cache := sound.cache.foldl_delete keys }
    · exact { sound with }
  | expire key =>
    cases moved
    exact { sound with cache := sound.cache.foldl_delete [key] }

theorem Registered.routesSoundly (sound : Registered registered webhooks) :
    RoutesSoundly registered webhooks := by
  refine ⟨sound.found, fun cacheAnswers method path webhook found => ?_⟩
  rw [findCached] at found
  split at found
  next hit => exact Option.some.inj found ▸ sound.queryCache hit
  · split at found
    next stored => exact Option.some.inj found ▸ sound.findStaticWebhook stored
    · exact sound.findDynamicWebhook found

end Routes

/-- However the calls overlap and whatever fails, requests are only routed to
webhooks that were registered for them. -/
theorem routesSoundly_of_run (events : List WebhookEvent) :
    step.Always (RoutesSoundly fun webhook => .storeWebhook webhook ∈ events) {} events := by
  have start : Registered (fun webhook => .storeWebhook webhook ∈ events) {} :=
    ⟨OrderedMap.all_empty, OrderedMap.all_empty, fun _ mem => absurd mem List.not_mem_nil,
      fun _ mem => absurd mem List.not_mem_nil⟩
  have fits : ∀ event ∈ events, ∀ webhook, event = .storeWebhook webhook →
      .storeWebhook webhook ∈ events := fun event mem webhook same => same ▸ mem
  exact Machine.always_of_meets (fun _ _ _ sound fits moved => sound.step fits moved)
    (fun _ sound => sound.routesSoundly) start (Machine.meets_of_mem fits _)

end Webhooks

end N8n
