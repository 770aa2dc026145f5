import N8n.Library.FirstBest
import N8n.Webhooks.WebhookService

/-!
# Which webhook a request reaches

A dynamic webhook is taken for a match if its static segments are among those of
the request, wherever they are.  Of several the first one with the most static
segments is taken.
-/

namespace N8n

open List

/-- What a workflow registers for a node. -/
structure IWebhookData where
  workflowId : String
  node : String
  path : String
  httpMethod : HttpRequestMethod
  webhookId : Option String := none

/-- A path without its first and its last slash. -/
def trimSlashes (path : List Char) : List Char :=
  let unprefixed := if path.head? = some '/' then path.tail else path
  if unprefixed.getLast? = some '/' then unprefixed.dropLast else unprefixed

/-- The row of a webhook.  With a dynamic segment it has the id of its node and
the number of its segments. -/
def createWebhook (webhookData : IWebhookData) : WebhookEntity :=
  let webhookPath := String.ofList (trimSlashes webhookData.path.toList)
  let webhook : WebhookEntity :=
    { workflowId := webhookData.workflowId
      webhookPath
      method := webhookData.httpMethod
      node := webhookData.node }
  let isDynamic := webhookData.path.toList.head? = some ':' ||
    decide (['/', ':'] <:+: webhookData.path.toList)
  match webhookData.webhookId.filter fun id => id ≠ "" with
  | some webhookId =>
    if isDynamic then
      { webhook with
        webhookId := some webhookId
        pathLength := some (pathSegments webhookPath).length }
    else webhook
  | none => webhook

namespace Webhooks

def storedWebhooks (registered : List IWebhookData) : Webhooks :=
  (registered.map createWebhook).foldl upsert {}

section Search

variable (webhooks : Webhooks)

/-- The rows that a search of dynamic webhooks selects, of one method or of
all. -/
def dynamicCandidates (uuidSegment : List Char) (method : Option HttpRequestMethod)
    (pathLength : Nat) : List WebhookEntity :=
  webhooks.repository.values.filter fun webhook =>
    webhook.webhookId.map String.toList = some uuidSegment &&
      method.all (fun method => webhook.method = method) &&
      webhook.pathLength = some pathLength

/-- `findDynamicWebhook` with a method or without. -/
def searchDynamicWebhook (path : String) (method : Option HttpRequestMethod) :
    Option WebhookEntity :=
  match pathSegments path with
  | [] => none
  | uuidSegment :: otherSegments =>
    ((webhooks.dynamicCandidates uuidSegment method
      otherSegments.length).foldl (preferWebhook otherSegments) (none, 0)).1

def getWebhookMethods (rawPath : String) : List HttpRequestMethod :=
  let staticMethods := (webhooks.repository.values.filter fun webhook =>
    webhook.webhookPath = rawPath).map WebhookEntity.method
  if staticMethods.length > 0 then staticMethods
  else
    match webhooks.searchDynamicWebhook rawPath none with
    | some webhook => [webhook.method]
    | none => []

/-- `findWebhook` when the cache has no answer. -/
def findWebhook (method : HttpRequestMethod) (path : String) : Option WebhookEntity :=
  webhooks.findCached false method path

end Search

/-- Each static segment is the segment of the request at its position. -/
def matchesInPlace : List (List Char) → List (List Char) → Bool
  | [], _ => true
  | segment :: rest, [] => isDynamicSegment segment && matchesInPlace rest []
  | segment :: rest, request :: others =>
    (isDynamicSegment segment || segment = request) && matchesInPlace rest others

section

variable (webhooks : Webhooks) (method : HttpRequestMethod) (path : String)

/-- The webhook has the id and the length of the request, and the static
segments are in place. -/
def IsDynamicMatch (webhook : WebhookEntity) : Prop :=
  ∃ uuidSegment otherSegments, pathSegments path = uuidSegment :: otherSegments ∧
    webhook ∈ webhooks.dynamicCandidates uuidSegment (some method) otherSegments.length ∧
    matchesInPlace (pathSegments webhook.webhookPath) otherSegments = true

/-- No webhook without dynamic segments is stored for exactly this path. -/
def NoStaticWebhook : Prop :=
  ∀ webhook ∈ webhooks.repository.values, webhook.webhookPath = path →
    hasDynamicSegment webhook.webhookPath = true

/-- Without a static webhook a request finds a webhook that matches segment by
segment, one with the most static segments, if there is one. -/
def RoutesInPlace : Prop :=
  webhooks.NoStaticWebhook path → ((webhooks.findWebhook method path).isSome = true ↔
      ∃ webhook, webhooks.IsDynamicMatch method path webhook) ∧
    ∀ webhook, webhooks.findWebhook method path = some webhook →
      webhooks.IsDynamicMatch method path webhook ∧
      ∀ other, webhooks.IsDynamicMatch method path other →
        other.staticSegments.length ≤ webhook.staticSegments.length

/-- A webhook of which the static segments are in the request, but not in place,
is beaten by one of which they are in place. -/
def MisplacedAreBeaten : Prop :=
  ∀ uuidSegment otherSegments, pathSegments path = uuidSegment :: otherSegments →
    ∀ before webhook after, webhooks.dynamicCandidates uuidSegment (some method)
        otherSegments.length = before ++ webhook :: after →
      ContainsSegments otherSegments webhook →
      ¬ matchesInPlace (pathSegments webhook.webhookPath) otherSegments = true →
      ∃ better, ContainsSegments otherSegments better ∧
        matchesInPlace (pathSegments better.webhookPath) otherSegments = true ∧
        ((better ∈ webhooks.dynamicCandidates uuidSegment (some method) otherSegments.length ∧
            webhook.staticSegments.length < better.staticSegments.length) ∨
          (better ∈ before ∧ webhook.staticSegments.length = better.staticSegments.length))

/-- No webhook of the method has the whole path of the request as its own. -/
def PathIsNotStored : Prop :=
  ∀ webhook ∈ webhooks.repository.values, webhook.webhookPath = path → webhook.method ≠ method

end

variable {webhooks : Webhooks} {method : HttpRequestMethod} {path : String}
  {webhook : WebhookEntity} {registered : List IWebhookData}
  {otherSegments : List (List Char)}

/-- Every row has its own key and was created for a node. -/
def AreCreated (webhooks : Webhooks) : Prop :=
  ∀ entry ∈ webhooks.repository.entries, entry.1 = (entry.2.method, entry.2.webhookPath) ∧
      ∃ webhookData, entry.2 = createWebhook webhookData

theorem AreCreated.upsert (created : AreCreated webhooks) (webhookData : IWebhookData) :
    AreCreated (webhooks.upsert (createWebhook webhookData)) := by
  intro entry mem
  rcases OrderedMap.mem_entries_set.mp mem with isNew | ⟨before, _⟩
  · rw [isNew]
    exact ⟨rfl, webhookData, rfl⟩
  · exact created entry before

theorem storedWebhooks_areCreated (registered : List IWebhookData) :
    AreCreated (storedWebhooks registered) := by
  have general (webhooks : Webhooks) (created : AreCreated webhooks) :
      AreCreated ((registered.map createWebhook).foldl Webhooks.upsert webhooks) := by
    induction registered generalizing webhooks with
    | nil => exact created
    | cons webhookData rest ih => exact ih _ (created.upsert webhookData)
  apply general
  intro entry mem
  cases mem

theorem AreCreated.own (created : AreCreated webhooks)
    (found : webhooks.findStaticWebhook method path = some webhook) :
    webhook ∈ webhooks.repository.values ∧ webhook.method = method ∧
      webhook.webhookPath = path := by
  have stored := OrderedMap.get?_eq_some_iff.mp found
  obtain ⟨sameMethod, samePath⟩ := Prod.mk.inj (created _ stored).1
  exact ⟨mem_map_of_mem stored, sameMethod.symm, samePath.symm⟩

theorem AreCreated.findStaticWebhook (created : AreCreated webhooks)
    (mem : webhook ∈ webhooks.repository.values) :
    webhooks.findStaticWebhook webhook.method webhook.webhookPath = some webhook := by
  obtain ⟨entry, stored, same⟩ := mem_map.mp mem
  subst same
  apply OrderedMap.get?_eq_some_iff.mpr
  rw [← (created entry stored).1]
  exact stored

theorem AreCreated.pathIsNotStored_iff (created : AreCreated webhooks) :
    webhooks.PathIsNotStored method path ↔ webhooks.findStaticWebhook method path = none := by
  constructor
  · intro notStored
    cases found : webhooks.findStaticWebhook method path with
    | none => rfl
    | some webhook =>
      obtain ⟨mem, sameMethod, samePath⟩ := created.own found
      exact absurd sameMethod (notStored webhook mem samePath)
  · intro absent webhook mem samePath sameMethod
    have found := created.findStaticWebhook mem
    rw [samePath, sameMethod, absent] at found
    cases found

theorem webhookPath_createWebhook (webhookData : IWebhookData) :
    (createWebhook webhookData).webhookPath =
      String.ofList (trimSlashes webhookData.path.toList) := by
  rw [createWebhook]
  split
  · split <;> rfl
  · rfl

variable {length : Nat}

theorem pathLength_createWebhook {webhookData : IWebhookData}
    (isLength : (createWebhook webhookData).pathLength = some length) :
    length = (pathSegments (createWebhook webhookData).webhookPath).length := by
  rw [webhookPath_createWebhook]
  unfold createWebhook at isLength
  dsimp only at isLength
  split at isLength
  · split at isLength
    · exact (Option.some.inj isLength).symm
    · cases isLength
  · cases isLength

theorem AreCreated.pathLength (created : AreCreated webhooks)
    (mem : webhook ∈ webhooks.repository.values)
    (isLength : webhook.pathLength = some length) :
    length = (pathSegments webhook.webhookPath).length := by
  obtain ⟨entry, stored, same⟩ := mem_map.mp mem
  obtain ⟨webhookData, isCreated⟩ := (created entry stored).2
  rw [← same, isCreated] at isLength ⊢
  exact pathLength_createWebhook isLength

variable {chosen : Option HttpRequestMethod} {uuidSegment : List Char}

theorem mem_dynamicCandidates : webhook ∈ webhooks.dynamicCandidates uuidSegment chosen length ↔
      webhook ∈ webhooks.repository.values ∧
        webhook.webhookId.map String.toList = some uuidSegment ∧
        (∀ method, chosen = some method → webhook.method = method) ∧
        webhook.pathLength = some length := by
  rw [dynamicCandidates, mem_filter, Bool.and_eq_true, Bool.and_eq_true,
    decide_eq_true_iff, decide_eq_true_iff, and_assoc]
  cases chosen with
  | none => simp
  | some method => simp

/-- A webhook that is stored for the whole path of the request has another
number of segments than the request behind its id. -/
theorem AreCreated.not_isDynamicMatch (created : AreCreated webhooks)
    (found : webhooks.findStaticWebhook method path = some webhook) :
    ¬ webhooks.IsDynamicMatch method path webhook := by
  intro ⟨uuidSegment, otherSegments, split, candidate, _⟩
  obtain ⟨mem, _, samePath⟩ := created.own found
  have length := created.pathLength mem (mem_dynamicCandidates.mp candidate).2.2.2
  rw [samePath, split, length_cons] at length
  omega

theorem containsSegments_of_inPlace
    (inPlace : matchesInPlace (pathSegments webhook.webhookPath) otherSegments =
      true) : ContainsSegments otherSegments webhook := by
  rw [ContainsSegments, WebhookEntity.staticSegments]
  generalize pathSegments webhook.webhookPath = segments at inPlace
  rw [all_eq_true]
  intro segment mem
  obtain ⟨among, isStatic⟩ := mem_filter.mp mem
  rw [Bool.not_eq_true'] at isStatic
  rw [decide_eq_true_iff]
  induction segments generalizing otherSegments with
  | nil => cases among
  | cons first rest ih =>
    cases otherSegments with
    | nil =>
      rw [matchesInPlace, Bool.and_eq_true] at inPlace
      rcases mem_cons.mp among with isFirst | inRest
      · rw [isFirst, inPlace.1] at isStatic
        cases isStatic
      · exact ih inPlace.2 (mem_filter.mpr ⟨inRest, by rw [isStatic]; rfl⟩) inRest
    | cons request others =>
      rw [matchesInPlace, Bool.and_eq_true, Bool.or_eq_true, decide_eq_true_iff] at inPlace
      rcases mem_cons.mp among with isFirst | inRest
      · rw [isFirst] at isStatic ⊢
        rcases inPlace.1 with isDynamic | same
        · rw [isDynamic] at isStatic
          cases isStatic
        · rw [same]
          exact mem_cons_self
      · exact mem_cons_of_mem request (ih inPlace.2
          (mem_filter.mpr ⟨inRest, by rw [isStatic]; rfl⟩) inRest)

/-- The search keeps the first webhook with the most static segments among those
of which the request contains the static segments. -/
theorem foldl_preferWebhook (candidates : List WebhookEntity) :
    IsFirstBest (ContainsSegments otherSegments)
      (fun webhook => webhook.staticSegments.length) candidates
      (candidates.foldl (preferWebhook otherSegments) (none, 0)).1 := by
  suffices general : IsFirstBest (ContainsSegments otherSegments)
          (fun webhook => webhook.staticSegments.length) candidates
          (candidates.foldl (preferWebhook otherSegments) (none, 0)).1 ∧
        (candidates.foldl (preferWebhook otherSegments) (none, 0)).2 =
          ((candidates.foldl (preferWebhook otherSegments) (none, 0)).1.map
            fun webhook => webhook.staticSegments.length).getD 0 from general.1
  induction candidates using List.reverseRecOn with
  | nil => exact ⟨IsFirstBest.nil, rfl⟩
  | append_singleton candidates dynamic ih =>
    rw [foldl_append, foldl_cons, foldl_nil]
    generalize candidates.foldl (preferWebhook otherSegments) (none, 0) = best at ih ⊢
    obtain ⟨isBest, maxMatches⟩ := ih
    rw [preferWebhook]
    split
    next better =>
      obtain ⟨contains, above⟩ := Bool.and_eq_true_iff.mp better
      refine ⟨isBest.take contains ?_, rfl⟩
      intro other same
      rw [maxMatches, same] at above
      exact of_decide_eq_true above
    next notBetter =>
      split
      next edge =>
        obtain ⟨noStatic, noBest⟩ := Bool.and_eq_true_iff.mp edge
        have isNone := of_decide_eq_true noBest
        have isZero := of_decide_eq_true noStatic
        have contains : ContainsSegments otherSegments dynamic := by
          rw [ContainsSegments, length_eq_zero_iff.mp isZero]
          rfl
        refine ⟨isBest.take contains ?_, ?_⟩
        · intro other same
          rw [isNone] at same
          cases same
        · rw [maxMatches, isNone]
          exact isZero.symm
      next noEdge =>
        refine ⟨isBest.keep ?_, maxMatches⟩
        intro contains
        have notAbove : ¬ best.2 < dynamic.staticSegments.length := by
          intro above
          apply notBetter
          rw [Bool.and_eq_true]
          exact ⟨contains, decide_eq_true above⟩
        cases isBestOne : best.1 with
        | some other =>
          rw [maxMatches, isBestOne] at notAbove
          exact ⟨other, rfl, Nat.le_of_not_lt notAbove⟩
        | none =>
          rw [maxMatches, isBestOne] at notAbove
          exfalso
          apply noEdge
          rw [Bool.and_eq_true]
          exact ⟨decide_eq_true (Nat.eq_zero_of_not_pos notAbove), decide_eq_true isBestOne⟩

theorem findWebhook_eq : webhooks.findWebhook method path =
    match webhooks.findStaticWebhook method path with
    | some webhook => some webhook
    | none => webhooks.searchDynamicWebhook path (some method) := rfl

theorem exists_pathSegments (path : String) :
    ∃ uuidSegment otherSegments, pathSegments path = uuidSegment :: otherSegments :=
  exists_cons_of_ne_nil (splitOn_ne_nil _ _)

theorem searchDynamicWebhook_isFirstBest (split : pathSegments path = uuidSegment :: otherSegments)
    (chosen : Option HttpRequestMethod) :
    IsFirstBest (ContainsSegments otherSegments) (fun webhook => webhook.staticSegments.length)
      (webhooks.dynamicCandidates uuidSegment chosen otherSegments.length)
      (webhooks.searchDynamicWebhook path chosen) := by
  rw [searchDynamicWebhook, split]
  exact foldl_preferWebhook _

theorem answers_inPlace_iff (split : pathSegments path = uuidSegment :: otherSegments) :
    ((webhooks.searchDynamicWebhook path (some method)).isSome = true ↔
        ∃ webhook, webhooks.IsDynamicMatch method path webhook) ∧
      (∀ webhook, webhooks.searchDynamicWebhook path (some method) = some webhook →
        webhooks.IsDynamicMatch method path webhook ∧
        ∀ other, webhooks.IsDynamicMatch method path other →
          other.staticSegments.length ≤ webhook.staticSegments.length) ↔
      ∀ webhook, webhooks.searchDynamicWebhook path (some method) = some webhook →
        matchesInPlace (pathSegments webhook.webhookPath) otherSegments =
          true := by
  have isBest := webhooks.searchDynamicWebhook_isFirstBest split (some method)
  have match_iff (webhook : WebhookEntity) : webhooks.IsDynamicMatch method path webhook ↔
        webhook ∈ webhooks.dynamicCandidates uuidSegment (some method) otherSegments.length ∧
          matchesInPlace (pathSegments webhook.webhookPath) otherSegments =
            true := by
    constructor
    · intro ⟨uuid, others, sameSplit, candidate, inPlace⟩
      obtain ⟨sameUuid, sameOthers⟩ := List.cons.inj (split.symm.trans sameSplit)
      rw [sameUuid, sameOthers]
      exact ⟨candidate, inPlace⟩
    · intro ⟨candidate, inPlace⟩
      exact ⟨uuidSegment, otherSegments, split, candidate, inPlace⟩
  generalize webhooks.searchDynamicWebhook path (some method) = found at isBest ⊢
  constructor
  · intro ⟨_, right⟩ webhook isFound
    exact ((match_iff webhook).mp (right webhook isFound).1).2
  · intro inPlace
    constructor
    · constructor
      · intro isSome
        obtain ⟨webhook, isFound⟩ := Option.isSome_iff_exists.mp isSome
        subst isFound
        exact ⟨webhook, (match_iff webhook).mpr ⟨isBest.mem, inPlace webhook rfl⟩⟩
      · intro ⟨webhook, isMatch⟩
        obtain ⟨candidate, isInPlace⟩ := (match_iff webhook).mp isMatch
        cases found with
        | some _ => rfl
        | none =>
          exact absurd (containsSegments_of_inPlace isInPlace) (isBest webhook candidate)
    · intro webhook isFound
      subst isFound
      refine ⟨(match_iff webhook).mpr ⟨isBest.mem, inPlace webhook rfl⟩, ?_⟩
      intro other isMatch
      obtain ⟨candidate, isInPlace⟩ := (match_iff other).mp isMatch
      exact isBest.le candidate (containsSegments_of_inPlace isInPlace)

private def userPosts : List IWebhookData :=
  [{ workflowId := "w"
     node := "n"
     path := "user/posts/:id"
     httpMethod := .get
     webhookId := some "u" }]

section

variable (webhooks : Webhooks)

/-- The methods that are listed for a path are those with which a webhook is
found. -/
def ListsRoutableMethods (path : String) : Prop :=
  ∀ method, method ∈ webhooks.getWebhookMethods path ↔
    (webhooks.findWebhook method path).isSome = true

/-- The search for dynamic webhooks takes the webhook for one of the path. -/
def IsTaken (path : String) (webhook : WebhookEntity) : Prop :=
  ∃ uuidSegment otherSegments, pathSegments path = uuidSegment :: otherSegments ∧
    webhook ∈ webhooks.dynamicCandidates uuidSegment none otherSegments.length ∧
    ContainsSegments otherSegments webhook

/-- A dynamic webhook for a path that is also stored as it is has a method for
which it is; otherwise all dynamic webhooks for the path have one method. -/
def MethodsAgree (path : String) : Prop :=
  ∀ webhook, webhooks.IsTaken path webhook →
    ((∃ stored ∈ webhooks.repository.values, stored.webhookPath = path) →
      ∃ stored ∈ webhooks.repository.values, stored.webhookPath = path ∧
        stored.method = webhook.method) ∧
    ((∀ stored ∈ webhooks.repository.values, stored.webhookPath ≠ path) →
      ∀ other, webhooks.IsTaken path other → other.method = webhook.method)

end

theorem isTaken_of_search (found : webhooks.searchDynamicWebhook path chosen = some webhook) :
    webhooks.IsTaken path webhook ∧ ∀ method, chosen = some method → webhook.method = method := by
  obtain ⟨uuidSegment, otherSegments, split⟩ := exists_pathSegments path
  have isBest := webhooks.searchDynamicWebhook_isFirstBest split chosen
  rw [found] at isBest
  obtain ⟨mem, sameId, sameMethod, sameLength⟩ := mem_dynamicCandidates.mp isBest.mem
  refine ⟨⟨uuidSegment, otherSegments, split, ?_, isBest.admissible_best⟩, sameMethod⟩
  apply mem_dynamicCandidates.mpr
  refine ⟨mem, sameId, ?_, sameLength⟩
  intro _ impossible
  cases impossible

theorem isSome_searchDynamicWebhook : (webhooks.searchDynamicWebhook path chosen).isSome = true ↔
      ∃ webhook, webhooks.IsTaken path webhook ∧
        ∀ method, chosen = some method → webhook.method = method := by
  constructor
  · intro isSome
    obtain ⟨webhook, isFound⟩ := Option.isSome_iff_exists.mp isSome
    exact ⟨webhook, isTaken_of_search isFound⟩
  · intro ⟨webhook, ⟨uuidSegment, otherSegments, split, candidate, contains⟩, sameMethod⟩
    have isBest := webhooks.searchDynamicWebhook_isFirstBest split chosen
    obtain ⟨mem, sameId, _, sameLength⟩ := mem_dynamicCandidates.mp candidate
    cases found : webhooks.searchDynamicWebhook path chosen with
    | some _ => rfl
    | none =>
      rw [found] at isBest
      exact absurd contains (isBest webhook (mem_dynamicCandidates.mpr
        ⟨mem, sameId, sameMethod, sameLength⟩))

theorem AreCreated.isSome_findWebhook (created : AreCreated webhooks) :
    (webhooks.findWebhook method path).isSome = true ↔
      (∃ stored ∈ webhooks.repository.values, stored.webhookPath = path ∧ stored.method = method) ∨
      ∃ webhook, webhooks.IsTaken path webhook ∧ webhook.method = method := by
  rw [findWebhook_eq]
  cases isStored : webhooks.findStaticWebhook method path with
  | some webhook =>
    obtain ⟨mem, sameMethod, samePath⟩ := created.own isStored
    constructor
    · exact fun _ => .inl ⟨webhook, mem, samePath, sameMethod⟩
    · exact fun _ => rfl
  | none =>
    have notStored := created.pathIsNotStored_iff.mpr isStored
    rw [isSome_searchDynamicWebhook]
    constructor
    · intro ⟨webhook, taken, sameMethod⟩
      exact .inr ⟨webhook, taken, sameMethod method rfl⟩
    · intro found
      rcases found with ⟨stored, mem, samePath, sameMethod⟩ | ⟨webhook, taken, sameMethod⟩
      · exact absurd sameMethod (notStored stored mem samePath)
      · exact ⟨webhook, taken, fun _ same => Option.some.inj same ▸ sameMethod⟩

theorem getWebhookMethods_stored {stored : WebhookEntity}
    (mem : stored ∈ webhooks.repository.values)
    (samePath : stored.webhookPath = path) :
    method ∈ webhooks.getWebhookMethods path ↔
      ∃ stored ∈ webhooks.repository.values, stored.webhookPath = path ∧
        stored.method = method := by
  have listed (method : HttpRequestMethod) :
      method ∈ (webhooks.repository.values.filter fun webhook =>
        webhook.webhookPath = path).map WebhookEntity.method ↔
      ∃ stored ∈ webhooks.repository.values, stored.webhookPath = path ∧
        stored.method = method := by
    simp only [mem_map, mem_filter, decide_eq_true_eq, and_assoc]
  have some := length_pos_of_mem ((listed stored.method).mpr ⟨stored, mem, samePath, rfl⟩)
  rw [getWebhookMethods]
  simp only [if_pos some]
  exact listed method

theorem getWebhookMethods_notStored
    (notStored : ∀ stored ∈ webhooks.repository.values, stored.webhookPath ≠ path) :
    webhooks.getWebhookMethods path =
      match webhooks.searchDynamicWebhook path none with
      | some webhook => [webhook.method]
      | none => [] := by
  have nothing : webhooks.repository.values.filter (fun webhook =>
      webhook.webhookPath = path) = [] := by
    rw [filter_eq_nil_iff]
    intro stored mem samePath
    exact notStored stored mem (of_decide_eq_true samePath)
  rw [getWebhookMethods, nothing]
  rfl

end Webhooks

end N8n
