import Mathlib.Data.List.TakeWhile
import N8n.Library.Machine
import N8n.Library.OrderedMap
import N8n.Library.TextSearch

/-!
# The messages of a chat stream

Chunks of several nodes, runs and items come interleaved.  The aggregator opens
a message at the first chunk of a key that has none open, collects the texts of
its items, and closes it at an end or an error.  `finalizeAll` goes through a
map that nothing is ever put into, so messages which are still open then stay
so.
-/

namespace N8n

open List

inductive ChunkType where
  | begin
  | item
  | «end»
  | error
deriving DecidableEq

/-- The parts of the metadata that the key is made of. -/
structure ChunkMetadata where
  nodeId : String
  runIndex : Nat
  itemIndex : Nat
deriving DecidableEq

structure StructuredChunk where
  type : ChunkType
  content : Option String := none
  metadata : ChunkMetadata

inductive ChatHubMessageStatus where
  | success
  | error
  | running
  | cancelled
deriving DecidableEq

structure AggregatedMessage where
  id : String
  previousMessageId : String
  retryOfMessageId : Option String
  content : String := ""
  status : ChatHubMessageStatus := .running

def keyOf (metadata : ChunkMetadata) : String :=
  metadata.nodeId ++ "|" ++ toString metadata.runIndex ++ "|" ++ toString metadata.itemIndex

/-- `messages` are those handed to `onBegin`; the two maps refer to them by
their position. -/
structure ChunkAggregator where
  initialPreviousMessageId : String
  retryOfMessageId : Option String
  previousMessageId : String
  messages : List AggregatedMessage := []
  active : OrderedMap String Nat := .empty
  activeByKey : OrderedMap String Nat := .empty

def createStructuredChunkAggregator (initialPreviousMessageId : String)
    (retryOfMessageId : Option String) : ChunkAggregator :=
  { initialPreviousMessageId
    retryOfMessageId
    previousMessageId := initialPreviousMessageId }

namespace ChunkAggregator

section

variable (uuidv4 : Nat → String)

section

variable (aggregator : ChunkAggregator)

/-- The n-th message gets the n-th identifier that is drawn. -/
def startNew : Nat × ChunkAggregator :=
  let index := aggregator.messages.length
  let message :=
    { id := uuidv4 index
      previousMessageId := aggregator.previousMessageId
      retryOfMessageId := aggregator.retryOfMessageId.filter fun retry =>
        retry ≠ "" && aggregator.previousMessageId = aggregator.initialPreviousMessageId }
  (index, { aggregator with
      previousMessageId := message.id
      messages := aggregator.messages ++ [message] })

def ensureMessage (key : String) : Nat × ChunkAggregator :=
  match aggregator.activeByKey.get? key with
  | some message => (message, aggregator)
  | none =>
    let (message, started) := aggregator.startNew uuidv4
    (message, { started with
      activeByKey := started.activeByKey.set key message })

def update (message : Nat) (change : AggregatedMessage → AggregatedMessage) : ChunkAggregator :=
  { aggregator with messages := aggregator.messages.modify message change }

/-- The error text follows what was generated so far. -/
def addErrorText (content : String) : Option String → String
  | none => content
  | some text => (if content ≠ "" then content ++ "\n\n" else "") ++ text

def ingest (chunk : StructuredChunk) : Except String (Nat × ChunkAggregator) :=
  let key := keyOf chunk.metadata
  match chunk.type with
  | .begin =>
    if aggregator.activeByKey.has key then
      .error ("Duplicate begin for key " ++ key)
    else
      let (message, started) := aggregator.startNew uuidv4
      .ok (message, { started with
        activeByKey := started.activeByKey.set key message })
  | .item =>
    let (message, ensured) := aggregator.ensureMessage uuidv4 key
    match chunk.content with
    | none => .ok (message, ensured)
    | some content =>
      .ok (message, if content.length ≠ 0 then
        ensured.update message fun found =>
          { found with content := found.content ++ content }
      else ensured)
  | .«end» =>
    let (message, ensured) := aggregator.ensureMessage uuidv4 key
    let ended := ensured.update message fun found =>
      { found with status := .success }
    .ok (message, { ended with
      activeByKey := ended.activeByKey.delete key })
  | .error =>
    let (message, ensured) := aggregator.ensureMessage uuidv4 key
    let failed := ensured.update message fun found =>
      { found with
        status := .error
        content := addErrorText found.content chunk.content }
    .ok (message, { failed with
      activeByKey := failed.activeByKey.delete key })

def finalizeAll : ChunkAggregator :=
  let cancelled := aggregator.active.values.foldl (fun current message =>
    current.update message fun found => { found with status := .cancelled })
    aggregator
  { cancelled with active := .empty }

end

def step : Machine ChunkAggregator StructuredChunk :=
  fun aggregator chunk =>
    (aggregator.ingest uuidv4 chunk).toOption.map Prod.snd

end

end ChunkAggregator

namespace StructuredChunk

/-- The message of a chunk stays open behind it. -/
def leavesOpen (chunk : StructuredChunk) : Bool :=
  match chunk.type with
  | .begin => true
  | .item => true
  | .«end» => false
  | .error => false

def isOpen (key : ChunkMetadata) (chunks : List StructuredChunk) : Bool :=
  chunks.foldl (fun before chunk =>
    if chunk.metadata = key then chunk.leavesOpen else before) false

/-- The chunks from the beginning of each message on. -/
def beginnings (earlier : List StructuredChunk) : List StructuredChunk → List (List StructuredChunk)
  | [] => []
  | chunk :: later =>
    let rest := beginnings (earlier ++ [chunk]) later
    if isOpen chunk.metadata earlier then rest
    else (chunk :: later) :: rest

/-- The chunks for the key of the first one. -/
def ownChunks : List StructuredChunk → List StructuredChunk
  | [] => []
  | first :: later =>
    (first :: later).filter fun chunk => chunk.metadata = first.metadata

def itemText (chunk : StructuredChunk) : String :=
  if chunk.type = .item then chunk.content.getD "" else ""

section

variable (chunks : List StructuredChunk)

/-- The chunk that ends the message which the first chunk began. -/
def closing? : Option StructuredChunk :=
  (ownChunks chunks).find? fun chunk => !chunk.leavesOpen

/-- The item contents for the key while the message is open, one after the
other, and the error text if it failed. -/
def messageContent : String :=
  let items := String.join (((ownChunks chunks).takeWhile leavesOpen).map itemText)
  match closing? chunks with
  | none => items
  | some chunk =>
    if chunk.type = .error then
      ChunkAggregator.addErrorText items chunk.content
    else items

/-- The status before `finalizeAll`. -/
def messageStatus : ChatHubMessageStatus :=
  match closing? chunks with
  | none => .running
  | some chunk => if chunk.type = .error then .error else .success

def summary : String × ChatHubMessageStatus :=
  (messageContent chunks, messageStatus chunks)

end

end StructuredChunk

/-- Each message follows the one before it. -/
def Linked (previous : String) : List AggregatedMessage → Prop
  | [] => True
  | message :: later =>
    message.previousMessageId = previous ∧ Linked message.id later

/-- What is promised of the messages of a stream. -/
structure EveryMessageEnds (initialPreviousMessageId : String)
    (retryOfMessageId : Option String) (chunks : List StructuredChunk)
    (messages : List AggregatedMessage) : Prop where
  linked : Linked initialPreviousMessageId messages
  distinct : (initialPreviousMessageId :: messages.map (·.id)).Nodup
  retry : ∀ index message, messages[index]? = some message → message.retryOfMessageId =
      if index = 0 then retryOfMessageId.filter (· ≠ "") else none
  content : messages.map (·.content) =
    (StructuredChunk.beginnings [] chunks).map StructuredChunk.messageContent
  ended : ∀ message ∈ messages, message.status ≠ .running

theorem toString_injective {left right : Nat}
    (same : (toString left).toList = (toString right).toList) :
    left = right := by
  simp only [Nat.toString_eq_repr, Nat.toList_repr] at same
  rw [← Nat.ofDigitChars_ten_toDigits (n := left), same, Nat.ofDigitChars_ten_toDigits]

theorem not_mem_toString (number : Nat) : '|' ∉ (toString number).toList := by
  simp only [Nat.toString_eq_repr, Nat.toList_repr]
  intro mem
  have digit := Nat.isDigit_of_mem_toDigits (by decide) (by decide) mem
  exact absurd digit (by decide)

/-- Neither number has a separator in it, so the two last separators end the
identifier of the node. -/
theorem keyOf_injective : Function.Injective keyOf := by
  intro left right same
  have split (metadata : ChunkMetadata) : (keyOf metadata).toList =
      (metadata.nodeId.toList ++ '|' :: (toString metadata.runIndex).toList) ++
        '|' :: (toString metadata.itemIndex).toList := by
    simp [keyOf]
  have chars := congrArg String.toList same
  rw [split, split] at chars
  obtain ⟨front, items⟩ := TextSearch.append_cons_inj_of_last
    (not_mem_toString _) (not_mem_toString _) chars
  obtain ⟨nodes, runs⟩ := TextSearch.append_cons_inj_of_last
    (not_mem_toString _) (not_mem_toString _) front
  cases left
  cases right
  cases String.toList_inj.mp nodes
  cases toString_injective runs
  cases toString_injective items
  rfl

namespace StructuredChunk

variable {key : ChunkMetadata} {chunk : StructuredChunk}
  {chunks earlier suffix : List StructuredChunk}

theorem isOpen_snoc : isOpen key (chunks ++ [chunk]) =
    if chunk.metadata = key then chunk.leavesOpen else isOpen key chunks := by
  simp [isOpen]

theorem beginnings_snoc : beginnings earlier (chunks ++ [chunk]) =
      (beginnings earlier chunks).map (· ++ [chunk]) ++
        if isOpen chunk.metadata (earlier ++ chunks) then [] else [[chunk]] := by
  induction chunks generalizing earlier with
  | nil => simp [beginnings]
  | cons first chunks ih =>
    by_cases opened : isOpen first.metadata earlier
    · simp [beginnings, opened, ih]
    · simp [beginnings, opened, ih]

theorem ne_nil_of_mem_beginnings (mem : suffix ∈ beginnings earlier chunks) : suffix ≠ [] := by
  induction chunks generalizing earlier with
  | nil => simp [beginnings] at mem
  | cons first chunks ih =>
    by_cases opened : isOpen first.metadata earlier
    · rw [beginnings, if_pos opened] at mem
      exact ih mem
    · rw [beginnings, if_neg opened] at mem
      rcases mem_cons.mp mem with rfl | later
      · exact cons_ne_nil _ _
      · exact ih later

/-- The message that begins with these chunks is one of the key and not
closed. -/
def OpenFor (key : ChunkMetadata) (suffix : List StructuredChunk) : Prop :=
  suffix.head?.map metadata = some key ∧ closing? suffix = none

theorem ownChunks_snoc (nonempty : suffix ≠ []) :
    ownChunks (suffix ++ [chunk]) = ownChunks suffix ++
      if suffix.head?.map metadata = some chunk.metadata then [chunk]
      else [] := by
  cases suffix with
  | nil => exact absurd rfl nonempty
  | cons first later =>
    by_cases same : chunk.metadata = first.metadata
    · simp [ownChunks, same]
    · simp [ownChunks, same, Ne.symm same]

theorem closing?_snoc (nonempty : suffix ≠ []) : closing? (suffix ++ [chunk]) = (closing? suffix).or
      (if suffix.head?.map metadata = some chunk.metadata ∧
          chunk.leavesOpen = false then some chunk else none) := by
  rw [closing?, ownChunks_snoc nonempty, find?_append, ← closing?]
  by_cases same : suffix.head?.map metadata = some chunk.metadata
  · by_cases opened : chunk.leavesOpen <;> simp [same, opened]
  · simp [same]

theorem openFor_snoc (nonempty : suffix ≠ []) : OpenFor key (suffix ++ [chunk]) ↔
      OpenFor key suffix ∧ (chunk.metadata = key → chunk.leavesOpen = true) := by
  have first : (suffix ++ [chunk]).head? = suffix.head? := head?_append_of_ne_nil _ nonempty
  rw [OpenFor, OpenFor, closing?_snoc nonempty, first, Option.or_eq_none_iff, and_assoc]
  apply and_congr_right
  intro own
  apply and_congr_right
  intro _
  rw [own]
  by_cases opened : chunk.leavesOpen
  · simp [opened]
  · simp [opened, eq_comm]

theorem openFor_singleton : OpenFor key [chunk] ↔
    chunk.metadata = key ∧ chunk.leavesOpen = true := by
  simp [OpenFor, closing?, ownChunks]

theorem messageStatus_eq_running : messageStatus suffix = .running ↔ closing? suffix = none := by
  rw [messageStatus]
  cases closing? suffix with
  | none => simp
  | some chunk => by_cases failed : chunk.type = .error <;> simp [failed]

/-- What a chunk does to the message of its key. -/
def receive (chunk : StructuredChunk) (message : String × ChatHubMessageStatus) :
    String × ChatHubMessageStatus :=
  match chunk.type with
  | .begin => message
  | .item => (message.1 ++ chunk.itemText, message.2)
  | .«end» => (message.1, .success)
  | .error => (ChunkAggregator.addErrorText message.1 chunk.content, .error)

theorem takeWhile_of_unclosed (unclosed : closing? suffix = none) :
    (ownChunks suffix).takeWhile leavesOpen = ownChunks suffix := by
  rw [closing?, find?_eq_none] at unclosed
  exact takeWhile_eq_self_iff.mpr fun chunk mem => by
    simpa using unclosed chunk mem

theorem summary_snoc_of_other (nonempty : suffix ≠ []) (other : ¬ OpenFor chunk.metadata suffix) :
    summary (suffix ++ [chunk]) = summary suffix := by
  by_cases own : suffix.head?.map metadata = some chunk.metadata
  · cases closed : closing? suffix with
    | none => exact absurd ⟨own, closed⟩ other
    | some closing =>
      have opened : ((ownChunks suffix).takeWhile leavesOpen).length ≠
          (ownChunks suffix).length := by
        intro same
        have all := takeWhile_eq_self_iff.mp <| takeWhile_prefix _ |>.eq_of_length same
        have found := find?_some closed
        have opened := all closing (mem_of_find?_eq_some closed)
        simp [opened] at found
      simp only [summary, messageContent, messageStatus,
        closing?_snoc nonempty, closed, Option.some_or,
        ownChunks_snoc nonempty, takeWhile_append, if_neg opened]
  · simp only [summary, messageContent, messageStatus,
      closing?_snoc nonempty, ownChunks_snoc nonempty,
      append_nil, own, false_and, if_false, Option.or_none]

theorem summary_snoc_of_own (own : OpenFor chunk.metadata suffix) :
    summary (suffix ++ [chunk]) = chunk.receive (summary suffix) := by
  have nonempty : suffix ≠ [] := by
    rintro rfl
    simp [OpenFor] at own
  obtain ⟨first, unclosed⟩ := own
  have all := takeWhile_of_unclosed unclosed
  simp only [summary, messageContent, messageStatus, closing?_snoc nonempty,
    unclosed, Option.none_or, ownChunks_snoc nonempty, first,
    takeWhile_append, true_and, all]
  cases kind : chunk.type with
  | begin | item => simp [leavesOpen, receive, itemText, kind]
  | «end» | error => simp [leavesOpen, receive, kind]

theorem summary_singleton : summary [chunk] = chunk.receive ("", .running) := by
  cases kind : chunk.type with
  | begin | item => simp [summary, messageContent, messageStatus, closing?, ownChunks,
      leavesOpen, receive, itemText, kind]
  | «end» | error => simp [summary, messageContent, messageStatus, closing?, ownChunks,
      leavesOpen, receive, kind]

end StructuredChunk

theorem map_modify {α β : Type*} {change : α → α} {map : α → β}
    {other : β → β} (commutes : ∀ item, map (change item) = other (map item))
    (items : List α) (index : Nat) :
    (items.modify index change).map map = (items.map map).modify index other := by
  induction items generalizing index with
  | nil => simp
  | cons item items ih =>
    cases index with
    | zero => simp [commutes]
    | succ index => simp [ih]

theorem modify_snoc {α : Type*} (change : α → α) (items : List α) (item : α) :
    (items ++ [item]).modify items.length change = items ++ [change item] := by
  induction items with
  | nil => rfl
  | cons first items ih => simp [ih]

theorem exists_getElem?_snoc {α : Type*} {holds : α → Prop} {items : List α}
    {item : α} {index : Nat} :
    (∃ found, (items ++ [item])[index]? = some found ∧ holds found) ↔
      (∃ found, items[index]? = some found ∧ holds found) ∨
        (index = items.length ∧ holds item) := by
  rcases Nat.lt_trichotomy index items.length with before | rfl | behind
  · rw [getElem?_append_left before]
    simp [Nat.ne_of_lt before]
  · simp
  · rw [getElem?_eq_none (by simpa using Nat.succ_le_of_lt behind),
      getElem?_eq_none (Nat.le_of_lt behind)]
    simp [Nat.ne_of_gt behind]

namespace ChunkAggregator

open StructuredChunk

variable {uuidv4 : Nat → String} {aggregator ensured next : ChunkAggregator}
  {chunk : StructuredChunk} {chunks : List StructuredChunk} {message : Nat}

def summaries (aggregator : ChunkAggregator) : List (String × ChatHubMessageStatus) :=
  aggregator.messages.map fun message => (message.content, message.status)

def links (aggregator : ChunkAggregator) : List (String × String × Option String) :=
  aggregator.messages.map fun message =>
    (message.id, message.previousMessageId, message.retryOfMessageId)

/-- The identifier of the message before the one with this number. -/
def previousAt (uuidv4 : Nat → String) (initialPreviousMessageId : String) : Nat → String
  | 0 => initialPreviousMessageId
  | index + 1 => uuidv4 index

def retryAt (retryOfMessageId : Option String) (index : Nat) : Option String :=
  if index = 0 then retryOfMessageId.filter (· ≠ "") else none

def linkAt (uuidv4 : Nat → String) (initialPreviousMessageId : String)
    (retryOfMessageId : Option String) (index : Nat) :
    String × String × Option String :=
  (uuidv4 index, previousAt uuidv4 initialPreviousMessageId index, retryAt retryOfMessageId index)

/-- What a chunk changes once its message is there. -/
structure Receives (chunk : StructuredChunk) (message : Nat)
    (ensured next : ChunkAggregator) : Prop where
  links : next.links = ensured.links
  summaries : next.summaries = ensured.summaries.modify message chunk.receive
  activeByKey : next.activeByKey = if chunk.leavesOpen then ensured.activeByKey
    else ensured.activeByKey.delete (keyOf chunk.metadata)
  previousMessageId : next.previousMessageId = ensured.previousMessageId
  initialPreviousMessageId :
    next.initialPreviousMessageId = ensured.initialPreviousMessageId
  retryOfMessageId : next.retryOfMessageId = ensured.retryOfMessageId
  active : next.active = ensured.active

variable {change : AggregatedMessage → AggregatedMessage}

theorem links_update (ensured : ChunkAggregator) (same : ∀ found : AggregatedMessage,
      ((change found).id, (change found).previousMessageId, (change found).retryOfMessageId) =
        (found.id, found.previousMessageId, found.retryOfMessageId)) :
    (ensured.update message change).links = ensured.links := by
  have modified : (ensured.update message change).links =
      ensured.links.modify message id := map_modify same _ _
  rw [modified, modify_id]

theorem summaries_update (ensured : ChunkAggregator) (same : ∀ found : AggregatedMessage,
      ((change found).content, (change found).status) =
        chunk.receive (found.content, found.status)) :
    (ensured.update message change).summaries = ensured.summaries.modify message chunk.receive :=
  map_modify same _ _

theorem receives_of_same (same : chunk.receive = id) (opened : chunk.leavesOpen = true) :
    Receives chunk message ensured ensured := by
  constructor <;> simp [same, opened]

theorem ensureMessage_of_absent {key : String} (absent : aggregator.activeByKey.has key = false) :
    aggregator.ensureMessage uuidv4 key = (aggregator.messages.length,
        { (aggregator.startNew uuidv4).2 with
          activeByKey := aggregator.activeByKey.set key aggregator.messages.length }) := by
  have missing : aggregator.activeByKey.get? key = none := by
    simpa [OrderedMap.has] using absent
  simp [ensureMessage, missing, startNew]

theorem ingest_receives (accepted : aggregator.ingest uuidv4 chunk = .ok (message, next)) :
    ∃ ensured, aggregator.ensureMessage uuidv4 (keyOf chunk.metadata) =
        (message, ensured) ∧ Receives chunk message ensured next := by
  cases found : aggregator.ensureMessage uuidv4 (keyOf chunk.metadata) with
  | mk index ensured =>
    unfold ingest at accepted
    cases kind : chunk.type with
    | begin =>
      simp only [kind] at accepted
      by_cases present : aggregator.activeByKey.has (keyOf chunk.metadata)
      · simp [present] at accepted
      · rw [ensureMessage_of_absent (by simpa using present)] at found
        rw [if_neg present] at accepted
        cases found.symm.trans (Except.ok.inj accepted)
        refine ⟨_, rfl, receives_of_same ?_ ?_⟩
        · funext found
          simp [receive, kind]
        · simp [leavesOpen, kind]
    | item =>
      simp only [kind, found] at accepted
      have opened : chunk.leavesOpen = true := by simp [leavesOpen, kind]
      by_cases silent : chunk.itemText = ""
      · have same : ensured = next ∧ index = message := by
          cases text : chunk.content with
          | none =>
            simp only [text] at accepted
            cases accepted
            exact ⟨rfl, rfl⟩
          | some content =>
            have empty : content = "" := by
              simpa [itemText, kind, text] using silent
            simp only [text, empty] at accepted
            cases accepted
            exact ⟨rfl, rfl⟩
        obtain ⟨rfl, rfl⟩ := same
        refine ⟨_, rfl, receives_of_same ?_ opened⟩
        funext found
        simp [receive, kind, silent]
      · cases text : chunk.content with
        | none => simp [itemText, kind, text] at silent
        | some content =>
          have spoken : content.length ≠ 0 := by
            simpa [itemText, kind, text] using silent
          simp only [text, if_pos spoken] at accepted
          cases accepted
          refine ⟨_, rfl, ?_⟩
          constructor
          · exact links_update ensured fun _ => rfl
          · apply summaries_update ensured
            simp [receive, kind, itemText, text]
          · simp [opened, update]
          all_goals rfl
    | «end» | error =>
      simp only [kind, found] at accepted
      cases accepted
      refine ⟨_, rfl, ?_⟩
      constructor
      · exact links_update ensured fun _ => rfl
      · apply summaries_update ensured
        simp [receive, kind]
      · simp [leavesOpen, kind, update]
      all_goals rfl

/-- The identifiers, predecessors and retries of the messages. -/
structure Chained (uuidv4 : Nat → String) (initialPreviousMessageId : String)
    (retryOfMessageId : Option String) (aggregator : ChunkAggregator) :
    Prop where
  initial : aggregator.initialPreviousMessageId = initialPreviousMessageId
  retry : aggregator.retryOfMessageId = retryOfMessageId
  inactive : aggregator.active = .empty
  previous : aggregator.previousMessageId =
    previousAt uuidv4 initialPreviousMessageId aggregator.messages.length
  links : aggregator.links = (List.range aggregator.messages.length).map
    (linkAt uuidv4 initialPreviousMessageId retryOfMessageId)

variable {initialPreviousMessageId : String} {retryOfMessageId : Option String}

/-- The identifiers that are drawn are all different and none is known. -/
structure FreshIds (uuidv4 : Nat → String) (known : String) : Prop where
  injective : Function.Injective uuidv4
  unknown : ∀ index, uuidv4 index ≠ known

theorem create_chained : Chained uuidv4 initialPreviousMessageId
    retryOfMessageId (createStructuredChunkAggregator initialPreviousMessageId
      retryOfMessageId) := by
  constructor <;> rfl

theorem retryAt_eq (retryOfMessageId : Option String)
    (fresh : FreshIds uuidv4 initialPreviousMessageId) (index : Nat) :
    (retryOfMessageId.filter fun retry => retry ≠ "" &&
        previousAt uuidv4 initialPreviousMessageId index =
          initialPreviousMessageId) = retryAt retryOfMessageId index := by
  cases index with
  | zero => simp [retryAt, previousAt]
  | succ index =>
    simp [retryAt, previousAt, fresh.unknown index]

theorem Chained.ensureMessage (fresh : FreshIds uuidv4 initialPreviousMessageId)
    (chained : Chained uuidv4 initialPreviousMessageId retryOfMessageId aggregator) {key : String}
    (found : aggregator.ensureMessage uuidv4 key = (message, ensured)) :
    Chained uuidv4 initialPreviousMessageId retryOfMessageId ensured := by
  cases present : aggregator.activeByKey.has key with
  | true =>
    obtain ⟨index, stored⟩ := Option.isSome_iff_exists.mp present
    simp only [ChunkAggregator.ensureMessage, stored] at found
    cases found
    exact chained
  | false =>
    rw [ensureMessage_of_absent present] at found
    cases found
    constructor
    · exact chained.initial
    · exact chained.retry
    · exact chained.inactive
    · simp [startNew, previousAt]
    · have retry := retryAt_eq retryOfMessageId fresh aggregator.messages.length
      have before := chained.links
      rw [ChunkAggregator.links] at before
      simp only [startNew, ChunkAggregator.links, map_append, before,
        length_append, length_singleton, range_succ,
        map_singleton, linkAt, chained.previous, chained.initial,
        chained.retry, retry]

theorem Chained.receives (chained : Chained uuidv4 initialPreviousMessageId
      retryOfMessageId ensured)
    (receives : Receives chunk message ensured next) :
    Chained uuidv4 initialPreviousMessageId retryOfMessageId next := by
  have length : next.messages.length = ensured.messages.length := by
    have links := congrArg List.length receives.links
    simpa [ChunkAggregator.links] using links
  constructor
  · exact receives.initialPreviousMessageId.trans chained.initial
  · exact receives.retryOfMessageId.trans chained.retry
  · exact receives.active.trans chained.inactive
  · rw [receives.previousMessageId, chained.previous, length]
  · rw [receives.links, chained.links, length]

/-- The messages so far, and which of them are open. -/
structure Describes (chunks : List StructuredChunk)
    (aggregator : ChunkAggregator) : Prop where
  summaries : aggregator.summaries = (beginnings [] chunks).map summary
  keyed : ∀ key index, aggregator.activeByKey.get? (keyOf key) = some index ↔
    ∃ suffix, (beginnings [] chunks)[index]? = some suffix ∧ OpenFor key suffix
  opened : ∀ key, (aggregator.activeByKey.get? (keyOf key)).isSome = isOpen key chunks

theorem create_describes : Describes [] (createStructuredChunkAggregator
    initialPreviousMessageId retryOfMessageId) := by
  constructor
  · rfl
  · simp [createStructuredChunkAggregator, beginnings]
  · simp [createStructuredChunkAggregator, isOpen]

theorem Describes.length (describes : Describes chunks aggregator) :
    aggregator.messages.length = (beginnings [] chunks).length := by
  have length := congrArg List.length describes.summaries
  simpa [ChunkAggregator.summaries] using length

theorem get?_receives (receives : Receives chunk message ensured next) (key : ChunkMetadata) :
    next.activeByKey.get? (keyOf key) =
      if chunk.metadata = key → chunk.leavesOpen = true then
        ensured.activeByKey.get? (keyOf key)
      else none := by
  rw [receives.activeByKey]
  by_cases opened : chunk.leavesOpen
  · simp [opened]
  · by_cases same : chunk.metadata = key
    · simp [opened, same, OrderedMap.get?_delete]
    · have ne : keyOf chunk.metadata ≠ keyOf key := keyOf_injective.ne same
      simp [opened, same, OrderedMap.get?_delete, ne]

theorem exists_openFor_snoc {key : ChunkMetadata} {index : Nat} :
    (∃ suffix, ((beginnings [] chunks).map (· ++ [chunk]))[index]? =
        some suffix ∧ OpenFor key suffix) ↔
      (∃ suffix, (beginnings [] chunks)[index]? = some suffix ∧ OpenFor key suffix) ∧
      (chunk.metadata = key → chunk.leavesOpen = true) := by
  rw [List.getElem?_map]
  cases found : (beginnings [] chunks)[index]? with
  | none => simp
  | some suffix =>
    have nonempty := ne_nil_of_mem_beginnings (mem_of_getElem? found)
    simp [openFor_snoc nonempty]

theorem Describes.receives_open (describes : Describes chunks aggregator)
    (stored : aggregator.activeByKey.get? (keyOf chunk.metadata) = some message)
    (receives : Receives chunk message aggregator next) :
    Describes (chunks ++ [chunk]) next := by
  have isOpened : isOpen chunk.metadata chunks = true := by
    rw [← describes.opened, stored]
    rfl
  have later : beginnings [] (chunks ++ [chunk]) = (beginnings [] chunks).map (· ++ [chunk]) := by
    rw [beginnings_snoc, nil_append, if_pos isOpened, append_nil]
  constructor
  · rw [receives.summaries, describes.summaries, later]
    apply ext_getElem?
    intro index
    rw [getElem?_modify, map_map, List.getElem?_map, List.getElem?_map]
    cases found : (beginnings [] chunks)[index]? with
    | none => rfl
    | some suffix =>
      have nonempty := ne_nil_of_mem_beginnings (mem_of_getElem? found)
      by_cases same : message = index
      · subst same
        obtain ⟨other, otherFound, own⟩ := (describes.keyed _ _).mp stored
        cases found.symm.trans otherFound
        simp [summary_snoc_of_own own]
      · have other : ¬ OpenFor chunk.metadata suffix := by
          intro own
          have again := (describes.keyed _ _).mpr ⟨suffix, found, own⟩
          exact same (Option.some.inj (stored.symm.trans again))
        simp [same, summary_snoc_of_other nonempty other]
  · intro key index
    rw [get?_receives receives, later, exists_openFor_snoc,
      ← describes.keyed, Option.ite_none_right_eq_some, and_comm]
  · intro key
    rw [get?_receives receives, isOpen_snoc, ← describes.opened]
    by_cases same : chunk.metadata = key
    · subst same
      by_cases opened : chunk.leavesOpen <;> simp [opened, stored]
    · simp [same]

theorem Describes.receives_new (describes : Describes chunks aggregator)
    (absent : aggregator.activeByKey.has (keyOf chunk.metadata) = false)
    (found : aggregator.ensureMessage uuidv4 (keyOf chunk.metadata) = (message, ensured))
    (receives : Receives chunk message ensured next) :
    Describes (chunks ++ [chunk]) next := by
  rw [ensureMessage_of_absent absent] at found
  obtain ⟨rfl, rfl⟩ := Prod.mk.inj found
  have missing : aggregator.activeByKey.get? (keyOf chunk.metadata) = none := by
    simpa [OrderedMap.has] using absent
  have isClosed : isOpen chunk.metadata chunks = false := by
    rw [← describes.opened, missing]
    rfl
  have later : beginnings [] (chunks ++ [chunk]) =
      (beginnings [] chunks).map (· ++ [chunk]) ++ [[chunk]] := by
    rw [beginnings_snoc, nil_append, isClosed]
    rfl
  have kept : ((beginnings [] chunks).map (· ++ [chunk])).map summary =
      (beginnings [] chunks).map summary := by
    rw [map_map]
    apply map_congr_left
    intro suffix mem
    apply summary_snoc_of_other (ne_nil_of_mem_beginnings mem)
    intro own
    obtain ⟨index, inside⟩ := mem_iff_getElem?.mp mem
    have stored := (describes.keyed _ index).mpr ⟨suffix, inside, own⟩
    rw [missing] at stored
    cases stored
  constructor
  · have before := describes.summaries
    rw [ChunkAggregator.summaries] at before
    have length : aggregator.messages.length = ((beginnings [] chunks).map summary).length := by
      rw [describes.length, length_map]
    rw [receives.summaries, later, map_append, kept, map_singleton,
      summary_singleton, ChunkAggregator.summaries]
    simp only [startNew, map_append, before, map_singleton]
    rw [length, modify_snoc]
  · intro key index
    rw [get?_receives receives, later, Option.ite_none_right_eq_some,
      OrderedMap.get?_set, exists_getElem?_snoc, exists_openFor_snoc,
      ← describes.keyed, openFor_singleton, length_map,
      ← describes.length]
    by_cases same : chunk.metadata = key
    · subst same
      simp [missing, and_comm, @eq_comm Nat index]
    · have ne : keyOf chunk.metadata ≠ keyOf key := keyOf_injective.ne same
      simp [same, ne]
  · intro key
    rw [get?_receives receives, isOpen_snoc, ← describes.opened, OrderedMap.get?_set]
    by_cases same : chunk.metadata = key
    · subst same
      by_cases opened : chunk.leavesOpen <;> simp [opened]
    · have ne : keyOf chunk.metadata ≠ keyOf key := keyOf_injective.ne same
      simp [same, ne]

theorem step_ingest (moved : step uuidv4 aggregator chunk = some next) :
    ∃ message ensured, aggregator.ensureMessage uuidv4 (keyOf chunk.metadata) =
        (message, ensured) ∧ Receives chunk message ensured next := by
  rw [step] at moved
  cases accepted : aggregator.ingest uuidv4 chunk with
  | error text =>
    rw [accepted] at moved
    cases moved
  | ok result =>
    rw [accepted] at moved
    cases moved
    exact ⟨result.1, ingest_receives accepted⟩

theorem Chained.step (fresh : FreshIds uuidv4 initialPreviousMessageId)
    (chained : Chained uuidv4 initialPreviousMessageId retryOfMessageId aggregator)
    (moved : step uuidv4 aggregator chunk = some next) :
    Chained uuidv4 initialPreviousMessageId retryOfMessageId next := by
  obtain ⟨message, ensured, found, receives⟩ := step_ingest moved
  exact (chained.ensureMessage fresh found).receives receives

theorem Describes.step (describes : Describes chunks aggregator)
    (moved : step uuidv4 aggregator chunk = some next) :
    Describes (chunks ++ [chunk]) next := by
  obtain ⟨message, ensured, found, receives⟩ := step_ingest moved
  cases present : aggregator.activeByKey.has (keyOf chunk.metadata) with
  | false => exact describes.receives_new present found receives
  | true =>
    obtain ⟨index, stored⟩ := Option.isSome_iff_exists.mp present
    simp only [ChunkAggregator.ensureMessage, stored] at found
    cases found
    exact describes.receives_open stored receives

theorem describes_of_run {later : List StructuredChunk} (describes : Describes chunks aggregator)
    (reached : (ChunkAggregator.step uuidv4).run aggregator later =
      some next) : Describes (chunks ++ later) next := by
  induction later generalizing chunks aggregator with
  | nil =>
    cases reached
    rwa [append_nil]
  | cons chunk later ih =>
    obtain ⟨middle, moved, rest⟩ := Machine.run_cons_eq_some.mp reached
    have described := ih (describes.step moved) rest
    rwa [append_assoc] at described

theorem finalizeAll_messages (inactive : aggregator.active = .empty) :
    aggregator.finalizeAll.messages = aggregator.messages := by
  simp [finalizeAll, inactive]

theorem linked_of_links {messages : List AggregatedMessage} {first : Nat}
    (links : (messages.map fun message => (message.id,
        message.previousMessageId, message.retryOfMessageId)) =
      (List.range' first messages.length).map
        (linkAt uuidv4 initialPreviousMessageId retryOfMessageId)) :
    Linked (previousAt uuidv4 initialPreviousMessageId first) messages := by
  induction messages generalizing first with
  | nil => exact True.intro
  | cons message messages ih =>
    obtain ⟨link, later⟩ := cons_eq_cons.mp links
    simp only [linkAt, Prod.mk.injEq] at link
    obtain ⟨id, previous, _⟩ := link
    refine ⟨previous, ?_⟩
    rw [id]
    exact ih later

theorem Chained.distinct (fresh : FreshIds uuidv4 initialPreviousMessageId)
    (chained : Chained uuidv4 initialPreviousMessageId retryOfMessageId aggregator) :
    (initialPreviousMessageId :: aggregator.messages.map (·.id)).Nodup := by
  have ids : aggregator.messages.map (·.id) =
      (List.range aggregator.messages.length).map uuidv4 := by
    have links := congrArg (List.map Prod.fst) chained.links
    simpa [ChunkAggregator.links, linkAt, Function.comp_def] using links
  rw [ids, nodup_cons]
  constructor
  · intro mem
    obtain ⟨index, _, same⟩ := mem_map.mp mem
    exact fresh.unknown index same
  · exact nodup_range.map fresh.injective

theorem Chained.retryOf (chained : Chained uuidv4 initialPreviousMessageId
      retryOfMessageId aggregator) {index : Nat} {found : AggregatedMessage}
    (stored : aggregator.messages[index]? = some found) :
    found.retryOfMessageId = retryAt retryOfMessageId index := by
  have links := congrArg (·[index]?) chained.links
  have inside : index < aggregator.messages.length := (List.getElem?_eq_some_iff.mp stored).1
  simp only [ChunkAggregator.links, List.getElem?_map, stored,
    getElem?_range inside, Option.map_some, linkAt, Option.some.injEq,
    Prod.mk.injEq] at links
  exact links.2.2

theorem Describes.content (describes : Describes chunks aggregator) :
    aggregator.messages.map (·.content) = (beginnings [] chunks).map messageContent := by
  have summaries := congrArg (List.map Prod.fst) describes.summaries
  simpa [ChunkAggregator.summaries, summary, Function.comp_def] using summaries

theorem Describes.ended_iff (describes : Describes chunks aggregator) :
    (∀ found ∈ aggregator.messages, found.status ≠ .running) ↔
      ∀ key, isOpen key chunks = false := by
  have statuses : aggregator.messages.map (·.status) =
      (beginnings [] chunks).map messageStatus := by
    have summaries := congrArg (List.map Prod.snd) describes.summaries
    simpa [ChunkAggregator.summaries, summary, Function.comp_def] using summaries
  have ended : (∀ found ∈ aggregator.messages, found.status ≠ .running) ↔
      ∀ suffix ∈ beginnings [] chunks, closing? suffix ≠ none := by
    have running : .running ∈ aggregator.messages.map (·.status) ↔
        ∃ suffix ∈ beginnings [] chunks, closing? suffix = none := by
      rw [statuses, mem_map]
      simp only [messageStatus_eq_running]
    rw [mem_map] at running
    have same := not_congr running
    push Not at same
    exact same
  rw [ended]
  constructor
  · intro closed key
    rw [← describes.opened, Option.isSome_eq_false_iff, Option.isNone_iff_eq_none,
      Option.eq_none_iff_forall_ne_some]
    intro index stored
    obtain ⟨suffix, found, _, unclosed⟩ := (describes.keyed _ _).mp stored
    exact closed suffix (mem_of_getElem? found) unclosed
  · intro closed suffix mem unclosed
    cases first : suffix with
    | nil => exact ne_nil_of_mem_beginnings mem first
    | cons chunk later =>
      obtain ⟨index, found⟩ := mem_iff_getElem?.mp mem
      have own : OpenFor chunk.metadata suffix := by
        constructor
        · rw [first]
          rfl
        · exact unclosed
      have stored := (describes.keyed _ index).mpr ⟨suffix, found, own⟩
      have opened := describes.opened chunk.metadata
      rw [stored, closed] at opened
      cases opened

/-- The messages of a stream form a chain from the initial message on and have
the contents that came for them.  They all have ended when the stream is
finalized exactly if no key is open behind the last chunk. -/
theorem everyMessageEnds_iff {initialPreviousMessageId : String}
    {retryOfMessageId : Option String} {uuidv4 : Nat → String}
    {chunks : List StructuredChunk} {aggregator : ChunkAggregator}
    (fresh : FreshIds uuidv4 initialPreviousMessageId)
    (accepted : (step uuidv4).run (createStructuredChunkAggregator
      initialPreviousMessageId retryOfMessageId) chunks = some aggregator) :
    EveryMessageEnds initialPreviousMessageId retryOfMessageId chunks
        aggregator.finalizeAll.messages ↔
      ∀ key, isOpen key chunks = false := by
  have chained : Chained uuidv4 initialPreviousMessageId retryOfMessageId
      aggregator :=
    Machine.invariant_of_run _
      (fun _ _ _ before stepped => before.step fresh stepped) create_chained
      accepted
  have describes : Describes chunks aggregator := describes_of_run create_describes accepted
  rw [finalizeAll_messages chained.inactive]
  constructor
  · intro ends
    exact describes.ended_iff.mp ends.ended
  · intro closed
    constructor
    · have links := chained.links
      rw [range_eq_range'] at links
      exact linked_of_links links
    · exact chained.distinct fresh
    · intro index message stored
      exact chained.retryOf stored
    · exact describes.content
    · exact describes.ended_iff.mpr closed

private def numbered (index : Nat) : String := "id" ++ toString index

private theorem numbered_fresh : FreshIds numbered "previous" := by
  constructor
  · intro left right same
    have chars := congrArg String.toList same
    simp only [numbered, String.toList_append] at chars
    exact toString_injective (append_cancel_left chars)
  · intro index same
    have chars := congrArg String.toList same
    simp [numbered] at chars

private def agent : ChunkMetadata := ⟨"agent", 0, 0⟩

private def model : ChunkMetadata := ⟨"model", 1, 0⟩

private def interleaved : List StructuredChunk :=
  [⟨.begin, none, agent⟩, ⟨.item, some "Hello", model⟩,
    ⟨.item, some "Hi", agent⟩, ⟨.«end», none, agent⟩,
    ⟨.error, some "failed", model⟩]

theorem everyMessageEnds_interleaved :
    ∃ aggregator, (step numbered).run (createStructuredChunkAggregator
        "previous" (some "retried")) interleaved = some aggregator ∧
      EveryMessageEnds "previous" (some "retried") interleaved
        aggregator.finalizeAll.messages := by
  have accepted : ((step numbered).run (createStructuredChunkAggregator
      "previous" (some "retried")) interleaved).isSome = true := by
    decide +kernel
  obtain ⟨aggregator, reached⟩ := Option.isSome_iff_exists.mp accepted
  refine ⟨aggregator, reached, (everyMessageEnds_iff numbered_fresh reached).mpr ?_⟩
  intro key
  simp only [interleaved, isOpen, foldl_cons, foldl_nil, leavesOpen]
  split_ifs <;> rfl

private def unfinished : List StructuredChunk :=
  [⟨.begin, none, agent⟩, ⟨.item, some "Hello", agent⟩]

theorem not_everyMessageEnds_unfinished :
    ∃ aggregator, (step numbered).run (createStructuredChunkAggregator
        "previous" none) unfinished = some aggregator ∧
      ¬ EveryMessageEnds "previous" none unfinished
        aggregator.finalizeAll.messages := by
  have running : ((step numbered).run (createStructuredChunkAggregator
      "previous" none) unfinished).map (fun aggregator =>
        aggregator.finalizeAll.messages.map (·.status)) =
      some [.running] := by
    decide +kernel
  obtain ⟨aggregator, reached, statuses⟩ := Option.map_eq_some_iff.mp running
  refine ⟨aggregator, reached, ?_⟩
  intro ends
  have mem : ChatHubMessageStatus.running ∈ aggregator.finalizeAll.messages.map (·.status) := by
    rw [statuses]
    exact mem_singleton_self _
  obtain ⟨message, found, status⟩ := mem_map.mp mem
  exact ends.ended message found status

end ChunkAggregator

end N8n
