import N8n.Library.Admission
import N8n.Library.Machine

/-!
# The concurrency queue

`ConcurrencyQueue` counts free places and waiting executions with one signed
capacity.  Up to `remove` it is an admission of executions in the order of
their arrival.  `remove` hands a place to the next execution although the
removed one held none, but no execution is lost by it.
-/

namespace N8n

/-- The waiting executions, whose promises are still to be resolved. -/
structure ConcurrencyQueue where
  capacity : Int
  queue : List String := []
deriving DecidableEq

namespace ConcurrencyQueue

variable (queue : ConcurrencyQueue)

def resolveNext : ConcurrencyQueue × Option String :=
  match queue.queue with
  | [] => (queue, none)
  | executionId :: rest => ({ queue with queue := rest }, some executionId)

section

variable (executionId : String)

/-- The promise of an execution that does not wait is resolved at once. -/
def enqueue : ConcurrencyQueue × Option String :=
  let capacity := queue.capacity - 1
  if capacity < 0 then
    ({ capacity := capacity
       queue := queue.queue ++ [executionId] }, none)
  else ({ queue with capacity := capacity }, some executionId)

def dequeue : ConcurrencyQueue × Option String :=
  { queue with capacity := queue.capacity + 1 }.resolveNext

def remove : ConcurrencyQueue × Option String :=
  if executionId ∈ queue.queue then
    { capacity := queue.capacity + 1
      queue := queue.queue.erase executionId : ConcurrencyQueue }.resolveNext
  else (queue, none)

def getAll : List String := queue.queue

def has : Bool :=
  executionId ∈ queue.queue

end

end ConcurrencyQueue

/-- A queue with the executions that were enqueued, let through and removed
from the queue so far.  An execution runs from when it is let through to its
`dequeue`. -/
structure QueueHistory where
  queue : ConcurrencyQueue
  running : List String := []
  enqueued : List String := []
  letThrough : List String := []
  removed : List String := []
deriving DecidableEq

/-- The calls of a queue.  An execution is enqueued once, and `dequeue` is
called for an execution that runs. -/
inductive QueueCall where
  | enqueue (executionId : String)
  | dequeue (executionId : String)
  | remove (executionId : String)

namespace QueueHistory

def start (limit : Nat) : QueueHistory := { queue := { capacity := limit } }

section

variable (history : QueueHistory)

/-- Record what a call does to the queue and which promise it resolves. -/
def record (outcome : ConcurrencyQueue × Option String) : QueueHistory :=
  { history with
    queue := outcome.1
    running := history.running ++ outcome.2.toList
    letThrough := history.letThrough ++ outcome.2.toList }

def step : Machine QueueHistory QueueCall
  | history, .enqueue executionId =>
    if executionId ∈ history.enqueued then none
    else some ({ history with
      enqueued := history.enqueued ++ [executionId] }.record (history.queue.enqueue executionId))
  | history, .dequeue executionId =>
    if executionId ∈ history.running then
      some ({ history with
        running := history.running.erase executionId }.record history.queue.dequeue)
    else none
  | history, .remove executionId =>
    some ({ history with
      removed := if history.queue.has executionId then
          history.removed ++ [executionId]
        else history.removed }.record (history.queue.remove executionId))

def admission : Admission String :=
  { running := history.running
    waiting := history.queue.queue
    arrived := history.enqueued
    admitted := history.letThrough
    withdrawn := history.removed }

/-- The capacity is the number of free places less the number of waiting
executions. -/
structure Counts (limit : Nat) (history : QueueHistory) : Prop where
  capacity : history.queue.capacity = limit - history.running.length - history.queue.queue.length
  sound : history.admission.Sound limit

/-- A queued execution is removed only when no other execution waits. -/
def RemovesOnlyWaiting : QueueCall → Prop
  | .remove executionId => executionId ∈ history.queue.queue → history.queue.queue = [executionId]
  | _ => True

end

section Steps

variable {limit : Nat} {history next : QueueHistory}

theorem counts_start (limit : Nat) : Counts limit (start limit) := by
  constructor
  · simp [start]
  · exact Admission.sound_empty limit

variable {executionId : String}

theorem Counts.enqueue (counts : Counts limit history) (fresh : executionId ∉ history.enqueued) :
    Counts limit ({ history with
      enqueued := history.enqueued ++ [executionId] }.record
        (history.queue.enqueue executionId)) := by
  have capacity := counts.capacity
  have limited := counts.sound.limited
  have busy := counts.sound.busy
  have arrived := counts.sound.arrive fresh
  simp only [admission] at limited busy arrived
  simp only [Admission.arrive] at arrived
  by_cases free : history.running.length < limit
  · have empty : history.queue.queue = [] := by
      by_contra waits
      have full := busy waits
      omega
    have places : ¬ history.queue.capacity - 1 < 0 := by
      rw [capacity, empty]
      simp only [List.length_nil]
      omega
    rw [if_pos free] at arrived
    simp only [ConcurrencyQueue.enqueue, if_neg places, record]
    constructor
    · simp [capacity]
      omega
    · exact arrived
  · have places : history.queue.capacity - 1 < 0 := by omega
    rw [if_neg free] at arrived
    simp only [ConcurrencyQueue.enqueue, if_pos places, record]
    constructor
    · simp [capacity]
      omega
    · simpa [admission] using arrived

theorem Counts.dequeue (counts : Counts limit history) (mem : executionId ∈ history.running) :
    Counts limit ({ history with
      running := history.running.erase executionId }.record history.queue.dequeue) := by
  have capacity := counts.capacity
  have left := counts.sound.leave mem
  have length := List.length_erase_of_mem mem
  have positive := List.length_pos_of_mem mem
  simp only [admission, Admission.leave, Admission.admitNext] at left
  simp only [ConcurrencyQueue.dequeue, ConcurrencyQueue.resolveNext]
  cases queue : history.queue.queue with
  | nil =>
    simp only [queue] at left capacity
    constructor
    · simp [record, capacity, length]
      omega
    · simpa [admission, record, queue] using left
  | cons first rest =>
    simp only [queue, Admission.letIn] at left capacity
    constructor
    · simp [record, capacity, length]
      omega
    · simpa [admission, record] using left

theorem Counts.remove (counts : Counts limit history)
    (alone : executionId ∈ history.queue.queue → history.queue.queue = [executionId]) :
    Counts limit ({ history with
      removed := if history.queue.has executionId then
          history.removed ++ [executionId]
        else history.removed }.record (history.queue.remove executionId)) := by
  by_cases waits : executionId ∈ history.queue.queue
  · have capacity := counts.capacity
    have withdrawn := counts.sound.withdraw waits
    have queue := alone waits
    simp only [admission, Admission.withdraw, queue, List.erase_cons_head] at withdrawn
    simp only [ConcurrencyQueue.remove, ConcurrencyQueue.has,
      ConcurrencyQueue.resolveNext, queue, List.mem_singleton, if_true,
      List.erase_cons_head, decide_true]
    constructor
    · simp [record, capacity, queue]
    · simpa [admission, record] using withdrawn
  · simpa [ConcurrencyQueue.remove, ConcurrencyQueue.has, record, waits] using counts

theorem Counts.remove_exceeds (counts : Counts limit history) (waits : executionId ∈ history.queue.queue)
    (others : history.queue.queue ≠ [executionId]) :
    limit < (history.record (history.queue.remove executionId)).running.length := by
  have full : history.running.length = limit := counts.sound.busy (List.ne_nil_of_mem waits)
  simp only [ConcurrencyQueue.remove, if_pos waits, ConcurrencyQueue.resolveNext]
  cases rest : history.queue.queue.erase executionId with
  | nil =>
    have permuted := List.perm_cons_erase waits
    rw [rest] at permuted
    exact absurd (List.perm_singleton.mp permuted) others
  | cons first later =>
    simp [record, full]

theorem counts_step (call : QueueCall) (counts : Counts limit history)
    (met : RemovesOnlyWaiting history call)
    (moved : step history call = some next) : Counts limit next := by
  cases call with
  | enqueue executionId =>
    simp only [step] at moved
    split at moved
    · cases moved
    next fresh =>
      cases moved
      exact counts.enqueue fresh
  | dequeue executionId =>
    obtain ⟨mem, rfl⟩ := Machine.of_guarded moved
    exact counts.dequeue mem
  | remove executionId =>
    cases moved
    exact counts.remove met

theorem removesOnlyWaiting_of_fair (call : QueueCall)
    (counts : Counts limit history) (moved : step history call = some next)
    (fair : next.admission.Fair limit) : RemovesOnlyWaiting history call := by
  cases call with
  | enqueue executionId | dequeue executionId => exact True.intro
  | remove executionId =>
    cases moved
    intro waits
    by_contra others
    have exceeds := counts.remove_exceeds waits others
    have limited := fair.limited
    simp only [admission, record] at exceeds limited
    omega

end Steps

/-- The queue limits concurrency throughout a run exactly when the run never
removes a queued execution while another one waits. -/
theorem limitsConcurrency_iff {limit : Nat} {calls : List QueueCall}
    {last : QueueHistory} (run : step.run (start limit) calls = some last) :
    step.Always (fun history => history.admission.Fair limit) (start limit) calls ↔
      step.Meets RemovesOnlyWaiting (start limit) calls :=
  Machine.always_iff_meets (fun _ call _ counts met stepped => counts_step call counts met stepped)
    (fun _ counts => counts.sound.fair)
    (fun _ call _ counts stepped fair =>
      removesOnlyWaiting_of_fair call counts stepped fair)
    (counts_start limit) run

section Example

def removedWhileOthersWait : List QueueCall :=
  [.enqueue "1", .enqueue "2", .enqueue "3", .remove "2"]

theorem limitsConcurrency_removeOnlyWaiting :
    step.Always (fun history => history.admission.Fair 1) (start 1)
      [.enqueue "1", .enqueue "2", .remove "2", .dequeue "1"] := by
  have run : step.run (start 1) [.enqueue "1", .enqueue "2", .remove "2", .dequeue "1"] =
        some { queue := { capacity := 1 }
               enqueued := ["1", "2"]
               letThrough := ["1"]
               removed := ["2"] } := by decide
  apply (limitsConcurrency_iff run).mpr
  simp [Machine.Meets, RemovesOnlyWaiting, step, start, record,
    ConcurrencyQueue.enqueue, ConcurrencyQueue.remove]

/-- The third execution is let through while the first one runs. -/
theorem not_limitsConcurrency_removedWhileOthersWait :
    ∃ last, step.run (start 1) removedWhileOthersWait = some last ∧
      last.running = ["1", "3"] ∧ ¬ last.admission.Fair 1 := by
  refine ⟨_, rfl, rfl, ?_⟩
  intro fair
  exact absurd fair.limited (by decide)

end Example

/-- Each execution is let through, waits or was removed, and only one of them.
Those that are let through and those that wait are in the order of their
arrival, and none waits at a free place. -/
structure Conserves (history : QueueHistory) : Prop where
  distinct : history.enqueued.Nodup
  ordered : (history.letThrough ++ history.queue.queue).Sublist history.enqueued
  kept : (history.letThrough ++ history.queue.queue ++ history.removed).Perm history.enqueued
  waits : history.queue.queue ≠ [] → history.queue.capacity + history.queue.queue.length ≤ 0

section Conservation

variable {history next : QueueHistory}

/-- The next execution of a queue with at most one place to give. -/
theorem conserves_resolveNext {queue : ConcurrencyQueue} (distinct : history.enqueued.Nodup)
    (ordered : (history.letThrough ++ queue.queue).Sublist history.enqueued)
    (kept : (history.letThrough ++ queue.queue ++ history.removed).Perm history.enqueued)
    (waits : queue.queue ≠ [] → queue.capacity + queue.queue.length ≤ 1) :
    (history.record queue.resolveNext).Conserves := by
  cases found : queue.queue with
  | nil =>
    rw [found] at ordered kept
    constructor <;> simp_all [record, ConcurrencyQueue.resolveNext]
  | cons first rest =>
    have few := waits (by simp [found])
    rw [found] at ordered kept few
    constructor <;> simp_all [record, ConcurrencyQueue.resolveNext]
    omega

theorem Conserves.enqueue {executionId : String} (conserves : history.Conserves)
    (fresh : executionId ∉ history.enqueued) : ({ history with
      enqueued := history.enqueued ++ [executionId] }.record
        (history.queue.enqueue executionId)).Conserves := by
  have distinct : (history.enqueued ++ [executionId]).Nodup := by
    simpa [List.nodup_append] using ⟨conserves.distinct, fun _ mem same => fresh (same ▸ mem)⟩
  have ordered := conserves.ordered.append (List.Sublist.refl [executionId])
  have kept (other : String) := conserves.kept.count_eq other
  have waits := conserves.waits
  rw [ConcurrencyQueue.enqueue]
  split
  next full =>
    refine ⟨distinct, by simpa [record] using ordered, ?_, fun _ => ?_⟩
    · refine List.perm_iff_count.mpr fun other => ?_
      simp only [record, List.count_append, Option.toList_none, List.count_nil] at kept ⊢
      have := kept other
      omega
    · by_cases empty : history.queue.queue = []
      · simp [record, empty]
        omega
      · have := waits empty
        simp [record]
        omega
  next free =>
    have empty : history.queue.queue = [] := by
      by_contra nonempty
      have := waits nonempty
      have := List.length_pos_of_ne_nil nonempty
      omega
    rw [empty] at ordered kept
    refine ⟨distinct, by simpa [record, empty] using ordered, ?_, fun nonempty => ?_⟩
    · refine List.perm_iff_count.mpr fun other => ?_
      simp only [record, empty, List.count_append, Option.toList_some, List.count_nil] at kept ⊢
      have := kept other
      omega
    · exact absurd empty nonempty

theorem conserves_step (call : QueueCall) (conserves : history.Conserves)
    (moved : step history call = some next) : next.Conserves := by
  cases call with
  | enqueue executionId =>
    simp only [step] at moved
    split at moved
    · cases moved
    next fresh =>
      cases moved
      exact conserves.enqueue fresh
  | dequeue executionId =>
    obtain ⟨mem, rfl⟩ := Machine.of_guarded moved
    apply conserves_resolveNext
    · exact conserves.distinct
    · exact conserves.ordered
    · exact conserves.kept
    · intro nonempty
      have := conserves.waits nonempty
      simp only
      omega
  | remove executionId =>
    cases moved
    by_cases mem : executionId ∈ history.queue.queue
    · have := conserves.waits (List.ne_nil_of_mem mem)
      simp only [ConcurrencyQueue.remove, ConcurrencyQueue.has, mem, decide_true, if_true]
      apply conserves_resolveNext
      · exact conserves.distinct
      · exact (List.Sublist.refl _).append List.erase_sublist |>.trans conserves.ordered
      · refine List.perm_iff_count.mpr fun other => ?_
        have kept := conserves.kept.count_eq other
        have erased := (List.perm_cons_erase mem).count_eq other
        simp only [List.count_append, List.count_cons, List.count_nil] at kept erased ⊢
        omega
      · intro _
        have := List.length_erase_of_mem mem
        simp only
        omega
    · simpa [ConcurrencyQueue.remove, ConcurrencyQueue.has, record, mem] using conserves

end Conservation

end QueueHistory

end N8n
