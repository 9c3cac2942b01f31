import JustRT.Task

/-!
# Semaphores, mutexes and queues

The critical sections of `sync.c`. The blocking calls take the deadline
that `task_wait_deadline` computed at API entry as an argument, because
any number of ticks may land in between.

A call that finds what it asks for, or may not wait, answers
`Flow.returns`; one that blocks answers `Flow.yields`, and its task goes on
behind the yield from the result in its record. The queue operations
run through their section again there, with the reservation they were
woken with as an argument. `mutex_list` is walked where a mutex is created,
and by the checker, and a walk over a list without end is a hang.
-/

namespace JustRT

/-! ## Lists of kernel objects -/

/-- Follow `next` from `current` until `object` or null: the loop of
`mutex_is_linked_locked` and of `timer_is_linked_locked`. -/
def isLinkedLoop (next : Ptr → Ptr) (object : Ptr) : Nat → Ptr → Exec Bool
  | 0, _ => .error .hang
  | fuel + 1, current =>
      if current = 0 then .ok false
      else if current = object then .ok true
      else isLinkedLoop next object fuel (next current)

/-- The tortoise and hare of both invariant checks: the node they meet at,
if they meet. -/
def listCycleLoop (next : Ptr → Ptr) : Nat → Ptr → Ptr → Exec (Option Ptr)
  | 0, _, _ => .error .hang
  | fuel + 1, slow, fast =>
      if fast = 0 ∨ next fast = 0 then .ok none
      else
        let slow := next slow
        let fast := next (next fast)
        if slow = fast then .ok (some slow) else listCycleLoop next fuel slow fast

/-- The second loop of both invariant checks: the first listed object
whose fields are inconsistent. -/
def listCheckLoop (next : Ptr → Ptr) (check : Ptr → JrtKernelInvariantCode) :
    Nat → Ptr → Exec (JrtKernelInvariantCode × Ptr)
  | 0, _ => .error .hang
  | fuel + 1, object =>
      if object = 0 then .ok (.none, 0)
      else if check object ≠ .none then .ok (check object, object)
      else listCheckLoop next check fuel (next object)

def mutexIsLinkedLocked (k : Kernel) (mutex : Ptr) : Exec Bool :=
  isLinkedLoop (fun a => (k.mutexes a).next) mutex addressSpace k.mutexList

def mutexLinkLocked (k : Kernel) (mutex : Ptr) : Exec Kernel := do
  if ← mutexIsLinkedLocked k mutex then
    return k
  else
    return { k.setMutex mutex ((k.mutexes mutex).withNext k.mutexList) with mutexList := mutex }

/-- `count_context_misuse`; `bump` increments the counter of one API. -/
def countContextMisuse (k : Kernel) (bump : SyncMisuse → SyncMisuse) : Kernel :=
  k.mapDiag fun d =>
    let misuse := bump d.gSyncMisuse
    { d with gSyncMisuse := { misuse with context := misuse.context + 1 } }

/-! ## Semaphores -/

def jrtSemaphoreCreateBinaryStatic (k : Kernel) (semaphore : Ptr)
    (initiallyAvailable : UInt32) : Kernel :=
  k.setSemaphore semaphore { available := if initiallyAvailable ≠ 0 then 1 else 0 }

/-- `JRT_SemaphoreTake` behind the deadline. -/
def jrtSemaphoreTake (k : Kernel) (semaphore : Ptr) (timeoutTicks : UInt32)
    (deadline : TaskWaitDeadline) (inIsr : Bool) : Flow × Kernel :=
  if inIsr then
    (.returns 0, countContextMisuse k fun m => { m with semaphoreTake := m.semaphoreTake + 1 })
  else if (k.semaphores semaphore).available ≠ 0 then
    (.returns 1, k.setSemaphore semaphore { available := 0 })
  else if timeoutTicks = 0 then (.returns 0, k)
  else taskBlockUntilLocked k (.ptr semaphore) .semaphore deadline

/-- The critical section both give operations share. -/
def semaphoreGiveLocked (k : Kernel) (semaphore : Ptr) : Kernel :=
  let (woken, k) := taskWake k (.ptr semaphore) .semaphore
  if woken then k else k.setSemaphore semaphore { available := 1 }

def jrtSemaphoreGive (k : Kernel) (semaphore : Ptr) (inIsr : Bool) : Kernel :=
  if inIsr then
    countContextMisuse k fun m => { m with semaphoreGive := m.semaphoreGive + 1 }
  else semaphoreGiveLocked k semaphore

/-- `JRT_SemaphoreGiveFromISR`; the flag tells whether the call got past
its context check, to `arch_request_switch()`. -/
def jrtSemaphoreGiveFromIsr (k : Kernel) (semaphore : Ptr) (inIsr : Bool) : Bool × Kernel :=
  if !inIsr then
    (false, countContextMisuse k fun m =>
      { m with semaphoreGiveFromIsr := m.semaphoreGiveFromIsr + 1 })
  else (true, semaphoreGiveLocked k semaphore)

/-! ## Mutexes -/

/-- The fields of a created, unlocked mutex. -/
def JrtMutex.unlocked (m : JrtMutex) : JrtMutex :=
  { m with locked := 0, owner := uint32Max, recursion := 0 }

/-- The fields of a mutex locked once by `owner`. -/
def JrtMutex.lockedBy (m : JrtMutex) (owner : Nat) : JrtMutex :=
  { m with locked := 1, owner := owner, recursion := 1 }

def jrtMutexCreateRecursiveStatic (k : Kernel) (mutex : Ptr) : Exec Kernel := do
  let linked ← mutexIsLinkedLocked k mutex
  let next := if linked then (k.mutexes mutex).next else 0
  mutexLinkLocked (k.setMutex mutex ((k.mutexes mutex).unlocked.withNext next)) mutex

/-- `JRT_MutexLock` behind the deadline. -/
def jrtMutexLock (k : Kernel) (mutex : Ptr) (timeoutTicks : UInt32)
    (deadline : TaskWaitDeadline) (inIsr : Bool) : Flow × Kernel :=
  let currentIndex := k.gCurrentTaskIndex
  let m := k.mutexes mutex
  if inIsr then
    (.returns 0, countContextMisuse k fun c => { c with mutexLock := c.mutexLock + 1 })
  else if m.locked = 0 then
    (.returns 1, k.setMutex mutex (m.lockedBy currentIndex))
  else if m.owner = currentIndex then
    (.returns 1, k.setMutex mutex (m.withRecursion (m.recursion + 1)))
  else if timeoutTicks = 0 then (.returns 0, k)
  else
    let k := taskInheritPriority k m.owner (k.tasks k.currentTask).priority
    taskBlockUntilLocked k (.ptr mutex) .mutex deadline

def jrtMutexUnlock (k : Kernel) (mutex : Ptr) (inIsr : Bool) : UInt32 × Kernel :=
  let m := k.mutexes mutex
  if inIsr then
    (0, countContextMisuse k fun c => { c with mutexUnlock := c.mutexUnlock + 1 })
  else if m.locked = 0 ∨ m.owner ≠ k.gCurrentTaskIndex then (0, k)
  else if m.recursion > 1 then
    (1, k.setMutex mutex (m.withRecursion (m.recursion - 1)))
  else
    let ownerId := m.owner
    match taskWakeGetId k (.ptr mutex) .mutex with
    | (some nextOwnerId, k) =>
        let k := k.setMutex mutex ((k.mutexes mutex).lockedBy nextOwnerId)
        let k := taskRestorePriority k ownerId
        (1, taskRestorePriority k nextOwnerId)
    | (none, k) =>
        let k := k.setMutex mutex (k.mutexes mutex).unlocked
        (1, taskRestorePriority k ownerId)

/-- The per-mutex test of `sync_invariant_check`. -/
def mutexCheck (configuredTaskCount : Nat) (m : JrtMutex) : JrtKernelInvariantCode :=
  if m.locked = 0 then
    if m.owner ≠ uint32Max ∨ m.recursion ≠ 0 then .mutexUnlockedState else .none
  else if m.owner ≥ configuredTaskCount then .mutexOwner
  else if m.recursion = 0 then .mutexRecursion
  else .none

/-- `sync_invariant_check`: the code and the object it reports. -/
def syncInvariantCheck (k : Kernel) : Exec (JrtKernelInvariantCode × Ptr) := do
  let next := fun a => (k.mutexes a).next
  match ← listCycleLoop next addressSpace k.mutexList k.mutexList with
  | some object => return (.mutexListCycle, object)
  | none =>
      listCheckLoop next (fun a => mutexCheck k.taskCount (k.mutexes a)) addressSpace k.mutexList

/-! ## Queues -/

/-- The copy loop of the send operations. -/
def copyIn (storage : Nat → UInt8) (offset : Nat) (source : Nat → UInt8) (size : Nat) :
    Nat → UInt8 :=
  (List.range size).foldl
    (fun destination index => fun o =>
      if o = offset + index then source index else destination o)
    storage

/-- The copy loop of the receive operation: the bytes it stores at `item`. -/
def copyOut (storage : Nat → UInt8) (offset : Nat) (size : Nat) : List UInt8 :=
  (List.range size).map fun index => storage (offset + index)

/-- `JRT_QueueCreateStatic`; `storage` is what the storage pointer holds. -/
def jrtQueueCreateStatic (k : Kernel) (queue : Ptr) (storage : Nat → UInt8)
    (capacity itemSize : UInt32) : Kernel :=
  k.setQueue queue
    { storage, capacity, itemSize
      head := 0, tail := 0, count := 0
      sendReservations := 0, receiveReservations := 0 }

/-- Store one item at the head and advance it, as both send operations do. -/
def JrtQueue.push (q : JrtQueue) (source : Nat → UInt8) : JrtQueue :=
  { q with
    storage := copyIn q.storage (q.head * q.itemSize).toNat source q.itemSize.toNat
    head := (q.head + 1) % q.capacity
    count := q.count + 1 }

/-- Advance the tail over one item. -/
def JrtQueue.pop (q : JrtQueue) : JrtQueue :=
  { q with
    tail := (q.tail + 1) % q.capacity
    count := q.count - 1 }

/-- The item at the tail. -/
def JrtQueue.front (q : JrtQueue) : List UInt8 :=
  copyOut q.storage (q.tail * q.itemSize).toNat q.itemSize.toNat

/-- Wake a receiver behind a send and reserve the item for it. -/
def queueWakeReceiver (k : Kernel) (queue : Ptr) : Kernel :=
  let (woken, k) := taskWake k (.ptr queue) .queueReceive
  if woken then
    let q := k.queues queue
    k.setQueue queue (q.withReceiveReservations (q.receiveReservations + 1))
  else k

/-- Wake a sender behind a receive and reserve the slot for it. -/
def queueWakeSender (k : Kernel) (queue : Ptr) : Kernel :=
  let (woken, k) := taskWake k (.ptr queue) .queueSend
  if woken then
    let q := k.queues queue
    k.setQueue queue (q.withSendReservations (q.sendReservations + 1))
  else k

/-- The test a send makes before it stores an item. -/
def queueSendAccepts (q : JrtQueue) (reserved : Bool) : Bool :=
  q.capacity != 0 && q.itemSize != 0
    && (reserved || decide (q.count + q.sendReservations < q.capacity))

/-- The test a receive makes before it reads an item. -/
def queueReceiveAccepts (q : JrtQueue) (reserved : Bool) : Bool :=
  q.itemSize != 0 && (reserved || decide (q.count > q.receiveReservations))

/-- One iteration of the loop of `JRT_QueueSend`, behind the deadline.
`source` is what the caller's buffer holds while the item is copied. -/
def jrtQueueSend (k : Kernel) (queue : Ptr) (source : Nat → UInt8) (timeoutTicks : UInt32)
    (deadline : TaskWaitDeadline) (reserved inIsr : Bool) : Flow × Kernel :=
  let q := k.queues queue
  if inIsr then
    (.returns 0, countContextMisuse k fun c => { c with queueSend := c.queueSend + 1 })
  else if queueSendAccepts q reserved then
    let q := if reserved then q.withSendReservations (q.sendReservations - 1) else q
    (.returns 1, queueWakeReceiver (k.setQueue queue (q.push source)) queue)
  else if timeoutTicks = 0 then (.returns 0, k)
  else taskBlockUntilLocked k (.ptr queue) .queueSend deadline

/-- One iteration of the loop of `JRT_QueueReceive`, behind the deadline,
with the bytes it stored at `item`. -/
def jrtQueueReceive (k : Kernel) (queue : Ptr) (timeoutTicks : UInt32)
    (deadline : TaskWaitDeadline) (reserved inIsr : Bool) :
    Flow × Option (List UInt8) × Kernel :=
  let q := k.queues queue
  if inIsr then
    (.returns 0, none,
      countContextMisuse k fun c => { c with queueReceive := c.queueReceive + 1 })
  else if queueReceiveAccepts q reserved then
    let item := q.front
    let q := if reserved then q.withReceiveReservations (q.receiveReservations - 1) else q
    (.returns 1, some item, queueWakeSender (k.setQueue queue q.pop) queue)
  else if timeoutTicks = 0 then (.returns 0, none, k)
  else
    let (flow, k) := taskBlockUntilLocked k (.ptr queue) .queueReceive deadline
    (flow, none, k)

/-- The counters `JRT_QueueSendFromISR` keeps: at its entry, ... -/
def Diagnostics.isrSendAttempted (d : Diagnostics) : Diagnostics :=
  { d with gIsrQueueSendAttempted := d.gIsrQueueSendAttempted + 1 }

/-- ... where it stored an item that makes `count`, ... -/
def Diagnostics.isrSendAccepted (d : Diagnostics) (count : UInt32) : Diagnostics :=
  { d with
    gIsrQueueSendAccepted := d.gIsrQueueSendAccepted + 1
    gIsrQueueCountHighWater :=
      if count > d.gIsrQueueCountHighWater then count else d.gIsrQueueCountHighWater }

/-- ... and where it found no room. -/
def Diagnostics.isrSendDropped (d : Diagnostics) : Diagnostics :=
  { d with gIsrQueueSendDropped := d.gIsrQueueSendDropped + 1 }

def jrtQueueSendFromIsr (k : Kernel) (queue : Ptr) (source : Nat → UInt8) (inIsr : Bool) :
    UInt32 × Kernel :=
  if !inIsr then
    (0, countContextMisuse k fun c => { c with queueSendFromIsr := c.queueSendFromIsr + 1 })
  else
    let k := k.mapDiag Diagnostics.isrSendAttempted
    let q := k.queues queue
    if queueSendAccepts q false then
      let k := k.setQueue queue (q.push source)
      let count := (k.queues queue).count
      let k := k.mapDiag fun d => d.isrSendAccepted count
      (1, queueWakeReceiver k queue)
    else (0, k.mapDiag Diagnostics.isrSendDropped)

end JustRT
