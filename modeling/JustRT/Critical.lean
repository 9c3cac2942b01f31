import JustRT.Lib.Interference
import JustRT.MemoryPool
import JustRT.StackUsage

/-!
# The code between its critical sections

`JustRT.Task`, `JustRT.Sync` and `JustRT.Timer` treat a critical section as
one step. Here the operations are written out as the code has them: each
`arch_critical_enter()` and `arch_critical_exit()`, nested ones included, on
each path; what is read with interrupts on; and where the caller leaves the
core. What a section does to the kernel in between is the same function as
there.

PRIMASK and `g_critical_nesting` are the mask of `Interference`; the two other
counters of the port are ordinary shared state. `inIsr` is what
`arch_in_isr()` reads.
-/

namespace JustRT

open Interference

/-- PRIMASK, and how deep the code is inside critical sections. -/
structure Mask where
  primask : Bool
  gCriticalNesting : UInt32
deriving Repr, DecidableEq

instance : InterruptMask Mask where
  masked := Mask.primask

structure Shared where
  kernel : Kernel
  pools : Pools
  gCriticalEntries : UInt32
  gCriticalNestingMax : UInt32

/-- Where code leaves the core: to the scheduler, in a supervisor call, or to
a timer's callback. -/
inductive Departure where
  | archYield
  | archRequestSwitch
  | jrtTaskDelay (ticks : UInt32)
  | callback (callback argument : Ptr)
  | archStartFirstTask
deriving Repr, DecidableEq

abbrev Code (α : Type) := Prog Shared Mask Departure Halt α

namespace Critical

/-! ## The port -/

def readMask : Code Mask := .changeMask id

def setPrimask (primask : Bool) : Code Unit := do
  let _ ← .changeMask fun m => { m with primask }

def setCriticalNesting (gCriticalNesting : UInt32) : Code Unit := do
  let _ ← .changeMask fun m => { m with gCriticalNesting }

def criticalEnter : Code Bool := do
  let old ← readMask
  setPrimask true
  .modify fun s => { s with gCriticalEntries := s.gCriticalEntries + 1 }
  let m ← readMask
  let nesting := m.gCriticalNesting + 1
  setCriticalNesting nesting
  .modify fun s =>
    if nesting > s.gCriticalNestingMax then { s with gCriticalNestingMax := nesting } else s
  return old.primask

def criticalExit (savedPrimask : Bool) : Code Unit := do
  let m ← readMask
  setCriticalNesting
    (if m.gCriticalNesting ≠ 0 then m.gCriticalNesting - 1 else m.gCriticalNesting)
  setPrimask savedPrimask

def archYield : Code Unit := .leaveAt .archYield

def archRequestSwitch : Code Unit := .leaveAt .archRequestSwitch

def jrtTaskDelay (ticks : UInt32) : Code Unit := .leaveAt (.jrtTaskDelay ticks)

/-! ## Access to the kernel -/

def readKernel : Code Kernel := do
  let s ← .read
  return s.kernel

def modifyKernel (f : Kernel → Kernel) : Code Unit :=
  .modify fun s => { s with kernel := f s.kernel }

def modifyGetKernel {α : Type} (f : Kernel → α × Kernel) : Code α :=
  .modifyGet fun s => ((f s.kernel).1, { s with kernel := (f s.kernel).2 })

/-- A step of the kernel that may halt or hang. -/
def attemptKernel {α : Type} (f : Kernel → Exec (α × Kernel)) : Code α :=
  .attempt fun s => do
    let (a, kernel) ← f s.kernel
    return (a, { s with kernel })

/-! ## Tasks -/

/-- What the four queries of a task's record share: the check of their
arguments, and one read of the record. -/
def taskGet {α : Type} (field : Task → α) (taskId : Nat) (destination : Ptr) :
    Code (Except JrtStatus α) := do
  let k ← readKernel
  if destination = 0 ∨ validateTaskId k taskId ≠ .ok then
    return .error .invalidTask
  else
    let saved ← criticalEnter
    let k ← readKernel
    criticalExit saved
    return .ok (field (k.tasks taskId))

def jrtTaskGetState (taskId : Nat) (state : Ptr) : Code (Except JrtStatus TaskState) :=
  taskGet Task.state taskId state

def jrtTaskGetStackInfo (taskId : Nat) (info : Ptr) : Code (Except JrtStatus JrtTaskStackInfo) :=
  taskGet
    (fun task =>
      { stackWords := (task.stackTop - task.stackBottom) / 4
        usedWords := task.highWaterWords
        minimumSp := task.minimumSp
        currentSp := task.sp })
    taskId info

def jrtTaskGetName (taskId : Nat) (name : Ptr) : Code (Except JrtStatus String) :=
  taskGet Task.name taskId name

def jrtTaskGetPriority (taskId : Nat) (priority : Ptr) : Code (Except JrtStatus Nat) :=
  taskGet Task.priority taskId priority

def kernelTaskSuspend (requestedTaskId : Nat) : Code JrtStatus := do
  let saved ← criticalEnter
  let k ← readKernel
  if !k.kernelInitialized then
    criticalExit saved
    return .notInitialized
  else if !k.kernelStarted then
    criticalExit saved
    return .invalidContext
  else
    match resolveApplicationTaskId k requestedTaskId true with
    | .error status =>
        criticalExit saved
        return status
    | .ok taskId =>
        if (k.tasks taskId).state ≠ .ready
            ∧ ((k.tasks taskId).state ≠ .running ∨ taskId ≠ k.gCurrentTaskIndex) then
          criticalExit saved
          return .invalidState
        else
          modifyKernel fun k =>
            if (k.tasks taskId).state = .running then taskBenchmarkCompleteLocked k taskId else k
          modifyKernel fun k => k.setTask taskId ((k.tasks taskId).withState .suspended)
          criticalExit saved
          return .ok

def kernelTaskResume (requestedTaskId : Nat) : Code JrtStatus := do
  let saved ← criticalEnter
  let k ← readKernel
  if !k.kernelInitialized then
    criticalExit saved
    return .notInitialized
  else if !k.kernelStarted then
    criticalExit saved
    return .invalidContext
  else
    match resolveApplicationTaskId k requestedTaskId false with
    | .error status =>
        criticalExit saved
        return status
    | .ok taskId =>
        if (k.tasks taskId).state ≠ .suspended then
          criticalExit saved
          return .invalidState
        else
          modifyKernel fun k => taskBenchmarkReleaseLocked k taskId false
          modifyKernel fun k => k.setTask taskId ((k.tasks taskId).withState .ready)
          criticalExit saved
          return .ok

def taskInheritPriority (taskId priority : Nat) : Code Unit := do
  let saved ← criticalEnter
  modifyKernel fun k => JustRT.taskInheritPriority k taskId priority
  criticalExit saved

def taskRestorePriority (taskId : Nat) : Code Unit := do
  let saved ← criticalEnter
  modifyKernel fun k => JustRT.taskRestorePriority k taskId
  criticalExit saved

def sleepCurrent (ticks : UInt32) : Code Unit := do
  let saved ← criticalEnter
  modifyKernel fun k => JustRT.sleepCurrent k ticks
  criticalExit saved

def jrtKernelGetTickCount : Code UInt32 := do
  let saved ← criticalEnter
  let k ← readKernel
  criticalExit saved
  return k.gKernelTicks

def jrtKernelTickReached (deadline : UInt32) : Code Bool := do
  let now ← jrtKernelGetTickCount
  return signedNonneg (now - deadline)

/-- `JRT_TaskDelayUntil`: what `*previous_wake` holds behind it. -/
def jrtTaskDelayUntil (previousWake : Option UInt32) (periodTicks : UInt32) :
    Code (Option UInt32) :=
  match previousWake with
  | none => return none
  | some previousWake => do
      let nextWake := previousWake + periodTicks
      let now ← jrtKernelGetTickCount
      if signedNonneg (now - nextWake) then
        return some nextWake
      else
        jrtTaskDelay (nextWake - now)
        return some nextWake

/-! ## Waits and wake-ups -/

/-- The result of a wait, read behind its yield. -/
def waitResult : Code UInt32 := do
  let k ← readKernel
  return (k.tasks k.currentTask).waitResult

def taskBlock (object : WaitObject) (waitKind : TaskWaitKind) (timeoutTicks : UInt32) :
    Code UInt32 := do
  if timeoutTicks = 0 then
    return 0
  else
    let saved ← criticalEnter
    modifyKernel fun k => taskWaitBegin k k.currentTask object waitKind timeoutTicks
    criticalExit saved
    archYield
    waitResult

/-- `task_wake_get_id`; `none` is `UINT32_MAX`. -/
def taskWakeGetId (object : WaitObject) (waitKind : TaskWaitKind) : Code (Option Nat) := do
  let saved ← criticalEnter
  let id ← modifyGetKernel fun k => JustRT.taskWakeGetId k object waitKind
  criticalExit saved
  return id

def taskWake (object : WaitObject) (waitKind : TaskWaitKind) : Code Bool := do
  let id ← taskWakeGetId object waitKind
  return id.isSome

def taskWaitDeadline (timeoutTicks : UInt32) : Code TaskWaitDeadline := do
  let saved ← criticalEnter
  let k ← readKernel
  criticalExit saved
  return JustRT.taskWaitDeadline k timeoutTicks

/-- `task_block_until_locked`: the critical section it is called in ends on
both of its branches. -/
def taskBlockUntilLocked (object : WaitObject) (waitKind : TaskWaitKind)
    (deadline : TaskWaitDeadline) (savedCritical : Bool) : Code UInt32 := do
  let k ← readKernel
  if deadline.forever = 0
      ∧ k.gKernelTicks - deadline.start ≥ deadline.tick - deadline.start then
    criticalExit savedCritical
    return 0
  else
    modifyKernel fun k => taskWaitBeginUntil k k.currentTask object waitKind deadline
    criticalExit savedCritical
    archYield
    waitResult

def taskTimerServiceBlockLocked (savedCritical : Bool) : Code Unit := do
  modifyKernel JustRT.taskTimerServiceBlockLocked
  criticalExit savedCritical
  archYield

/-! ## Notifications -/

def taskNotifyCommon (taskId : Nat) (value : UInt32) (fromIsr inIsr : Bool) : Code UInt32 := do
  if wrongContext fromIsr inIsr then
    return 0
  else
    let k ← readKernel
    if taskId ≥ k.taskCount then
      return 0
    else
      let saved ← criticalEnter
      let k ← readKernel
      let coalesced := decide (value ≠ 0 ∧ (k.tasks taskId).notificationValue ≠ 0)
      modifyKernel fun k => k.setTask taskId
        ((k.tasks taskId).withNotification ((k.tasks taskId).notificationValue + value))
      modifyKernel fun k =>
        if (k.tasks taskId).state = .blocked ∧ (k.tasks taskId).waitKind = .notification then
          taskWaitEnd k taskId 1 coalesced
        else if coalesced then taskBenchmarkCoalescedLocked k taskId
        else k
      criticalExit saved
      archRequestSwitch
      return 1

def jrtTaskNotify (taskId : Nat) (value : UInt32) (inIsr : Bool) : Code UInt32 :=
  taskNotifyCommon taskId value false inIsr

def jrtTaskNotifyFromIsr (taskId : Nat) (value : UInt32) (inIsr : Bool) : Code UInt32 :=
  taskNotifyCommon taskId value true inIsr

/-- `JRT_TaskNotifyTake` behind the yield. -/
def jrtTaskNotifyTakeResume : Code (UInt32 × Option UInt32) := do
  let saved ← criticalEnter
  let r ← modifyGetKernel fun k =>
    let r := JustRT.jrtTaskNotifyTakeResume k
    ((r.1, r.2.1), r.2.2)
  criticalExit saved
  return (r.1, some r.2)

/-- `JRT_TaskNotifyTake`, with what it stores at `value`. -/
def jrtTaskNotifyTake (value : Ptr) (timeoutTicks : UInt32) (inIsr : Bool) :
    Code (UInt32 × Option UInt32) := do
  if value = 0 ∨ inIsr then
    return (0, none)
  else
    let saved ← criticalEnter
    let k ← readKernel
    let notification := (k.tasks k.currentTask).notificationValue
    if notification ≠ 0 then
      modifyKernel fun k =>
        k.setTask k.currentTask ((k.tasks k.currentTask).withNotification 0)
      criticalExit saved
      return (1, some notification)
    else if timeoutTicks = 0 then
      criticalExit saved
      return (0, none)
    else
      modifyKernel fun k =>
        taskWaitBegin k k.currentTask (.task k.currentTask) .notification timeoutTicks
      criticalExit saved
      archYield
      jrtTaskNotifyTakeResume

/-! ## Event groups -/

def eventGroupSetBitsCommon (group : Ptr) (bits : UInt32) (fromIsr inIsr : Bool) :
    Code UInt32 := do
  if group = 0 ∨ wrongContext fromIsr inIsr then
    return 0
  else
    let saved ← criticalEnter
    modifyKernel fun k => k.setEventGroup group { bits := (k.eventGroups group).bits ||| bits }
    let k ← readKernel
    let result := (k.eventGroups group).bits
    modifyKernel fun k => (List.range k.taskCount).foldl (setBitsStep group) k
    criticalExit saved
    archRequestSwitch
    return result

def jrtEventGroupSetBits (group : Ptr) (bits : UInt32) (inIsr : Bool) : Code UInt32 :=
  eventGroupSetBitsCommon group bits false inIsr

def jrtEventGroupGetBits (group : Ptr) : Code UInt32 := do
  if group = 0 then
    return 0
  else
    let saved ← criticalEnter
    let k ← readKernel
    criticalExit saved
    return (k.eventGroups group).bits

def jrtEventGroupSetBitsFromIsr (group : Ptr) (bits : UInt32) (inIsr : Bool) : Code UInt32 := do
  if !inIsr then
    return 0
  else
    eventGroupSetBitsCommon group bits true inIsr

/-- `JRT_EventGroupWaitBits` behind the yield. -/
def jrtEventGroupWaitBitsResume (group : Ptr) (bits : UInt32) : Code UInt32 := do
  let saved ← criticalEnter
  let result ← modifyGetKernel fun k => JustRT.jrtEventGroupWaitBitsResume k group bits
  criticalExit saved
  return result

def jrtEventGroupWaitBits (group : Ptr) (bits : UInt32) (waitAll clearOnExit : Bool)
    (timeoutTicks : UInt32) (inIsr : Bool) : Code UInt32 := do
  if group = 0 ∨ bits = 0 ∨ inIsr then
    return 0
  else
    let saved ← criticalEnter
    let k ← readKernel
    let result := (k.eventGroups group).bits
    if eventCondition result bits (boolWord waitAll) then
      modifyKernel fun k =>
        if clearOnExit then
          k.setEventGroup group { bits := (k.eventGroups group).bits &&& ~~~bits }
        else k
      criticalExit saved
      return result &&& bits
    else if timeoutTicks = 0 then
      criticalExit saved
      return 0
    else
      modifyKernel fun k => k.setTask k.currentTask
        ((k.tasks k.currentTask).withEventWait bits (boolWord waitAll) (boolWord clearOnExit))
      modifyKernel fun k =>
        taskWaitBegin k k.currentTask (.ptr group) .eventGroup timeoutTicks
      criticalExit saved
      archYield
      jrtEventGroupWaitBitsResume group bits

/-! ## The tick and the switch -/

def tickTasks : Code Unit := do
  let saved ← criticalEnter
  attemptKernel fun k => do
    let k ← JustRT.tickTasks k
    return ((), k)
  criticalExit saved

/-- `pendsv_switch`: the stack pointer it returns is read behind its critical
section. -/
def pendsvSwitch (currentSp : Ptr) : Code Ptr := do
  let saved ← criticalEnter
  let _ ← attemptKernel fun k => JustRT.pendsvSwitch k currentSp
  criticalExit saved
  let k ← readKernel
  return (k.tasks k.currentTask).sp

/-- `JRT_KernelStart`, which never returns. -/
def jrtKernelStart : Code Empty := do
  let k ← readKernel
  if !k.kernelInitialized then
    .halt .hang
  else
    -- `arch_tick_init()` writes none of what is shared
    modifyKernel fun k => { k with kernelStarted := true }
    .leaveAt .archStartFirstTask
    .halt .hang

/-! ## Semaphores and mutexes -/

/-- `count_context_misuse`, with interrupts as they are. -/
def countContextMisuse (bump : SyncMisuse → SyncMisuse) : Code Unit :=
  modifyKernel fun k => JustRT.countContextMisuse k bump

def jrtSemaphoreTake (semaphore : Ptr) (timeoutTicks : UInt32) (inIsr : Bool) : Code UInt32 := do
  let deadline ← taskWaitDeadline timeoutTicks
  if inIsr then
    countContextMisuse fun m => { m with semaphoreTake := m.semaphoreTake + 1 }
    return 0
  else
    let saved ← criticalEnter
    let k ← readKernel
    if (k.semaphores semaphore).available ≠ 0 then
      modifyKernel fun k => k.setSemaphore semaphore { available := 0 }
      criticalExit saved
      return 1
    else if timeoutTicks = 0 then
      criticalExit saved
      return 0
    else
      taskBlockUntilLocked (.ptr semaphore) .semaphore deadline saved

/-- The critical section both give operations have. -/
def semaphoreGiveLocked (semaphore : Ptr) : Code Unit := do
  let saved ← criticalEnter
  let woken ← taskWake (.ptr semaphore) .semaphore
  modifyKernel fun k => if woken then k else k.setSemaphore semaphore { available := 1 }
  criticalExit saved

def jrtSemaphoreGive (semaphore : Ptr) (inIsr : Bool) : Code Unit := do
  if inIsr then
    countContextMisuse fun m => { m with semaphoreGive := m.semaphoreGive + 1 }
  else
    semaphoreGiveLocked semaphore

def jrtSemaphoreGiveFromIsr (semaphore : Ptr) (inIsr : Bool) : Code Unit := do
  if !inIsr then
    countContextMisuse fun m => { m with semaphoreGiveFromIsr := m.semaphoreGiveFromIsr + 1 }
  else
    semaphoreGiveLocked semaphore
    archRequestSwitch

def jrtMutexLock (mutex : Ptr) (timeoutTicks : UInt32) (inIsr : Bool) : Code UInt32 := do
  let deadline ← taskWaitDeadline timeoutTicks
  let k ← readKernel
  let currentIndex := k.gCurrentTaskIndex
  if inIsr then
    countContextMisuse fun c => { c with mutexLock := c.mutexLock + 1 }
    return 0
  else
    let saved ← criticalEnter
    let k ← readKernel
    let m := k.mutexes mutex
    if m.locked = 0 then
      modifyKernel fun k => k.setMutex mutex ((k.mutexes mutex).lockedBy currentIndex)
      criticalExit saved
      return 1
    else if m.owner = currentIndex then
      modifyKernel fun k => k.setMutex mutex (m.withRecursion (m.recursion + 1))
      criticalExit saved
      return 1
    else if timeoutTicks = 0 then
      criticalExit saved
      return 0
    else
      taskInheritPriority m.owner (k.tasks k.currentTask).priority
      taskBlockUntilLocked (.ptr mutex) .mutex deadline saved

def jrtMutexUnlock (mutex : Ptr) (inIsr : Bool) : Code UInt32 := do
  if inIsr then
    countContextMisuse fun c => { c with mutexUnlock := c.mutexUnlock + 1 }
    return 0
  else
    let saved ← criticalEnter
    let k ← readKernel
    let m := k.mutexes mutex
    if m.locked = 0 ∨ m.owner ≠ k.gCurrentTaskIndex then
      criticalExit saved
      return 0
    else if m.recursion > 1 then
      modifyKernel fun k => k.setMutex mutex (m.withRecursion (m.recursion - 1))
      criticalExit saved
      return 1
    else
      let ownerId := m.owner
      match ← taskWakeGetId (.ptr mutex) .mutex with
      | some nextOwnerId =>
          modifyKernel fun k => k.setMutex mutex ((k.mutexes mutex).lockedBy nextOwnerId)
          taskRestorePriority ownerId
          taskRestorePriority nextOwnerId
          criticalExit saved
          return 1
      | none =>
          modifyKernel fun k => k.setMutex mutex (k.mutexes mutex).unlocked
          taskRestorePriority ownerId
          criticalExit saved
          return 1

/-! ## Queues -/

/-- Wake a receiver behind a send and reserve the item for it. -/
def queueWakeReceiver (queue : Ptr) : Code Unit := do
  let woken ← taskWake (.ptr queue) .queueReceive
  modifyKernel fun k =>
    if woken then
      let q := k.queues queue
      k.setQueue queue (q.withReceiveReservations (q.receiveReservations + 1))
    else k

/-- Wake a sender behind a receive and reserve the slot for it. -/
def queueWakeSender (queue : Ptr) : Code Unit := do
  let woken ← taskWake (.ptr queue) .queueSend
  modifyKernel fun k =>
    if woken then
      let q := k.queues queue
      k.setQueue queue (q.withSendReservations (q.sendReservations + 1))
    else k

/-- The loop of `JRT_QueueSend`, with `fuel` iterations left. -/
def queueSendLoop (queue : Ptr) (source : Nat → UInt8) (timeoutTicks : UInt32)
    (deadline : TaskWaitDeadline) : Nat → Bool → Code UInt32
  | 0, _ => .halt .hang
  | fuel + 1, reserved => do
      let saved ← criticalEnter
      let k ← readKernel
      if queueSendAccepts (k.queues queue) reserved then
        modifyKernel fun k =>
          let q := k.queues queue
          let q := if reserved then q.withSendReservations (q.sendReservations - 1) else q
          k.setQueue queue (q.push source)
        queueWakeReceiver queue
        criticalExit saved
        return 1
      else if timeoutTicks = 0 then
        criticalExit saved
        return 0
      else
        let woken ← taskBlockUntilLocked (.ptr queue) .queueSend deadline saved
        if woken = 0 then
          return 0
        else
          queueSendLoop queue source timeoutTicks deadline fuel true

def jrtQueueSend (queue : Ptr) (source : Nat → UInt8) (timeoutTicks : UInt32) (inIsr : Bool)
    (fuel : Nat) : Code UInt32 := do
  let deadline ← taskWaitDeadline timeoutTicks
  if inIsr then
    countContextMisuse fun c => { c with queueSend := c.queueSend + 1 }
    return 0
  else
    queueSendLoop queue source timeoutTicks deadline fuel false

/-- The loop of `JRT_QueueReceive`, with `fuel` iterations left. -/
def queueReceiveLoop (queue : Ptr) (timeoutTicks : UInt32) (deadline : TaskWaitDeadline) :
    Nat → Bool → Code (UInt32 × Option (List UInt8))
  | 0, _ => .halt .hang
  | fuel + 1, reserved => do
      let saved ← criticalEnter
      let k ← readKernel
      if queueReceiveAccepts (k.queues queue) reserved then
        let item := (k.queues queue).front
        modifyKernel fun k =>
          let q := k.queues queue
          let q := if reserved then q.withReceiveReservations (q.receiveReservations - 1) else q
          k.setQueue queue q.pop
        queueWakeSender queue
        criticalExit saved
        return (1, some item)
      else if timeoutTicks = 0 then
        criticalExit saved
        return (0, none)
      else
        let woken ← taskBlockUntilLocked (.ptr queue) .queueReceive deadline saved
        if woken = 0 then
          return (0, none)
        else
          queueReceiveLoop queue timeoutTicks deadline fuel true

/-- `JRT_QueueReceive`, with what it stores at `item`. -/
def jrtQueueReceive (queue : Ptr) (timeoutTicks : UInt32) (inIsr : Bool) (fuel : Nat) :
    Code (UInt32 × Option (List UInt8)) := do
  let deadline ← taskWaitDeadline timeoutTicks
  if inIsr then
    countContextMisuse fun c => { c with queueReceive := c.queueReceive + 1 }
    return (0, none)
  else
    queueReceiveLoop queue timeoutTicks deadline fuel false

def jrtQueueSendFromIsr (queue : Ptr) (source : Nat → UInt8) (inIsr : Bool) : Code UInt32 := do
  if !inIsr then
    countContextMisuse fun c => { c with queueSendFromIsr := c.queueSendFromIsr + 1 }
    return 0
  else
    let saved ← criticalEnter
    modifyKernel fun k => k.mapDiag Diagnostics.isrSendAttempted
    let k ← readKernel
    if queueSendAccepts (k.queues queue) false then
      modifyKernel fun k => k.setQueue queue ((k.queues queue).push source)
      modifyKernel fun k => k.mapDiag fun d => d.isrSendAccepted (k.queues queue).count
      queueWakeReceiver queue
      criticalExit saved
      archRequestSwitch
      return 1
    else
      modifyKernel fun k => k.mapDiag Diagnostics.isrSendDropped
      criticalExit saved
      return 0

/-! ## Timers -/

def jrtTimerSetCallback (timer callback argument : Ptr) : Code Unit := do
  if timer = 0 then
    return ()
  else
    let saved ← criticalEnter
    modifyKernel fun k => k.setTimer timer ((k.timers timer).withCallback callback argument)
    let k ← readKernel
    if callback ≠ 0 ∧ (k.timers timer).expirations ≠ 0 then
      modifyKernel taskTimerServiceWakeLocked
      criticalExit saved
      archRequestSwitch
    else
      criticalExit saved

/-- The part the operations that link a timer share: `start` runs behind
`timer_link_locked`, in one critical section with it. -/
def timerLinkAnd (timer : Ptr) (start : Kernel → Kernel) : Code Unit := do
  attemptKernel fun k => do
    let k ← timerLinkLocked k timer
    return ((), k)
  modifyKernel start

def jrtTimerStart (timer : Ptr) (delayTicks : UInt32) : Code Unit := do
  if timer = 0 then
    return ()
  else
    let saved ← criticalEnter
    timerLinkAnd timer fun k =>
      k.setTimer timer ((k.timers timer).started k.gKernelTicks delayTicks)
    criticalExit saved

def jrtTimerStartPeriodic (timer : Ptr) (periodTicks : UInt32) : Code Unit := do
  if timer = 0 ∨ periodTicks = 0 then
    return ()
  else
    let saved ← criticalEnter
    timerLinkAnd timer fun k =>
      k.setTimer timer ((k.timers timer).startedPeriodic k.gKernelTicks periodTicks)
    criticalExit saved

def jrtTimerRestart (timer : Ptr) : Code Unit := do
  if timer = 0 then
    return ()
  else
    let saved ← criticalEnter
    let k ← readKernel
    if (k.timers timer).reloadTicks ≠ 0 then
      timerLinkAnd timer fun k => k.setTimer timer ((k.timers timer).restarted k.gKernelTicks)
      criticalExit saved
    else
      criticalExit saved

def jrtTimerStop (timer : Ptr) : Code Unit := do
  if timer = 0 then
    return ()
  else
    let saved ← criticalEnter
    modifyKernel fun k => k.setTimer timer ((k.timers timer).withActive 0)
    criticalExit saved

def jrtTimerTakeExpirations (timer : Ptr) : Code UInt32 := do
  if timer = 0 then
    return 0
  else
    let saved ← criticalEnter
    let k ← readKernel
    modifyKernel fun k => k.setTimer timer ((k.timers timer).withExpirations 0)
    criticalExit saved
    return (k.timers timer).expirations

/-- The loop of `JRT_TimerDispatch`: call the callback `times` times. -/
def dispatchLoop (callback argument : Ptr) : Nat → Code Unit
  | 0 => return ()
  | times + 1 => do
      .leaveAt (.callback callback argument)
      dispatchLoop callback argument times

def jrtTimerDispatch (timer : Ptr) : Code Unit := do
  if timer = 0 then
    return ()
  else
    let saved ← criticalEnter
    let k ← readKernel
    let t := k.timers timer
    modifyKernel fun k =>
      if t.callback ≠ 0 then k.setTimer timer ((k.timers timer).withExpirations 0) else k
    criticalExit saved
    if t.callback = 0 then
      return ()
    else
      dispatchLoop t.callback t.argument t.expirations.toNat

/-- The loop of `kernel_timer_service_claim`, with `fuel` links left: the
callback and argument of the timer it claims. -/
def timerClaimLoop (saved : Bool) : Nat → Ptr → Code (Option (Ptr × Ptr))
  | 0, _ => .halt .hang
  | fuel + 1, timer => do
      if timer = 0 then
        taskTimerServiceBlockLocked saved
        return none
      else
        let k ← readKernel
        let t := k.timers timer
        if t.callback ≠ 0 ∧ t.expirations ≠ 0 then
          modifyKernel fun k => k.setTimer timer (t.withExpirations (t.expirations - 1))
          criticalExit saved
          return some (t.callback, t.argument)
        else
          timerClaimLoop saved fuel t.next

def kernelTimerServiceClaim : Code (Option (Ptr × Ptr)) := do
  let saved ← criticalEnter
  let k ← readKernel
  timerClaimLoop saved addressSpace k.timerList

/-! ## Memory pools -/

def readPools : Code Pools := do
  let s ← .read
  return s.pools

def writePoolWord (address : Ptr) (word : UInt32) : Code Unit :=
  .modify fun s =>
    { s with pools := { s.pools with memory := s.pools.memory.write address word } }

/-- The loop of `JRT_MemoryPoolAllocate`, with `fuel` blocks left. The block's
address is computed behind the critical section. -/
def allocateLoop (pool : Ptr) (saved : Bool) : Nat → UInt32 → Code Ptr
  | 0, _ => do
      criticalExit saved
      return 0
  | fuel + 1, index => do
      let k ← readPools
      let p := k.pools pool
      let word := bitmapAddress p.usedBitmap (index / 32)
      let mask := bitmapMask index
      if k.memory word &&& mask = 0 then
        writePoolWord word (k.memory word ||| mask)
        criticalExit saved
        let k ← readPools
        return (k.pools pool).storage + index * (k.pools pool).blockSize
      else
        allocateLoop pool saved fuel (index + 1)

def jrtMemoryPoolAllocate (pool : Ptr) : Code Ptr := do
  let k ← readPools
  if pool = 0 ∨ (k.pools pool).storage = 0 ∨ (k.pools pool).usedBitmap = 0 then
    return 0
  else
    let saved ← criticalEnter
    let k ← readPools
    allocateLoop pool saved (k.pools pool).blockCount.toNat 0

/-- `JRT_MemoryPoolFree`: the checks run with interrupts as they are. -/
def jrtMemoryPoolFree (pool block : Ptr) : Code UInt32 := do
  let k ← readPools
  let p := k.pools pool
  if pool = 0 ∨ block = 0 ∨ p.storage = 0 ∨ p.usedBitmap = 0 ∨ p.blockSize = 0 then
    return 0
  else if block < p.storage ∨ block ≥ p.storage + p.blockSize * p.blockCount then
    return 0
  else
    let offset := block - p.storage
    if offset % p.blockSize ≠ 0 then
      return 0
    else
      let index := offset / p.blockSize
      let mask := bitmapMask index
      let saved ← criticalEnter
      let k ← readPools
      let word := bitmapAddress (k.pools pool).usedBitmap (index / 32)
      if k.memory word &&& mask = 0 then
        criticalExit saved
        return 0
      else
        writePoolWord word (k.memory word &&& ~~~mask)
        criticalExit saved
        return 1

/-! ## The operations -/

/-- The operations of `task.c`, `sync.c`, `timer.c` and `mempool.c`, and the
internal ones of the tick, the switch, the supervisor calls and the timer
service. The two queue loops come with a number of iterations. -/
inductive Operation where
  | jrtTaskGetState (taskId : Nat) (state : Ptr)
  | jrtTaskGetStackInfo (taskId : Nat) (info : Ptr)
  | jrtTaskGetName (taskId : Nat) (name : Ptr)
  | jrtTaskGetPriority (taskId : Nat) (priority : Ptr)
  | kernelTaskSuspend (requestedTaskId : Nat)
  | kernelTaskResume (requestedTaskId : Nat)
  | sleepCurrent (ticks : UInt32)
  | jrtKernelGetTickCount
  | jrtKernelTickReached (deadline : UInt32)
  | jrtTaskDelayUntil (previousWake : Option UInt32) (periodTicks : UInt32)
  | taskBlock (object : WaitObject) (waitKind : TaskWaitKind) (timeoutTicks : UInt32)
  | jrtTaskNotify (taskId : Nat) (value : UInt32)
  | jrtTaskNotifyFromIsr (taskId : Nat) (value : UInt32)
  | jrtTaskNotifyTake (value : Ptr) (timeoutTicks : UInt32)
  | jrtEventGroupSetBits (group : Ptr) (bits : UInt32)
  | jrtEventGroupGetBits (group : Ptr)
  | jrtEventGroupSetBitsFromIsr (group : Ptr) (bits : UInt32)
  | jrtEventGroupWaitBits (group : Ptr) (bits : UInt32) (waitAll clearOnExit : Bool)
      (timeoutTicks : UInt32)
  | tickTasks
  | pendsvSwitch (currentSp : Ptr)
  | jrtKernelStart
  | jrtSemaphoreTake (semaphore : Ptr) (timeoutTicks : UInt32)
  | jrtSemaphoreGive (semaphore : Ptr)
  | jrtSemaphoreGiveFromIsr (semaphore : Ptr)
  | jrtMutexLock (mutex : Ptr) (timeoutTicks : UInt32)
  | jrtMutexUnlock (mutex : Ptr)
  | jrtQueueSend (queue : Ptr) (source : Nat → UInt8) (timeoutTicks : UInt32) (fuel : Nat)
  | jrtQueueReceive (queue : Ptr) (timeoutTicks : UInt32) (fuel : Nat)
  | jrtQueueSendFromIsr (queue : Ptr) (source : Nat → UInt8)
  | jrtTimerSetCallback (timer callback argument : Ptr)
  | jrtTimerStart (timer : Ptr) (delayTicks : UInt32)
  | jrtTimerStartPeriodic (timer : Ptr) (periodTicks : UInt32)
  | jrtTimerRestart (timer : Ptr)
  | jrtTimerStop (timer : Ptr)
  | jrtTimerTakeExpirations (timer : Ptr)
  | jrtTimerDispatch (timer : Ptr)
  | kernelTimerServiceClaim
  | jrtMemoryPoolAllocate (pool : Ptr)
  | jrtMemoryPoolFree (pool block : Ptr)

def forEffect {α : Type} (p : Code α) : Code Unit := do
  let _ ← p

def Operation.run (inIsr : Bool) : Operation → Code Unit
  | jrtTaskGetState taskId state => forEffect (Critical.jrtTaskGetState taskId state)
  | jrtTaskGetStackInfo taskId info => forEffect (Critical.jrtTaskGetStackInfo taskId info)
  | jrtTaskGetName taskId name => forEffect (Critical.jrtTaskGetName taskId name)
  | jrtTaskGetPriority taskId priority => forEffect (Critical.jrtTaskGetPriority taskId priority)
  | kernelTaskSuspend requestedTaskId => forEffect (Critical.kernelTaskSuspend requestedTaskId)
  | kernelTaskResume requestedTaskId => forEffect (Critical.kernelTaskResume requestedTaskId)
  | sleepCurrent ticks => Critical.sleepCurrent ticks
  | jrtKernelGetTickCount => forEffect Critical.jrtKernelGetTickCount
  | jrtKernelTickReached deadline => forEffect (Critical.jrtKernelTickReached deadline)
  | jrtTaskDelayUntil previousWake periodTicks =>
      forEffect (Critical.jrtTaskDelayUntil previousWake periodTicks)
  | taskBlock object waitKind timeoutTicks =>
      forEffect (Critical.taskBlock object waitKind timeoutTicks)
  | jrtTaskNotify taskId value => forEffect (Critical.jrtTaskNotify taskId value inIsr)
  | jrtTaskNotifyFromIsr taskId value =>
      forEffect (Critical.jrtTaskNotifyFromIsr taskId value inIsr)
  | jrtTaskNotifyTake value timeoutTicks =>
      forEffect (Critical.jrtTaskNotifyTake value timeoutTicks inIsr)
  | jrtEventGroupSetBits group bits => forEffect (Critical.jrtEventGroupSetBits group bits inIsr)
  | jrtEventGroupGetBits group => forEffect (Critical.jrtEventGroupGetBits group)
  | jrtEventGroupSetBitsFromIsr group bits =>
      forEffect (Critical.jrtEventGroupSetBitsFromIsr group bits inIsr)
  | jrtEventGroupWaitBits group bits waitAll clearOnExit timeoutTicks =>
      forEffect (Critical.jrtEventGroupWaitBits group bits waitAll clearOnExit timeoutTicks inIsr)
  | tickTasks => Critical.tickTasks
  | pendsvSwitch currentSp => forEffect (Critical.pendsvSwitch currentSp)
  | jrtKernelStart => forEffect Critical.jrtKernelStart
  | jrtSemaphoreTake semaphore timeoutTicks =>
      forEffect (Critical.jrtSemaphoreTake semaphore timeoutTicks inIsr)
  | jrtSemaphoreGive semaphore => Critical.jrtSemaphoreGive semaphore inIsr
  | jrtSemaphoreGiveFromIsr semaphore => Critical.jrtSemaphoreGiveFromIsr semaphore inIsr
  | jrtMutexLock mutex timeoutTicks => forEffect (Critical.jrtMutexLock mutex timeoutTicks inIsr)
  | jrtMutexUnlock mutex => forEffect (Critical.jrtMutexUnlock mutex inIsr)
  | jrtQueueSend queue source timeoutTicks fuel =>
      forEffect (Critical.jrtQueueSend queue source timeoutTicks inIsr fuel)
  | jrtQueueReceive queue timeoutTicks fuel =>
      forEffect (Critical.jrtQueueReceive queue timeoutTicks inIsr fuel)
  | jrtQueueSendFromIsr queue source =>
      forEffect (Critical.jrtQueueSendFromIsr queue source inIsr)
  | jrtTimerSetCallback timer callback argument =>
      Critical.jrtTimerSetCallback timer callback argument
  | jrtTimerStart timer delayTicks => Critical.jrtTimerStart timer delayTicks
  | jrtTimerStartPeriodic timer periodTicks => Critical.jrtTimerStartPeriodic timer periodTicks
  | jrtTimerRestart timer => Critical.jrtTimerRestart timer
  | jrtTimerStop timer => Critical.jrtTimerStop timer
  | jrtTimerTakeExpirations timer => forEffect (Critical.jrtTimerTakeExpirations timer)
  | jrtTimerDispatch timer => Critical.jrtTimerDispatch timer
  | kernelTimerServiceClaim => forEffect Critical.kernelTimerServiceClaim
  | jrtMemoryPoolAllocate pool => forEffect (Critical.jrtMemoryPoolAllocate pool)
  | jrtMemoryPoolFree pool block => forEffect (Critical.jrtMemoryPoolFree pool block)

end Critical

end JustRT
