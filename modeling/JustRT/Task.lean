import JustRT.Benchmark

/-!
# Waits, wake-ups and priorities

The functions of `task.c` that run inside a critical section and write
task records: the shared wait and wake transitions, priority inheritance
and restoration, suspension, notifications and event groups.

Each definition is one critical section, or a piece of one, as a function
of the kernel state. A call that blocks is cut where the critical section
ends: it answers `Flow.yields`, and `arch_yield()` is the caller's next
step. `inIsr` is what `arch_in_isr()` reads.
-/

namespace JustRT

/-- How a critical section of a blocking call leaves: with the call's
result, or with the caller `BLOCKED` and `arch_yield()` ahead. -/
inductive Flow where
  | returns (result : UInt32)
  | yields
deriving Repr, DecidableEq

/-! ## Wait and wake transitions -/

/-- `task_wait_deadline`: a relative timeout as an absolute deadline. -/
def taskWaitDeadline (k : Kernel) (timeoutTicks : UInt32) : TaskWaitDeadline :=
  { start := k.gKernelTicks
    tick := k.gKernelTicks + timeoutTicks
    forever := if timeoutTicks = jrtWaitForever then 1 else 0 }

/-- The record of a task whose wait begins. -/
def Task.waitBegun (t : Task) (object : WaitObject) (waitKind : TaskWaitKind)
    (deadline : TaskWaitDeadline) : Task :=
  { t with
    waitObject := object
    waitKind := waitKind
    waitStart := deadline.start
    waitDeadline := deadline.tick
    waitForever := deadline.forever
    waitResult := 0
    state := .blocked }

def taskWaitBeginUntil (k : Kernel) (task : Nat) (object : WaitObject)
    (waitKind : TaskWaitKind) (deadline : TaskWaitDeadline) : Kernel :=
  let k := taskBenchmarkCompleteLocked k task
  k.setTask task ((k.tasks task).waitBegun object waitKind deadline)

/-- `task_wait_begin`: the deadline is taken from the current tick. -/
def taskWaitBegin (k : Kernel) (task : Nat) (object : WaitObject)
    (waitKind : TaskWaitKind) (timeoutTicks : UInt32) : Kernel :=
  taskWaitBeginUntil k task object waitKind (taskWaitDeadline k timeoutTicks)

/-- The record of a task whose wait ended with `result`. -/
def Task.waitEnded (t : Task) (result : UInt32) : Task :=
  { t with
    state := .ready
    waitResult := result
    waitObject := .null
    waitKind := .none
    waitStart := 0
    waitDeadline := 0
    waitForever := 0 }

def taskWaitEnd (k : Kernel) (task : Nat) (result : UInt32) (coalesced : Bool) : Kernel :=
  let k := taskBenchmarkReleaseLocked k task coalesced
  k.setTask task ((k.tasks task).waitEnded result)

def Task.waitReset (t : Task) : Task :=
  { t with
    waitObject := .null
    waitKind := .none
    waitStart := 0
    waitDeadline := 0
    waitForever := 0
    waitResult := 0
    notificationValue := 0
    eventWaitBits := 0
    eventWaitAll := 0
    eventClearOnExit := 0 }

/-- `task_block_until_locked`, up to the yield. -/
def taskBlockUntilLocked (k : Kernel) (object : WaitObject) (waitKind : TaskWaitKind)
    (deadline : TaskWaitDeadline) : Flow × Kernel :=
  if deadline.forever = 0
      ∧ k.gKernelTicks - deadline.start ≥ deadline.tick - deadline.start then
    (.returns 0, k)
  else (.yields, taskWaitBeginUntil k k.currentTask object waitKind deadline)

def waitsOn (k : Kernel) (object : WaitObject) (waitKind : TaskWaitKind) (index : Nat) : Bool :=
  (k.tasks index).state == .blocked
    && (k.tasks index).waitObject == object
    && (k.tasks index).waitKind == waitKind

/-- One iteration of the scan in `task_wake_get_id`: a waiter replaces the
selected one if its priority is higher. -/
def wakeScanStep (k : Kernel) (object : WaitObject) (waitKind : TaskWaitKind)
    (selected : Option Nat) (index : Nat) : Option Nat :=
  if waitsOn k object waitKind index then
    match selected with
    | none => some index
    | some s => if (k.tasks index).priority > (k.tasks s).priority then some index else selected
  else selected

/-- The waiter `task_wake_get_id` selects. -/
def wakeSelect (k : Kernel) (object : WaitObject) (waitKind : TaskWaitKind) : Option Nat :=
  (List.range k.taskCount).foldl (wakeScanStep k object waitKind) none

/-- `task_wake_get_id`; `none` is `UINT32_MAX`. -/
def taskWakeGetId (k : Kernel) (object : WaitObject) (waitKind : TaskWaitKind) :
    Option Nat × Kernel :=
  match wakeSelect k object waitKind with
  | none => (none, k)
  | some s => (some s, taskWaitEnd k s 1 false)

def taskWake (k : Kernel) (object : WaitObject) (waitKind : TaskWaitKind) : Bool × Kernel :=
  let (id, k) := taskWakeGetId k object waitKind
  (id.isSome, k)

def taskTimerServiceWakeLocked (k : Kernel) : Kernel :=
  let task := k.tasks k.timerServiceTaskIndex
  if task.state = .blocked ∧ task.waitObject = .timerServiceWaitObject
      ∧ task.waitKind = .timerService then
    taskWaitEnd k k.timerServiceTaskIndex 1 false
  else k

/-- `task_timer_service_block_locked`, up to the yield. -/
def taskTimerServiceBlockLocked (k : Kernel) : Kernel :=
  taskWaitBegin k k.currentTask .timerServiceWaitObject .timerService jrtWaitForever

/-! ## Priority inheritance -/

def setPriority (k : Kernel) (task : Nat) (priority : Nat) : Kernel :=
  k.setTask task ((k.tasks task).withPriority priority)

/-- The task is blocked on a mutex: the test all three priority routines
make before they read `wait_object` as a mutex. -/
def blockedOnMutex (k : Kernel) (task : Nat) : Bool :=
  (k.tasks task).state == .blocked
    && (k.tasks task).waitKind == .mutex
    && (k.tasks task).waitObject != .null

def blockingMutex (k : Kernel) (task : Nat) : JrtMutex :=
  k.mutexes (k.tasks task).waitObject.mutexPtr

/-- The owner a chain continues with behind task `id`, if it continues. -/
def chainNext (k : Kernel) (id : Nat) : Option Nat :=
  if blockedOnMutex k id then
    let m := blockingMutex k id
    if m.locked = 0 ∨ m.owner ≥ k.taskCount ∨ m.owner = id then none
    else some m.owner
  else none

/-- The loop of `task_inherit_priority`, with `depth` iterations left. -/
def inheritLoop (inheritedPriority : Nat) : Nat → Nat → Kernel → Kernel
  | 0, _, k => k
  | depth + 1, ownerId, k =>
      if ownerId ≥ k.taskCount then k
      else
        let k := if (k.tasks ownerId).priority < inheritedPriority then
            setPriority k ownerId inheritedPriority
          else k
        match chainNext k ownerId with
        | none => k
        | some next => inheritLoop inheritedPriority depth next k

def taskInheritPriority (k : Kernel) (taskId : Nat) (priority : Nat) : Kernel :=
  inheritLoop priority k.taskCount taskId k

/-- Task `scan` is blocked on a mutex that task `id` owns. -/
def waitsForOwner (k : Kernel) (id scan : Nat) : Bool :=
  blockedOnMutex k scan
    && (blockingMutex k scan).locked != 0
    && (blockingMutex k scan).owner == id

/-- The scan of both restore routines: the base priority, raised to the
priority of each waiter on an owned mutex. -/
def effectivePriority (k : Kernel) (id : Nat) : Nat :=
  (List.range k.taskCount).foldl
    (fun effective scan =>
      if waitsForOwner k id scan ∧ (k.tasks scan).priority > effective then
        (k.tasks scan).priority
      else effective)
    (k.tasks id).basePriority

/-- The loop of `restore_priority_chain`, with `depth` iterations left. -/
def restoreLoop : Nat → Nat → Kernel → Kernel
  | 0, _, k => k
  | depth + 1, id, k =>
      if id ≥ k.taskCount then k
      else
        let oldPriority := (k.tasks id).priority
        let effective := effectivePriority k id
        let k := setPriority k id effective
        if effective = oldPriority then k
        else
          match chainNext k id with
          | none => k
          | some next => restoreLoop depth next k

def restorePriorityChain (k : Kernel) (startId : Nat) : Kernel :=
  restoreLoop k.taskCount startId k

def taskRestorePriority (k : Kernel) (taskId : Nat) : Kernel :=
  if taskId < k.taskCount then setPriority k taskId (effectivePriority k taskId) else k

/-! ## Delay and suspension -/

def sleepCurrent (k : Kernel) (ticks : UInt32) : Kernel :=
  let k := if ticks ≠ 0 then taskBenchmarkCompleteLocked k k.gCurrentTaskIndex else k
  k.setTask k.currentTask (((k.tasks k.currentTask).withSleepTicks ticks).withState
    (if ticks = 0 then .ready else .sleeping))

def resolveApplicationTaskId (k : Kernel) (requestedTaskId : Nat) (allowSelf : Bool) :
    Except JrtStatus Nat :=
  let taskId := if allowSelf ∧ requestedTaskId = jrtTaskIdSelf then k.gCurrentTaskIndex
    else requestedTaskId
  if taskId ≥ k.applicationTaskCount then .error .invalidTask else .ok taskId

def kernelTaskSuspend (k : Kernel) (requestedTaskId : Nat) : JrtStatus × Kernel :=
  if !k.kernelInitialized then (.notInitialized, k)
  else if !k.kernelStarted then (.invalidContext, k)
  else
    match resolveApplicationTaskId k requestedTaskId true with
    | .error status => (status, k)
    | .ok taskId =>
        if (k.tasks taskId).state ≠ .ready
            ∧ ((k.tasks taskId).state ≠ .running ∨ taskId ≠ k.gCurrentTaskIndex) then
          (.invalidState, k)
        else
          let k := if (k.tasks taskId).state = .running then
              taskBenchmarkCompleteLocked k taskId
            else k
          (.ok, k.setTask taskId ((k.tasks taskId).withState .suspended))

def kernelTaskResume (k : Kernel) (requestedTaskId : Nat) : JrtStatus × Kernel :=
  if !k.kernelInitialized then (.notInitialized, k)
  else if !k.kernelStarted then (.invalidContext, k)
  else
    match resolveApplicationTaskId k requestedTaskId false with
    | .error status => (status, k)
    | .ok taskId =>
        if (k.tasks taskId).state ≠ .suspended then (.invalidState, k)
        else
          let k := taskBenchmarkReleaseLocked k taskId false
          (.ok, k.setTask taskId ((k.tasks taskId).withState .ready))

/-! ## Notifications -/

/-- The context test of the operations with a task and an interrupt
variant. -/
def wrongContext (fromIsr inIsr : Bool) : Bool := if fromIsr then !inIsr else inIsr

/-- The critical section of `task_notify_common`; `none` is one of the two
early rejections. -/
def taskNotifyCommon (k : Kernel) (taskId : Nat) (value : UInt32) (fromIsr inIsr : Bool) :
    Option Kernel :=
  if wrongContext fromIsr inIsr then none
  else if taskId ≥ k.taskCount then none
  else
    let coalesced := decide (value ≠ 0 ∧ (k.tasks taskId).notificationValue ≠ 0)
    let k := k.setTask taskId
      ((k.tasks taskId).withNotification ((k.tasks taskId).notificationValue + value))
    if (k.tasks taskId).state = .blocked ∧ (k.tasks taskId).waitKind = .notification then
      some (taskWaitEnd k taskId 1 coalesced)
    else if coalesced then some (taskBenchmarkCoalescedLocked k taskId)
    else some k

/-- `JRT_TaskNotifyTake` up to its first exit: the call's result and the
value it stored, or the yield. -/
def jrtTaskNotifyTake (k : Kernel) (value : Ptr) (timeoutTicks : UInt32) (inIsr : Bool) :
    Flow × Option UInt32 × Kernel :=
  if value = 0 ∨ inIsr then (.returns 0, none, k)
  else
    let current := k.currentTask
    let notification := (k.tasks current).notificationValue
    if notification ≠ 0 then
      (.returns 1, some notification,
        k.setTask current ((k.tasks current).withNotification 0))
    else if timeoutTicks = 0 then (.returns 0, none, k)
    else (.yields, none, taskWaitBegin k current (.task current) .notification timeoutTicks)

/-- `JRT_TaskNotifyTake` behind the yield. -/
def jrtTaskNotifyTakeResume (k : Kernel) : UInt32 × UInt32 × Kernel :=
  let notification := (k.tasks k.currentTask).notificationValue
  (if notification ≠ 0 then 1 else 0, notification,
    k.setTask k.currentTask ((k.tasks k.currentTask).withNotification 0))

/-! ## Event groups -/

def boolWord (b : Bool) : UInt32 := if b then 1 else 0

def eventCondition (current requested waitAll : UInt32) : Bool :=
  if waitAll ≠ 0 then current &&& requested == requested else current &&& requested != 0

def jrtEventGroupCreateStatic (k : Kernel) (group : Ptr) : Kernel :=
  if group ≠ 0 then k.setEventGroup group { bits := 0 } else k

/-- One iteration of the wake loop of `event_group_set_bits_common`. -/
def setBitsStep (group : Ptr) (k : Kernel) (index : Nat) : Kernel :=
  let task := k.tasks index
  if task.state = .blocked ∧ task.waitKind = .eventGroup ∧ task.waitObject = .ptr group
      ∧ eventCondition (k.eventGroups group).bits task.eventWaitBits task.eventWaitAll then
    taskWaitEnd k index 1 false
  else k

/-- The critical section of `event_group_set_bits_common`; `none` is the
early rejection. -/
def eventGroupSetBitsCommon (k : Kernel) (group : Ptr) (bits : UInt32) (fromIsr inIsr : Bool) :
    Option (UInt32 × Kernel) :=
  if group = 0 ∨ wrongContext fromIsr inIsr then none
  else
    let k := k.setEventGroup group { bits := (k.eventGroups group).bits ||| bits }
    let result := (k.eventGroups group).bits
    some (result, (List.range k.taskCount).foldl (setBitsStep group) k)

/-- `JRT_EventGroupWaitBits` up to its first exit. -/
def jrtEventGroupWaitBits (k : Kernel) (group : Ptr) (bits : UInt32)
    (waitAll clearOnExit : Bool) (timeoutTicks : UInt32) (inIsr : Bool) : Flow × Kernel :=
  if group = 0 ∨ bits = 0 ∨ inIsr then (.returns 0, k)
  else
    let result := (k.eventGroups group).bits
    if eventCondition result bits (boolWord waitAll) then
      let k := if clearOnExit then
          k.setEventGroup group { bits := (k.eventGroups group).bits &&& ~~~bits }
        else k
      (.returns (result &&& bits), k)
    else if timeoutTicks = 0 then (.returns 0, k)
    else
      let current := k.currentTask
      let k := k.setTask current ((k.tasks current).withEventWait bits
        (boolWord waitAll) (boolWord clearOnExit))
      (.yields, taskWaitBegin k current (.ptr group) .eventGroup timeoutTicks)

/-- `JRT_EventGroupWaitBits` behind the yield. -/
def jrtEventGroupWaitBitsResume (k : Kernel) (group : Ptr) (bits : UInt32) : UInt32 × Kernel :=
  let task := k.tasks k.currentTask
  let result := (k.eventGroups group).bits &&& bits
  let k := if eventCondition (k.eventGroups group).bits bits task.eventWaitAll
      ∧ task.eventClearOnExit ≠ 0 then
      k.setEventGroup group { bits := (k.eventGroups group).bits &&& ~~~bits }
    else k
  (result, k)

end JustRT
