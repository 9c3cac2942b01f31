import Mathlib.Algebra.Order.Ring.Nat

/-!
# The kernel's data

The records of `kernel.h`, `sync.h`, `timer.h` and `task.c`, and the one
state value `Kernel` that holds every variable of the kernel and every
object an application handed to it.

Counters, ticks and bit masks are `UInt32`, so their arithmetic wraps as
`uint32_t` does. Task identifiers and priorities are only compared and
used as indices, so they are `Nat`; `uint32Max` is the identifier
`UINT32_MAX` stands for "no task" with. Enumerations are inductive
types: the kernel writes no other value, and the two range checks the
invariant checker makes on them are kept all the same.

An object an application owns lives at a 32-bit address in the heap of
its type (`mutexes`, `queues`, ...): C gives two live objects different
addresses, and a pointer of one type is never used at another.
-/

namespace JustRT

/-- A 32-bit address; `0` is the null pointer. -/
abbrev Ptr := UInt32

/-- The words of a task stack, by address. -/
abbrev Memory := Ptr → UInt32

/-- `UINT32_MAX` as a task identifier: no task. -/
def uint32Max : Nat := 4294967295

def jrtWaitForever : UInt32 := 4294967295

def jrtTaskIdSelf : Nat := uint32Max

/-- More links than the address space has objects: a walk that follows
this many `next` pointers never reaches null. -/
def addressSpace : Nat := 4294967296

/-! ## Enumerations -/

inductive JrtStatus where
  | ok | invalidConfig | tooManyTasks | invalidEntry | invalidStack
  | invalidMemoryRegion | notInitialized | invalidTask | invalidState
  | invalidContext | invalidPriority
deriving Repr, DecidableEq

def JrtStatus.toWord : JrtStatus → UInt32
  | .ok => 0
  | .invalidConfig => 1
  | .tooManyTasks => 2
  | .invalidEntry => 3
  | .invalidStack => 4
  | .invalidMemoryRegion => 5
  | .notInitialized => 6
  | .invalidTask => 7
  | .invalidState => 8
  | .invalidContext => 9
  | .invalidPriority => 10

inductive TaskState where
  | ready | running | sleeping | blocked | suspended
deriving Repr, DecidableEq

inductive TaskWaitKind where
  | none | semaphore | queueSend | queueReceive | mutex | notification
  | eventGroup | timerService
deriving Repr, DecidableEq

inductive JrtKernelInvariantCode where
  | none | taskState | blockedWaitObject | blockedWaitKind
  | nonblockedWaitMetadata | mutexListCycle | mutexUnlockedState
  | mutexOwner | mutexRecursion | timerListCycle | timerPeriodicState
deriving Repr, DecidableEq

inductive JrtFatalReason where
  | processorFault | kernelInvariant | stackOverflow
deriving Repr, DecidableEq

/-- What `wait_object` points at: an application's object, a task record
(`&tasks[i]`, a notification wait), or `&timer_service_wait_object`. The
last two are link-time addresses, never null and never an application's. -/
inductive WaitObject where
  | ptr (address : Ptr)
  | task (index : Nat)
  | timerServiceWaitObject
deriving Repr, DecidableEq

def WaitObject.null : WaitObject := .ptr 0

/-- The object read as a `JRT_Mutex_t *`. -/
def WaitObject.mutexPtr : WaitObject → Ptr
  | .ptr address => address
  | _ => 0

/-! ## Objects -/

structure TaskWaitDeadline where
  start : UInt32
  tick : UInt32
  forever : UInt32
deriving Repr, DecidableEq

structure JrtSemaphore where
  available : UInt32
deriving Repr, DecidableEq

structure JrtMutex where
  locked : UInt32
  owner : Nat
  recursion : UInt32
  next : Ptr
deriving Repr, DecidableEq

def JrtMutex.withRecursion (m : JrtMutex) (recursion : UInt32) : JrtMutex := { m with recursion }

def JrtMutex.withNext (m : JrtMutex) (next : Ptr) : JrtMutex := { m with next }

/-- A queue. `storage` is the bytes behind the storage pointer, by offset. -/
structure JrtQueue where
  storage : Nat → UInt8
  capacity : UInt32
  itemSize : UInt32
  head : UInt32
  tail : UInt32
  count : UInt32
  sendReservations : UInt32
  receiveReservations : UInt32

def JrtQueue.withSendReservations (q : JrtQueue) (sendReservations : UInt32) : JrtQueue :=
  { q with sendReservations }

def JrtQueue.withReceiveReservations (q : JrtQueue) (receiveReservations : UInt32) : JrtQueue :=
  { q with receiveReservations }

structure JrtEventGroup where
  bits : UInt32
deriving Repr, DecidableEq

structure JrtTimer where
  deadline : UInt32
  period : UInt32
  reloadTicks : UInt32
  expirations : UInt32
  active : UInt8
  periodic : UInt8
  callback : Ptr
  argument : Ptr
  next : Ptr
deriving Repr, DecidableEq

def JrtTimer.withDeadline (t : JrtTimer) (deadline : UInt32) : JrtTimer := { t with deadline }

def JrtTimer.withExpirations (t : JrtTimer) (expirations : UInt32) : JrtTimer :=
  { t with expirations }

def JrtTimer.withActive (t : JrtTimer) (active : UInt8) : JrtTimer := { t with active }

def JrtTimer.withNext (t : JrtTimer) (next : Ptr) : JrtTimer := { t with next }

def JrtTimer.withCallback (t : JrtTimer) (callback argument : Ptr) : JrtTimer :=
  { t with callback, argument }

/-! ## Tasks -/

structure Task where
  stackBottom : Ptr
  stackTop : Ptr
  sp : Ptr
  state : TaskState
  sleepTicks : UInt32
  runCount : UInt32
  minimumSp : Ptr
  highWaterWords : UInt32
  entry : Ptr
  argument : Ptr
  priority : Nat
  basePriority : Nat
  name : String
  flags : UInt32
  privateDataBase : Ptr
  privateDataSize : UInt32
  waitObject : WaitObject
  waitKind : TaskWaitKind
  waitStart : UInt32
  waitDeadline : UInt32
  waitForever : UInt32
  waitResult : UInt32
  notificationValue : UInt32
  eventWaitBits : UInt32
  eventWaitAll : UInt32
  eventClearOnExit : UInt32
deriving Repr, DecidableEq

def Task.withState (t : Task) (state : TaskState) : Task := { t with state }

def Task.withPriority (t : Task) (priority : Nat) : Task := { t with priority }

def Task.withSp (t : Task) (sp : Ptr) : Task := { t with sp }

def Task.withRunCount (t : Task) (runCount : UInt32) : Task := { t with runCount }

def Task.withStackUsage (t : Task) (minimumSp : Ptr) (highWaterWords : UInt32) : Task :=
  { t with minimumSp, highWaterWords }

def Task.withSleepTicks (t : Task) (sleepTicks : UInt32) : Task := { t with sleepTicks }

@[simp] theorem Task.withSleepTicks_sleepTicks (t : Task) (n : UInt32) :
    (t.withSleepTicks n).sleepTicks = n := rfl

def Task.withNotification (t : Task) (notificationValue : UInt32) : Task :=
  { t with notificationValue }

/-- Write the three fields of an event-group wait. -/
def Task.withEventWait (t : Task) (eventWaitBits eventWaitAll eventClearOnExit : UInt32) : Task :=
  { t with eventWaitBits, eventWaitAll, eventClearOnExit }

structure JrtTaskBenchmarkRecord where
  releaseCount : UInt32
  completionCount : UInt32
  coalescedCount : UInt32
  releaseCycle : UInt32
  activationStartCycle : UInt32
  maxReleaseLatencyCycles : UInt32
  maxActivationCycles : UInt32
  periodCycles : UInt32
  releasePending : Bool
  activationActive : Bool
deriving Repr, DecidableEq

/-- The variables of `benchmark.c` and the cycle counter it reads. A build
without `JRT_ENABLE_TASK_BENCHMARK` is one whose counter is unavailable:
every hook returns at its first test. -/
structure Benchmark where
  records : Nat → JrtTaskBenchmarkRecord
  cycleCounterAvailable : Bool
  taskCount : Nat
  cycleFrequencyHz : UInt32
  initialized : Bool
  dwtCyccnt : UInt32

/-- The dynamic MPU regions and the values `port_cm7.c` caches of them. A
region is its base and attribute registers. -/
structure Mpu where
  hasMpu : Bool
  ctrl : UInt32
  region : Nat → UInt32 × UInt32
  gMpuStackGuardBase : UInt32
  gMpuStackGuardUpdates : UInt32
  gMpuPrivateDataBase : UInt32
  gMpuPrivateDataSize : UInt32
  gMpuPrivateDataUpdates : UInt32

/-! ## Diagnostics

Counters and records the kernel writes for a debugger and never reads
back, except for the maxima it compares against. -/

/-- The counters of API calls made in the wrong context (`sync.c`). -/
structure SyncMisuse where
  context : UInt32
  semaphoreTake : UInt32
  semaphoreGive : UInt32
  semaphoreGiveFromIsr : UInt32
  mutexLock : UInt32
  mutexUnlock : UInt32
  queueSend : UInt32
  queueReceive : UInt32
  queueSendFromIsr : UInt32
deriving Repr, DecidableEq

structure Diagnostics where
  gContextSwitches : UInt32
  gReadyScanDepthMax : Nat
  gSchedPass1ItersTotal : UInt32
  gSchedPass2ItersTotal : UInt32
  gSchedPass2ItersMax : Nat
  gWaitTimeoutSemaphore : UInt32
  gWaitTimeoutQueueSend : UInt32
  gWaitTimeoutQueueReceive : UInt32
  gWaitTimeoutMutex : UInt32
  gStackFault : UInt32
  gStackFaultTask : Nat
  gStackFaultSp : UInt32
  gStackHighWaterWords : UInt32
  gStackHighWaterTask : Nat
  gKernelInvariantActive : Bool
  gKernelInvariantCode : JrtKernelInvariantCode
  gKernelInvariantTask : Nat
  gKernelInvariantObject : WaitObject
  gKernelInvariantAux : UInt32
  gKernelInvariantTick : UInt32
  gSyncMisuse : SyncMisuse
  gIsrQueueSendAttempted : UInt32
  gIsrQueueSendAccepted : UInt32
  gIsrQueueSendDropped : UInt32
  gIsrQueueCountHighWater : UInt32
deriving Repr, DecidableEq

/-! ## The kernel -/

/-- Every variable of the kernel. `tasks` is the table `tasks[]`; the code
only reads the first `taskCount` records. `currentTask` is the index of
the record the pointer `current_task` points at. -/
structure Kernel where
  tasks : Nat → Task
  taskCount : Nat
  applicationTaskCount : Nat
  gCurrentTaskIndex : Nat
  currentTask : Nat
  kernelInitialized : Bool
  kernelStarted : Bool
  timerServiceTaskIndex : Nat
  gKernelTicks : UInt32
  semaphores : Ptr → JrtSemaphore
  mutexes : Ptr → JrtMutex
  mutexList : Ptr
  queues : Ptr → JrtQueue
  eventGroups : Ptr → JrtEventGroup
  timers : Ptr → JrtTimer
  timerList : Ptr
  benchmark : Benchmark
  mpu : Mpu
  memory : Memory
  diag : Diagnostics

/-- How a kernel function fails to return: `kernel_fatal` masks interrupts
and halts, and a loop over a list that never reaches null hangs. -/
inductive Halt where
  | fatal (reason : JrtFatalReason) (kernel : Kernel)
  | hang

/-- The result of a kernel function that may not return. -/
abbrev Exec (α : Type) := Except Halt α

namespace Kernel

def setTask (k : Kernel) (i : Nat) (t : Task) : Kernel :=
  { k with tasks := fun j => if j = i then t else k.tasks j }

def setSemaphore (k : Kernel) (a : Ptr) (s : JrtSemaphore) : Kernel :=
  { k with semaphores := fun b => if b = a then s else k.semaphores b }

def setMutex (k : Kernel) (a : Ptr) (m : JrtMutex) : Kernel :=
  { k with mutexes := fun b => if b = a then m else k.mutexes b }

def setQueue (k : Kernel) (a : Ptr) (q : JrtQueue) : Kernel :=
  { k with queues := fun b => if b = a then q else k.queues b }

def setEventGroup (k : Kernel) (a : Ptr) (g : JrtEventGroup) : Kernel :=
  { k with eventGroups := fun b => if b = a then g else k.eventGroups b }

def setTimer (k : Kernel) (a : Ptr) (t : JrtTimer) : Kernel :=
  { k with timers := fun b => if b = a then t else k.timers b }

def mapDiag (k : Kernel) (f : Diagnostics → Diagnostics) : Kernel := { k with diag := f k.diag }

theorem setTask_tasks (k : Kernel) (i : Nat) (t : Task) (j : Nat) :
    (k.setTask i t).tasks j = if j = i then t else k.tasks j := rfl

@[simp] theorem setTask_tasks_self (k : Kernel) (i : Nat) (t : Task) :
    (k.setTask i t).tasks i = t := by simp [setTask]

theorem setTask_tasks_of_ne (k : Kernel) {i j : Nat} (h : j ≠ i) (t : Task) :
    (k.setTask i t).tasks j = k.tasks j := by simp [setTask, h]

end Kernel

end JustRT
