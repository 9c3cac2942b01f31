import JustRT.PendSV

/-!
# Initialisation

`JRT_KernelInit` with its validation and the preparation of every task,
and `JRT_KernelStart`. What the build and the link of an image fix is one
record `Image`; its last fields are what `kernel.h` refuses to compile
without.

The validation comes first and writes nothing, so a configuration that is
refused leaves the kernel as it was. What comes behind it cannot fail but
in the setters of the memory protection unit. The application's tasks are
prepared in the order of the table, then the timer service and the idle
task, each stack filled from its lowest word up and the initial frame put
on top: where two stacks share words it is this order that decides what
they hold.
-/

namespace JustRT

/-- The constants of an image: `JRTConfig.h`, the port's minimum, and the
link-time addresses. -/
structure Image where
  jrtMaxApplicationTasks : Nat
  jrtMaxTaskPriority : Nat
  jrtTimerServicePriority : Nat
  jrtIdleStackWords : UInt32
  jrtTimerServiceStackWords : UInt32
  jrtMinimumTaskStackWords : UInt32
  jrtCoreClockHz : UInt32
  jrtTickRateHz : UInt32
  cycleCounterAvailable : Bool
  idleTaskStorage : Ptr
  timerServiceTaskStorage : Ptr
  idleBody : Ptr
  timerServiceBody : Ptr
  taskExitTrap : Ptr
  sections : LinkerSections
  maxApplicationTasks_pos : 0 < jrtMaxApplicationTasks
  maxApplicationTasks_le : jrtMaxApplicationTasks ≤ uint32Max - 3
  timerServicePriority_pos : 0 < jrtTimerServicePriority
  timerServicePriority_le : jrtTimerServicePriority ≤ jrtMaxTaskPriority
  tickRateHz_pos : 0 < jrtTickRateHz

def jrtInternalTaskCount : Nat := 2

def Image.jrtMaxSchedulerTasks (img : Image) : Nat := img.jrtMaxApplicationTasks + 3

def jrtInitialStackUsedWords : UInt32 := 17

def archInitialExcReturn : UInt32 := 0xFFFFFFFD

def jrtTaskFlagUnprivileged : UInt32 := 1

structure JrtTaskDefinition where
  entry : Ptr
  argument : Ptr
  stackBuffer : Ptr
  stackWords : UInt32
  stackGuard : Ptr
  priority : Nat
  name : String
  flags : UInt32
  privateDataBase : Ptr
  privateDataSize : UInt32
  benchmarkPeriodTicks : UInt32
deriving Repr, DecidableEq

/-- `JRT_KernelConfig_t`; a null `tasks` pointer is `none`. -/
structure JrtKernelConfig where
  tasks : Option (Nat → JrtTaskDefinition)
  taskCount : Nat

/-! ## Stacks -/

/-- The loop of `fill_stack`, with `fuel` words left. -/
def fillStackLoop (stackTop : Ptr) : Nat → Ptr → Memory → Memory
  | 0, _, memory => memory
  | fuel + 1, word, memory =>
      if word < stackTop then
        fillStackLoop stackTop fuel (word + 4)
          (fun a => if a = word then jrtTaskStackFill else memory a)
      else memory

def fillStack (memory : Memory) (stackBottom stackTop : Ptr) : Memory :=
  fillStackLoop stackTop ((stackTop - stackBottom) / 4).toNat stackBottom memory

def pushWord (s : Ptr × Memory) (value : UInt32) : Ptr × Memory :=
  (s.1 - 4, fun a => if a = s.1 - 4 then value else s.2 a)

def archBuildInitialStack (img : Image) (memory : Memory) (stackTop entry argument : Ptr) :
    Ptr × Memory :=
  [ 0x01000000, entry &&& ~~~1, img.taskExitTrap ||| 1, 0, 0, 0, 0, argument,
    0, 0, 0, 0, 0, 0, 0, 0, archInitialExcReturn ].foldl pushWord (stackTop, memory)

/-! ## Validation -/

def JrtTaskDefinition.stackEnd (d : JrtTaskDefinition) : Ptr :=
  d.stackBuffer + d.stackWords * 4

def validateTaskStack (img : Image) (tasks : Nat → JrtTaskDefinition) (index : Nat) :
    JrtStatus :=
  let d := tasks index
  let guard := d.stackGuard
  let stack := d.stackBuffer
  if d.stackBuffer = 0 ∨ d.stackGuard = 0 ∨ d.stackWords < img.jrtMinimumTaskStackWords
      ∨ d.stackWords &&& 1 ≠ 0 ∨ stack &&& 7 ≠ 0 ∨ guard &&& 31 ≠ 0 ∨ guard + 32 ≠ stack
      ∨ d.stackWords > 4294967295 / 4 then
    .invalidStack
  else if d.stackEnd < stack then .invalidStack
  else if (List.range index).any fun previous =>
      decide (guard < (tasks previous).stackEnd ∧ (tasks previous).stackGuard < d.stackEnd) then
    .invalidStack
  else .ok

def rangesOverlap (firstStart firstEnd secondStart secondEnd : UInt32) : Bool :=
  decide (firstStart < secondEnd ∧ secondStart < firstEnd)

def validatePrivateRegion (img : Image) (tasks : Nat → JrtTaskDefinition) (taskCount index : Nat) :
    JrtStatus :=
  let d := tasks index
  let base := d.privateDataBase
  let size := d.privateDataSize
  let stop := base + size
  if base = 0 ∧ size = 0 then .ok
  else if base = 0 ∨ size < 32 ∨ size &&& (size - 1) ≠ 0 ∨ base &&& (size - 1) ≠ 0
      ∨ d.flags &&& jrtTaskFlagUnprivileged = 0 then
    .invalidMemoryRegion
  else if stop < base ∨ base < img.sections.taskPrivateDataStart
      ∨ stop > img.sections.taskPrivateDataEnd then
    .invalidMemoryRegion
  else if (List.range taskCount).any fun other =>
      let o := tasks other
      rangesOverlap base stop o.stackGuard o.stackEnd
        || (decide (other < index) && o.privateDataBase != 0
          && rangesOverlap base stop o.privateDataBase (o.privateDataBase + o.privateDataSize))
      then
    .invalidMemoryRegion
  else if rangesOverlap base stop img.timerServiceTaskStorage
        (img.timerServiceTaskStorage + 32 + img.jrtTimerServiceStackWords * 4)
      ∨ rangesOverlap base stop img.idleTaskStorage
        (img.idleTaskStorage + 32 + img.jrtIdleStackWords * 4) then
    .invalidMemoryRegion
  else .ok

/-- One iteration of the first loop of `JRT_KernelInit`. -/
def validateDefinition (img : Image) (tasks : Nat → JrtTaskDefinition) (index : Nat) :
    JrtStatus :=
  let d := tasks index
  if d.entry = 0 then .invalidEntry
  else if d.priority > img.jrtMaxTaskPriority then .invalidPriority
  else if validateTaskStack img tasks index ≠ .ok then .invalidStack
  else .ok

/-- A validation loop: the first status that is not OK. -/
def firstFailure (taskCount : Nat) (validate : Nat → JrtStatus) : JrtStatus :=
  (((List.range taskCount).map validate).find? (· != .ok)).getD .ok

/-! ## Preparing the tasks -/

/-- The fields every prepare function sets, on the stack at `stackBottom`. -/
def prepareRecord (img : Image) (k : Kernel) (index : Nat) (stackBottom stackTop : Ptr)
    (entry argument : Ptr) (priority : Nat) (name : String) (flags : UInt32)
    (privateDataBase : Ptr) (privateDataSize : UInt32) : Kernel :=
  let memory := fillStack k.memory stackBottom stackTop
  let (sp, memory) := archBuildInitialStack img memory stackTop entry argument
  let k := { k with memory }
  k.setTask index { (k.tasks index).waitReset with
    stackBottom, stackTop, sp
    minimumSp := sp
    highWaterWords := jrtInitialStackUsedWords
    entry, argument, priority
    basePriority := priority
    name, flags, privateDataBase, privateDataSize }

def prepareTask (img : Image) (k : Kernel) (index : Nat) (d : JrtTaskDefinition) : Kernel :=
  let k := prepareRecord img k index d.stackBuffer d.stackEnd d.entry d.argument d.priority
    d.name d.flags d.privateDataBase d.privateDataSize
  k.setTask index ((k.tasks index).withState .ready)

def prepareIdleTask (img : Image) (k : Kernel) : Kernel :=
  let idleIndex := k.taskCount - 1
  let bottom := img.idleTaskStorage + 32
  let k := prepareRecord img k idleIndex bottom (bottom + img.jrtIdleStackWords * 4)
    img.idleBody 0 0 "idle" 0 0 0
  k.setTask idleIndex ((k.tasks idleIndex).withState .ready)

/-- `prepare_timer_service_task`: the task starts blocked on its wait
object. -/
def prepareTimerServiceTask (img : Image) (k : Kernel) (index : Nat) : Kernel :=
  let k := { k with timerServiceTaskIndex := index }
  let bottom := img.timerServiceTaskStorage + 32
  let k := prepareRecord img k index bottom (bottom + img.jrtTimerServiceStackWords * 4)
    img.timerServiceBody 0 img.jrtTimerServicePriority "timer-service" 0 0 0
  taskWaitBegin k index .timerServiceWaitObject .timerService jrtWaitForever

/-- The diagnostics `JRT_KernelInit` clears. -/
def Diagnostics.cleared (d : Diagnostics) : Diagnostics :=
  { d with
    gContextSwitches := 0
    gReadyScanDepthMax := 0
    gSchedPass1ItersTotal := 0
    gSchedPass2ItersTotal := 0
    gSchedPass2ItersMax := 0
    gWaitTimeoutSemaphore := 0
    gWaitTimeoutQueueSend := 0
    gWaitTimeoutQueueReceive := 0
    gWaitTimeoutMutex := 0
    gStackHighWaterWords := 0
    gStackHighWaterTask := 0
    gKernelInvariantActive := false
    gKernelInvariantCode := .none
    gKernelInvariantTask := 0
    gKernelInvariantObject := .null
    gKernelInvariantAux := 0
    gKernelInvariantTick := 0 }

/-- The part of `JRT_KernelInit` behind its validation. -/
def kernelSetUp (img : Image) (k : Kernel) (tasks : Nat → JrtTaskDefinition) (taskCount : Nat) :
    Exec Kernel := do
  let k := { k with
    applicationTaskCount := taskCount
    taskCount := taskCount + jrtInternalTaskCount
    benchmark := taskBenchmarkInit k.benchmark img.cycleCounterAvailable img.jrtCoreClockHz
      img.jrtTickRateHz (taskCount + jrtInternalTaskCount)
      (fun i => (tasks i).benchmarkPeriodTicks) taskCount }
  let k := (List.range taskCount).foldl (fun k index => prepareTask img k index (tasks index)) k
  let k := prepareTimerServiceTask img k taskCount
  let k := prepareIdleTask img k
  let k := { k with
    currentTask := 0
    gCurrentTaskIndex := 0
    diag := k.diag.cleared
    kernelStarted := false }
  let first := k.tasks 0
  let mpu ← archConfigureMpu k.mpu img.sections (taskStackGuard first)
    first.privateDataBase first.privateDataSize
  let k := { k with mpu }
  let k := k.setTask 0 ((k.tasks 0).withState .running)
  return { k with kernelInitialized := true }

/-- `JRT_KernelInit`. A null `config` is `none`. -/
def jrtKernelInit (img : Image) (k : Kernel) (config : Option JrtKernelConfig) :
    Exec (JrtStatus × Kernel) := do
  let some config := config | return (.invalidConfig, k)
  let some tasks := config.tasks | return (.invalidConfig, k)
  if config.taskCount = 0 then
    return (.invalidConfig, k)
  if config.taskCount > img.jrtMaxApplicationTasks then
    return (.tooManyTasks, k)
  if config.taskCount + jrtInternalTaskCount > img.jrtMaxSchedulerTasks then
    return (.tooManyTasks, k)
  let status := firstFailure config.taskCount (validateDefinition img tasks)
  if status ≠ .ok then
    return (status, k)
  if firstFailure config.taskCount (validatePrivateRegion img tasks config.taskCount) ≠ .ok then
    return (.invalidMemoryRegion, k)
  let k ← kernelSetUp img k tasks config.taskCount
  return (.ok, k)

/-- `JRT_KernelStart`, up to the first task. An uninitialised kernel spins
forever. -/
def jrtKernelStart (k : Kernel) : Exec Kernel :=
  if k.kernelInitialized then .ok { k with kernelStarted := true } else .error .hang

end JustRT
