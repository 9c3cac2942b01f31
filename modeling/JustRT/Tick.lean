import JustRT.Timer

/-!
# The kernel tick

`tick_tasks` and the run-time invariant checker it ends with. The timers
come first, in a walk with nothing to guard it against a list without end;
then each task's sleep and deadline; then the checks, with a tortoise and a
hare on both lists. The tick has interrupts masked from its beginning to
its end, so it is one step of the system.
-/

namespace JustRT

/-! ## The invariant checker -/

def kernelInvariantFail (k : Kernel) (code : JrtKernelInvariantCode) (taskId : Nat)
    (object : WaitObject) (aux : UInt32) : Halt :=
  .fatal .kernelInvariant
    (k.mapDiag fun d => { d with
      gKernelInvariantCode := code
      gKernelInvariantTask := taskId
      gKernelInvariantObject := object
      gKernelInvariantAux := aux
      gKernelInvariantTick := k.gKernelTicks
      gKernelInvariantActive := true })

def TaskState.toWord : TaskState → UInt32
  | .ready => 0
  | .running => 1
  | .sleeping => 2
  | .blocked => 3
  | .suspended => 4

def TaskWaitKind.toWord : TaskWaitKind → UInt32
  | .none => 0
  | .semaphore => 1
  | .queueSend => 2
  | .queueReceive => 3
  | .mutex => 4
  | .notification => 5
  | .eventGroup => 6
  | .timerService => 7

/-- The checks on one task record. A state or a wait kind is one of its
enumeration in the model, as every write of the kernel makes it, so the two range
checks never fire; a record that something else has written over is not in
reach of the model. -/
def checkTask (k : Kernel) (index : Nat) : Exec Unit :=
  let task := k.tasks index
  let fail code aux := .error (kernelInvariantFail k code index (.task index) aux)
  if task.state.toWord > TaskState.suspended.toWord then fail .taskState task.state.toWord
  else if task.state = .blocked then
    if task.waitObject = .null then fail .blockedWaitObject task.waitKind.toWord
    else if task.waitKind = .none
        ∨ task.waitKind.toWord > TaskWaitKind.timerService.toWord then
      fail .blockedWaitKind task.waitKind.toWord
    else .ok ()
  else if task.waitObject ≠ .null ∨ task.waitKind ≠ .none ∨ task.waitStart ≠ 0
      ∨ task.waitDeadline ≠ 0 ∨ task.waitForever ≠ 0 then
    fail .nonblockedWaitMetadata task.waitKind.toWord
  else .ok ()

theorem TaskState.toWord_le (state : TaskState) : ¬state.toWord > TaskState.suspended.toWord := by
  cases state <;> decide

theorem TaskWaitKind.toWord_le (waitKind : TaskWaitKind) :
    ¬waitKind.toWord > TaskWaitKind.timerService.toWord := by
  cases waitKind <;> decide

def kernelCheckInvariantsLocked (k : Kernel) : Exec Unit := do
  (List.range k.taskCount).forM (checkTask k)
  let (code, object) ← syncInvariantCheck k
  if code ≠ .none then
    throw (kernelInvariantFail k code uint32Max (.ptr object) 0)
  let (code, object) ← timerInvariantCheck k
  if code ≠ .none then
    throw (kernelInvariantFail k code uint32Max (.ptr object) 0)

/-! ## The tick -/

/-- The deadline of a blocked task has been reached. -/
def waitExpired (k : Kernel) (index : Nat) : Bool :=
  let task := k.tasks index
  task.state == .blocked && task.waitForever == 0
    && decide (k.gKernelTicks - task.waitStart ≥ task.waitDeadline - task.waitStart)

/-- Count a timeout of the given kind. -/
def countTimeout (k : Kernel) (waitKind : TaskWaitKind) : Kernel :=
  match waitKind with
  | .semaphore => k.mapDiag fun d =>
      { d with gWaitTimeoutSemaphore := d.gWaitTimeoutSemaphore + 1 }
  | .queueSend => k.mapDiag fun d =>
      { d with gWaitTimeoutQueueSend := d.gWaitTimeoutQueueSend + 1 }
  | .queueReceive => k.mapDiag fun d =>
      { d with gWaitTimeoutQueueReceive := d.gWaitTimeoutQueueReceive + 1 }
  | .mutex => k.mapDiag fun d =>
      { d with gWaitTimeoutMutex := d.gWaitTimeoutMutex + 1 }
  | _ => k

/-- The owner whose priority chain `tick_tasks` restores once the wait of
task `index` has ended. -/
def timeoutMutexOwner (k : Kernel) (index : Nat) : Option Nat :=
  let task := k.tasks index
  if task.waitKind = .mutex ∧ task.waitObject ≠ .null then
    let m := k.mutexes task.waitObject.mutexPtr
    if m.locked ≠ 0 ∧ m.owner < k.taskCount then some m.owner else none
  else none

/-- The body of the task loop of `tick_tasks`. -/
def tickTask (k : Kernel) (index : Nat) : Kernel :=
  let task := k.tasks index
  if task.state = .sleeping ∧ task.sleepTicks > 0 then
    let k := k.setTask index (task.withSleepTicks (task.sleepTicks - 1))
    if (k.tasks index).sleepTicks = 0 then
      let k := taskBenchmarkReleaseLocked k index false
      k.setTask index ((k.tasks index).withState .ready)
    else k
  else if waitExpired k index then
    let mutexOwnerId := timeoutMutexOwner k index
    let k := countTimeout (taskWaitEnd k index 0 false) task.waitKind
    match mutexOwnerId with
    | some owner => restorePriorityChain k owner
    | none => k
  else k

def advanceTicks (k : Kernel) : Kernel := { k with gKernelTicks := k.gKernelTicks + 1 }

/-- `tick_tasks` up to the invariant checks. -/
def tickTasksBody (k : Kernel) : Exec Kernel := do
  let k ← kernelTimerTick (advanceTicks k)
  return (List.range k.taskCount).foldl tickTask k

def tickTasks (k : Kernel) : Exec Kernel := do
  let k ← tickTasksBody k
  kernelCheckInvariantsLocked k
  return k

end JustRT
