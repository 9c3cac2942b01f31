import JustRT.Scheduler

/-!
# Task records, apart from their waits

`TaskLedger` is what a task record holds besides its wait, its effective
priority and its counters: what initialisation gave it, the stack pointer
of its last switch-out, and the notifications it has not taken. Three
things write it: a switch-out, a notification and a take. Everything else
in the kernel leaves all ledgers alone, and `StepCases.ledger` says of one
step what it makes of them.

A wait is seen through `WaitView`, a priority through `Kernel.prio`, a
sleep through `Kernel.sleep`, what is only measured through `Kernel.meter`,
and the rest through the ledger. A proof picks the one it is about, and
gets the frame of every function for it from one lemma.
-/

namespace JustRT

/-! ## The ledger of a task -/

/-- What initialisation gives a task for good. No step of a run writes these
fields, so what the configuration promises of them holds in every reachable
state. -/
structure TaskSetup where
  stackBottom : Ptr
  stackTop : Ptr
  entry : Ptr
  argument : Ptr
  basePriority : Nat
  name : String
  flags : UInt32
  privateDataBase : Ptr
  privateDataSize : UInt32
deriving DecidableEq

structure TaskLedger where
  setup : TaskSetup
  sp : Ptr
  notificationValue : UInt32
deriving DecidableEq

def Task.setup (t : Task) : TaskSetup :=
  { stackBottom := t.stackBottom
    stackTop := t.stackTop
    entry := t.entry
    argument := t.argument
    basePriority := t.basePriority
    name := t.name
    flags := t.flags
    privateDataBase := t.privateDataBase
    privateDataSize := t.privateDataSize }

def Task.ledger (t : Task) : TaskLedger :=
  { setup := t.setup
    sp := t.sp
    notificationValue := t.notificationValue }

def Kernel.ledger (k : Kernel) (j : Nat) : TaskLedger := (k.tasks j).ledger

namespace TaskLedger

def withSp (l : TaskLedger) (sp : Ptr) : TaskLedger := { l with sp }

def withNotification (l : TaskLedger) (notificationValue : UInt32) : TaskLedger :=
  { l with notificationValue }

@[simp] theorem withSp_setup (l : TaskLedger) (sp : Ptr) : (l.withSp sp).setup = l.setup := rfl

@[simp] theorem withSp_sp (l : TaskLedger) (sp : Ptr) : (l.withSp sp).sp = sp := rfl

@[simp] theorem withSp_notificationValue (l : TaskLedger) (sp : Ptr) :
    (l.withSp sp).notificationValue = l.notificationValue := rfl

@[simp] theorem withNotification_setup (l : TaskLedger) (n : UInt32) :
    (l.withNotification n).setup = l.setup := rfl

@[simp] theorem withNotification_sp (l : TaskLedger) (n : UInt32) :
    (l.withNotification n).sp = l.sp := rfl

@[simp] theorem withNotification_notificationValue (l : TaskLedger) (n : UInt32) :
    (l.withNotification n).notificationValue = n := rfl

end TaskLedger

theorem ledger_notificationValue (k : Kernel) (j : Nat) :
    (k.ledger j).notificationValue = (k.tasks j).notificationValue := rfl

theorem ledger_eq_of_tasks_eq {k k' : Kernel} (h : k'.tasks = k.tasks) : k'.ledger = k.ledger := by
  funext j
  rw [Kernel.ledger, Kernel.ledger, h]

theorem setTask_ledger (k : Kernel) (i : Nat) (t : Task) :
    (k.setTask i t).ledger = Function.update k.ledger i t.ledger := by
  funext j
  by_cases h : j = i
  · simp [h, Kernel.ledger]
  · simp [h, Kernel.ledger, Kernel.setTask_tasks_of_ne]

theorem setTask_ledger_of_eq {k : Kernel} {i : Nat} {t : Task} (h : t.ledger = k.ledger i) :
    (k.setTask i t).ledger = k.ledger := by
  rw [setTask_ledger, h]
  exact Function.update_eq_self i k.ledger

/-! ## Functions that leave every ledger alone -/

@[simp] theorem setState_ledger (k : Kernel) (i : Nat) (state : TaskState) :
    (k.setTask i ((k.tasks i).withState state)).ledger = k.ledger :=
  setTask_ledger_of_eq rfl

@[simp] theorem setSemaphore_ledger (k : Kernel) (a : Ptr) (s : JrtSemaphore) :
    (k.setSemaphore a s).ledger = k.ledger := rfl

@[simp] theorem setMutex_ledger (k : Kernel) (a : Ptr) (m : JrtMutex) :
    (k.setMutex a m).ledger = k.ledger := rfl

@[simp] theorem setQueue_ledger (k : Kernel) (a : Ptr) (q : JrtQueue) :
    (k.setQueue a q).ledger = k.ledger := rfl

@[simp] theorem setEventGroup_ledger (k : Kernel) (a : Ptr) (g : JrtEventGroup) :
    (k.setEventGroup a g).ledger = k.ledger := rfl

@[simp] theorem setTimer_ledger (k : Kernel) (a : Ptr) (t : JrtTimer) :
    (k.setTimer a t).ledger = k.ledger := rfl

@[simp] theorem taskBenchmarkReleaseLocked_ledger (k : Kernel) (task : Nat) (coalesced : Bool) :
    (taskBenchmarkReleaseLocked k task coalesced).ledger = k.ledger := rfl

@[simp] theorem taskBenchmarkCoalescedLocked_ledger (k : Kernel) (task : Nat) :
    (taskBenchmarkCoalescedLocked k task).ledger = k.ledger := rfl

@[simp] theorem taskBenchmarkCompleteLocked_ledger (k : Kernel) (task : Nat) :
    (taskBenchmarkCompleteLocked k task).ledger = k.ledger := rfl

@[simp] theorem mapDiag_ledger (k : Kernel) (f : Diagnostics → Diagnostics) :
    (k.mapDiag f).ledger = k.ledger := rfl

@[simp] theorem countContextMisuse_ledger (k : Kernel) (bump : SyncMisuse → SyncMisuse) :
    (countContextMisuse k bump).ledger = k.ledger := rfl

@[simp] theorem taskWaitBeginUntil_ledger (k : Kernel) (task : Nat) (object : WaitObject)
    (waitKind : TaskWaitKind) (deadline : TaskWaitDeadline) :
    (taskWaitBeginUntil k task object waitKind deadline).ledger = k.ledger :=
  setTask_ledger_of_eq rfl

@[simp] theorem taskWaitBegin_ledger (k : Kernel) (task : Nat) (object : WaitObject)
    (waitKind : TaskWaitKind) (timeoutTicks : UInt32) :
    (taskWaitBegin k task object waitKind timeoutTicks).ledger = k.ledger :=
  taskWaitBeginUntil_ledger _ _ _ _ _

@[simp] theorem taskWaitEnd_ledger (k : Kernel) (task : Nat) (result : UInt32)
    (coalesced : Bool) : (taskWaitEnd k task result coalesced).ledger = k.ledger :=
  setTask_ledger_of_eq rfl

@[simp] theorem taskBlockUntilLocked_ledger (k : Kernel) (object : WaitObject)
    (waitKind : TaskWaitKind) (deadline : TaskWaitDeadline) :
    (taskBlockUntilLocked k object waitKind deadline).2.ledger = k.ledger := by
  unfold taskBlockUntilLocked
  split <;> simp

@[simp] theorem wakeSelected_ledger (k : Kernel) (selected : Option Nat) :
    (selected.elim k fun s => taskWaitEnd k s 1 false).ledger = k.ledger := by
  cases selected <;> simp

@[simp] theorem taskTimerServiceWakeLocked_ledger (k : Kernel) :
    (taskTimerServiceWakeLocked k).ledger = k.ledger := by
  simp only [taskTimerServiceWakeLocked]
  split <;> simp

@[simp] theorem taskTimerServiceBlockLocked_ledger (k : Kernel) :
    (taskTimerServiceBlockLocked k).ledger = k.ledger :=
  taskWaitBegin_ledger _ _ _ _ _

@[simp] theorem setPriority_ledger (k : Kernel) (task priority : Nat) :
    (setPriority k task priority).ledger = k.ledger :=
  setTask_ledger_of_eq rfl

@[simp] theorem inheritLoop_ledger (priority depth id : Nat) (k : Kernel) :
    (inheritLoop priority depth id k).ledger = k.ledger :=
  (inheritLoop_reprioritized priority depth id k).kept Kernel.ledger setPriority_ledger

@[simp] theorem taskInheritPriority_ledger (k : Kernel) (task priority : Nat) :
    (taskInheritPriority k task priority).ledger = k.ledger :=
  (taskInheritPriority_reprioritized k task priority).kept Kernel.ledger setPriority_ledger

@[simp] theorem restoreLoop_ledger (depth id : Nat) (k : Kernel) :
    (restoreLoop depth id k).ledger = k.ledger :=
  (restoreLoop_reprioritized depth id k).kept Kernel.ledger setPriority_ledger

@[simp] theorem restorePriorityChain_ledger (k : Kernel) (task : Nat) :
    (restorePriorityChain k task).ledger = k.ledger :=
  (restorePriorityChain_reprioritized k task).kept Kernel.ledger setPriority_ledger

@[simp] theorem taskRestorePriority_ledger (k : Kernel) (task : Nat) :
    (taskRestorePriority k task).ledger = k.ledger :=
  (taskRestorePriority_reprioritized k task).kept Kernel.ledger setPriority_ledger

@[simp] theorem sleepCurrent_ledger (k : Kernel) (ticks : UInt32) :
    (sleepCurrent k ticks).ledger = k.ledger := by
  simp only [sleepCurrent]
  split <;> exact setTask_ledger_of_eq rfl

@[simp] theorem kernelTaskSuspend_ledger (k : Kernel) (task : Nat) :
    (kernelTaskSuspend k task).2.ledger = k.ledger := by
  simp only [kernelTaskSuspend]
  repeat' split
  all_goals first | rfl | exact setTask_ledger_of_eq rfl

@[simp] theorem kernelTaskResume_ledger (k : Kernel) (task : Nat) :
    (kernelTaskResume k task).2.ledger = k.ledger := by
  simp only [kernelTaskResume]
  repeat' split
  all_goals first | rfl | exact setTask_ledger_of_eq rfl

@[simp] theorem setBitsStep_ledger (group : Ptr) (k : Kernel) (index : Nat) :
    (setBitsStep group k index).ledger = k.ledger := by
  simp only [setBitsStep]
  split <;> simp

theorem eventGroupSetBitsCommon_ledger {k k' : Kernel} {group : Ptr} {bits result : UInt32}
    {fromIsr inIsr : Bool}
    (h : eventGroupSetBitsCommon k group bits fromIsr inIsr = some (result, k')) :
    k'.ledger = k.ledger := by
  simp only [eventGroupSetBitsCommon] at h
  split at h
  · cases h
  · cases h
    exact Scan.foldl_rel (r := fun k k' : Kernel => k'.ledger = k.ledger) (fun _ => rfl)
      (fun h₁ h₂ => h₂.trans h₁) (setBitsStep_ledger group) _ _

@[simp] theorem jrtEventGroupWaitBits_ledger (k : Kernel) (group : Ptr) (bits : UInt32)
    (waitAll clearOnExit : Bool) (timeoutTicks : UInt32) (inIsr : Bool) :
    (jrtEventGroupWaitBits k group bits waitAll clearOnExit timeoutTicks inIsr).2.ledger
      = k.ledger := by
  simp only [jrtEventGroupWaitBits]
  split
  · rfl
  · split
    · cases clearOnExit <;> rfl
    · split
      · rfl
      · rw [taskWaitBegin_ledger]
        exact setTask_ledger_of_eq rfl

@[simp] theorem jrtEventGroupWaitBitsResume_ledger (k : Kernel) (group : Ptr) (bits : UInt32) :
    (jrtEventGroupWaitBitsResume k group bits).2.ledger = k.ledger := by
  simp only [jrtEventGroupWaitBitsResume]
  split <;> rfl

@[simp] theorem jrtSemaphoreTake_ledger (k : Kernel) (semaphore : Ptr) (timeoutTicks : UInt32)
    (deadline : TaskWaitDeadline) (inIsr : Bool) :
    (jrtSemaphoreTake k semaphore timeoutTicks deadline inIsr).2.ledger = k.ledger := by
  simp only [jrtSemaphoreTake]
  repeat' split
  all_goals simp

@[simp] theorem semaphoreGiveLocked_ledger (k : Kernel) (semaphore : Ptr) :
    (semaphoreGiveLocked k semaphore).ledger = k.ledger := by
  simp only [semaphoreGiveLocked, taskWake_eq]
  split <;> simp

@[simp] theorem jrtMutexLock_ledger (k : Kernel) (mutex : Ptr) (timeoutTicks : UInt32)
    (deadline : TaskWaitDeadline) (inIsr : Bool) :
    (jrtMutexLock k mutex timeoutTicks deadline inIsr).2.ledger = k.ledger := by
  simp only [jrtMutexLock]
  repeat' split
  all_goals simp

@[simp] theorem jrtMutexUnlock_ledger (k : Kernel) (mutex : Ptr) (inIsr : Bool) :
    (jrtMutexUnlock k mutex inIsr).2.ledger = k.ledger := by
  simp only [jrtMutexUnlock, taskWakeGetId_eq]
  split
  · simp
  · split
    · simp
    · split
      · simp
      · cases wakeSelect k (.ptr mutex) .mutex <;> simp

@[simp] theorem queueWakeReceiver_ledger (k : Kernel) (queue : Ptr) :
    (queueWakeReceiver k queue).ledger = k.ledger := by
  simp only [queueWakeReceiver, taskWake_eq]
  split <;> simp

@[simp] theorem queueWakeSender_ledger (k : Kernel) (queue : Ptr) :
    (queueWakeSender k queue).ledger = k.ledger := by
  simp only [queueWakeSender, taskWake_eq]
  split <;> simp

@[simp] theorem jrtQueueSend_ledger (k : Kernel) (queue : Ptr) (source : Nat → UInt8)
    (timeoutTicks : UInt32) (deadline : TaskWaitDeadline) (reserved inIsr : Bool) :
    (jrtQueueSend k queue source timeoutTicks deadline reserved inIsr).2.ledger = k.ledger := by
  simp only [jrtQueueSend]
  repeat' split
  all_goals simp

@[simp] theorem jrtQueueReceive_ledger (k : Kernel) (queue : Ptr) (timeoutTicks : UInt32)
    (deadline : TaskWaitDeadline) (reserved inIsr : Bool) :
    (jrtQueueReceive k queue timeoutTicks deadline reserved inIsr).2.2.ledger = k.ledger := by
  simp only [jrtQueueReceive]
  repeat' split
  all_goals simp

@[simp] theorem jrtQueueSendFromIsr_ledger (k : Kernel) (queue : Ptr) (source : Nat → UInt8)
    (inIsr : Bool) : (jrtQueueSendFromIsr k queue source inIsr).2.ledger = k.ledger := by
  simp only [jrtQueueSendFromIsr]
  repeat' split
  all_goals simp

@[simp] theorem jrtTimerSetCallback_ledger (k : Kernel) (timer callback argument : Ptr) :
    (jrtTimerSetCallback k timer callback argument).2.ledger = k.ledger := by
  simp only [jrtTimerSetCallback]
  repeat' split
  all_goals simp

@[simp] theorem timerTickStep_ledger (now : UInt32) (k : Kernel) (timer : Ptr) :
    (timerTickStep now k timer).ledger = k.ledger := by
  have hexpire : (timerExpire k timer).ledger = k.ledger := by
    simp only [timerExpire]
    split <;> simp
  unfold timerTickStep
  split
  · rw [ledger_eq_of_tasks_eq (timerRearm_frame _ timer).2, hexpire]
  · rfl

theorem timerTickLoop_ledger {now : UInt32} {fuel : Nat} {timer : Ptr} {k k' : Kernel}
    (h : timerTickLoop now fuel timer k = .ok k') : k'.ledger = k.ledger := by
  induction fuel generalizing timer k with
  | zero => cases h
  | succ fuel ih =>
      unfold timerTickLoop at h
      split at h
      · cases h
        rfl
      · rw [ih h, timerTickStep_ledger]

theorem kernelTimerServiceClaim_ledger {k k' : Kernel} {claimed : Option Ptr}
    (h : kernelTimerServiceClaim k = .ok (claimed, k')) : k'.ledger = k.ledger := by
  simp only [kernelTimerServiceClaim, exec_bind_eq_ok] at h
  obtain ⟨found, -, h⟩ := h
  cases found <;> cases h <;> simp

@[simp] theorem countTimeout_ledger (k : Kernel) (waitKind : TaskWaitKind) :
    (countTimeout k waitKind).ledger = k.ledger :=
  ledger_eq_of_tasks_eq (countTimeout_frame k waitKind).2

@[simp] theorem tickTask_ledger (k : Kernel) (index : Nat) :
    (tickTask k index).ledger = k.ledger := by
  have hslept : (k.setTask index ((k.tasks index).withSleepTicks
      ((k.tasks index).sleepTicks - 1))).ledger = k.ledger := setTask_ledger_of_eq rfl
  simp only [tickTask]
  split
  · split
    · exact Eq.trans (setTask_ledger_of_eq rfl) hslept
    · exact hslept
  · split
    · split <;> simp
    · rfl

theorem tickTasks_ledger {k k' : Kernel} (h : tickTasks k = .ok k') : k'.ledger = k.ledger := by
  obtain ⟨k₁, htimer, rfl⟩ := tickTasksBody_cases (tickTasks_body h)
  rw [Scan.foldl_rel (r := fun k k' : Kernel => k'.ledger = k.ledger) (fun _ => rfl)
    (fun h₁ h₂ => h₂.trans h₁) tickTask_ledger, timerTickLoop_ledger htimer]
  rfl

/-! ## Functions that write a ledger -/

/-- The ledgers behind `value` notified to `task`. -/
def Kernel.notifiedLedger (k : Kernel) (task : Nat) (value : UInt32) : Nat → TaskLedger :=
  if task < k.taskCount then
    Function.update k.ledger task
      ((k.ledger task).withNotification ((k.ledger task).notificationValue + value))
  else k.ledger

/-- The ledgers once `task` has taken what it was notified. -/
def Kernel.takenLedger (k : Kernel) (task : Nat) : Nat → TaskLedger :=
  Function.update k.ledger task ((k.ledger task).withNotification 0)

theorem taskNotifyCommon_ledger {k k' : Kernel} {task : Nat} {value : UInt32}
    {fromIsr inIsr : Bool} (h : taskNotifyCommon k task value fromIsr inIsr = some k') :
    k'.ledger = k.notifiedLedger task value := by
  obtain ⟨hlt, k₁, coalesced, hk₁, hcases⟩ := taskNotifyCommon_cases h
  have hadded : k₁.ledger = k.notifiedLedger task value := by
    rw [hk₁, setTask_ledger, Kernel.notifiedLedger, if_pos hlt]
    rfl
  rw [← hadded]
  rcases hcases with ⟨-, -, rfl⟩ | ⟨-, rfl | rfl⟩
  · exact taskWaitEnd_ledger k₁ task 1 coalesced
  · rfl
  · rfl

/-- In its own context a notification is refused only for want of a task. -/
theorem taskNotifyCommon_eq_none {k : Kernel} {task : Nat} {value : UInt32} {context : Bool}
    (h : taskNotifyCommon k task value context context = none) : k.taskCount ≤ task := by
  by_contra hlt
  have hcontext : wrongContext context context = false := by cases context <;> rfl
  simp only [taskNotifyCommon, hcontext] at h
  rw [if_neg Bool.false_ne_true, if_neg (by omega)] at h
  split at h
  · cases h
  · split at h <;> cases h

theorem jrtTaskNotifyTake_ledger (k : Kernel) {value : Ptr} (hvalue : value ≠ 0)
    (timeout : UInt32) :
    (jrtTaskNotifyTake k value timeout false).2.2.ledger = k.takenLedger k.currentTask := by
  have hnone : (k.tasks k.currentTask).notificationValue = 0 →
      k.ledger = k.takenLedger k.currentTask := fun hzero => by
    have hself : (k.ledger k.currentTask).withNotification 0 = k.ledger k.currentTask := by
      rw [← hzero]
      rfl
    rw [Kernel.takenLedger, hself, Function.update_eq_self]
  simp only [jrtTaskNotifyTake]
  rw [if_neg (by simp [hvalue])]
  split
  · exact setTask_ledger _ _ _
  · next hzero =>
      rw [ne_eq, not_not] at hzero
      split
      · exact hnone hzero
      · rw [taskWaitBegin_ledger]
        exact hnone hzero

theorem jrtTaskNotifyTakeResume_ledger (k : Kernel) :
    (jrtTaskNotifyTakeResume k).2.2.ledger = k.takenLedger k.currentTask :=
  setTask_ledger _ _ _

/-! ## Initialisation -/

def JrtTaskDefinition.setup (d : JrtTaskDefinition) : TaskSetup :=
  { stackBottom := d.stackBuffer
    stackTop := d.stackEnd
    entry := d.entry
    argument := d.argument
    basePriority := d.priority
    name := d.name
    flags := d.flags
    privateDataBase := d.privateDataBase
    privateDataSize := d.privateDataSize }

def Image.timerServiceSetup (img : Image) : TaskSetup :=
  { stackBottom := img.timerServiceTaskStorage + 32
    stackTop := img.timerServiceTaskStorage + 32 + img.jrtTimerServiceStackWords * 4
    entry := img.timerServiceBody
    argument := 0
    basePriority := img.jrtTimerServicePriority
    name := "timer-service"
    flags := 0
    privateDataBase := 0
    privateDataSize := 0 }

def Image.idleSetup (img : Image) : TaskSetup :=
  { stackBottom := img.idleTaskStorage + 32
    stackTop := img.idleTaskStorage + 32 + img.jrtIdleStackWords * 4
    entry := img.idleBody
    argument := 0
    basePriority := 0
    name := "idle"
    flags := 0
    privateDataBase := 0
    privateDataSize := 0 }

/-- The ledger of a task that has not run: 17 words of initial frame are on
its stack. -/
def TaskLedger.fresh (setup : TaskSetup) : TaskLedger :=
  { setup
    sp := setup.stackTop - 68
    notificationValue := 0 }

theorem archBuildInitialStack_sp (img : Image) (memory : Memory) (top entry argument : Ptr) :
    (archBuildInitialStack img memory top entry argument).1 = top - 68 := by
  simp only [archBuildInitialStack, List.foldl_cons, List.foldl_nil, pushWord]
  grind

theorem prepareRecord_ledger (img : Image) (k : Kernel) (index : Nat)
    (bottom top entry argument : Ptr) (priority : Nat) (name : String) (flags : UInt32)
    (base : Ptr) (size : UInt32) :
    (prepareRecord img k index bottom top entry argument priority name flags base size).ledger
      = Function.update k.ledger index (.fresh
          { stackBottom := bottom, stackTop := top, entry, argument, basePriority := priority
            name, flags, privateDataBase := base, privateDataSize := size }) := by
  have hsp := archBuildInitialStack_sp img (fillStack k.memory bottom top) top entry argument
  simp only [prepareRecord]
  generalize archBuildInitialStack img (fillStack k.memory bottom top) top entry argument = built
    at hsp ⊢
  obtain ⟨sp, memory⟩ := built
  rw [setTask_ledger, TaskLedger.fresh, ← hsp]
  rfl

theorem prepareTask_ledger (img : Image) (k : Kernel) (index : Nat) (d : JrtTaskDefinition) :
    (prepareTask img k index d).ledger = Function.update k.ledger index (.fresh d.setup) := by
  rw [prepareTask, setState_ledger, prepareRecord_ledger]
  rfl

theorem prepareTimerServiceTask_ledger (img : Image) (k : Kernel) (index : Nat) :
    (prepareTimerServiceTask img k index).ledger
      = Function.update k.ledger index (.fresh img.timerServiceSetup) := by
  rw [prepareTimerServiceTask, taskWaitBegin_ledger, prepareRecord_ledger]
  rfl

theorem prepareIdleTask_ledger (img : Image) (k : Kernel) :
    (prepareIdleTask img k).ledger
      = Function.update k.ledger (k.taskCount - 1) (.fresh img.idleSetup) := by
  rw [prepareIdleTask, setState_ledger, prepareRecord_ledger]
  rfl

theorem foldl_prepareTask_ledger (img : Image) (tasks : Nat → JrtTaskDefinition) (l : List Nat)
    (k : Kernel) (i : Nat) (hi : i ∈ l ∨ k.ledger i = .fresh (tasks i).setup) :
    (l.foldl (fun k index => prepareTask img k index (tasks index)) k).ledger i
      = .fresh (tasks i).setup := by
  induction l generalizing k with
  | nil => exact hi.resolve_left List.not_mem_nil
  | cons a l ih =>
      refine ih _ ?_
      rw [prepareTask_ledger]
      by_cases hia : i = a
      · rw [hia, Function.update_self]
        exact Or.inr rfl
      · rw [Function.update_of_ne hia]
        exact hi.imp_left fun hmem => (List.mem_cons.mp hmem).resolve_left hia

/-- The setups in the table behind a `JRT_KernelInit`. -/
def Image.setups (img : Image) (tasks : Nat → JrtTaskDefinition) (taskCount i : Nat) :
    TaskSetup :=
  if i < taskCount then (tasks i).setup
  else if i = taskCount then img.timerServiceSetup
  else img.idleSetup

/-- The kernel `JRT_KernelInit` has prepared when it comes to the memory
protection unit. -/
def kernelPrepared (img : Image) (k : Kernel) (tasks : Nat → JrtTaskDefinition)
    (taskCount : Nat) : Kernel :=
  let k := { k with
    applicationTaskCount := taskCount
    taskCount := taskCount + jrtInternalTaskCount
    benchmark := taskBenchmarkInit k.benchmark img.cycleCounterAvailable img.jrtCoreClockHz
      img.jrtTickRateHz (taskCount + jrtInternalTaskCount)
      (fun i => (tasks i).benchmarkPeriodTicks) taskCount }
  let k := (List.range taskCount).foldl (fun k index => prepareTask img k index (tasks index)) k
  let k := prepareIdleTask img (prepareTimerServiceTask img k taskCount)
  { k with
    currentTask := 0
    gCurrentTaskIndex := 0
    diag := k.diag.cleared
    kernelStarted := false }

/-- What is left to do: configure the unit for the first task, and mark
that task `RUNNING`. -/
theorem kernelSetUp_cases {img : Image} {k k' : Kernel} {tasks : Nat → JrtTaskDefinition}
    {taskCount : Nat} (h : kernelSetUp img k tasks taskCount = .ok k') :
    ∃ mpu, archConfigureMpu (kernelPrepared img k tasks taskCount).mpu img.sections
        (taskStackGuard ((kernelPrepared img k tasks taskCount).tasks 0))
        ((kernelPrepared img k tasks taskCount).tasks 0).privateDataBase
        ((kernelPrepared img k tasks taskCount).tasks 0).privateDataSize = .ok mpu
      ∧ k'.mpu = mpu ∧ k'.ledger = (kernelPrepared img k tasks taskCount).ledger
      ∧ k'.applicationTaskCount = (kernelPrepared img k tasks taskCount).applicationTaskCount := by
  simp only [kernelSetUp, exec_bind_eq_ok] at h
  obtain ⟨mpu, hmpu, h⟩ := h
  obtain rfl := Except.ok.inj h
  exact ⟨mpu, hmpu, rfl, setState_ledger _ 0 .running, rfl⟩

theorem kernelPrepared_ledger (img : Image) (k : Kernel) (tasks : Nat → JrtTaskDefinition)
    (taskCount : Nat) :
    (kernelPrepared img k tasks taskCount).applicationTaskCount = taskCount
      ∧ ∀ i < taskCount + 2,
        (kernelPrepared img k tasks taskCount).ledger i
          = .fresh (img.setups tasks taskCount i) := by
  simp only [kernelPrepared]
  generalize hk : ({ k with
    applicationTaskCount := taskCount
    taskCount := taskCount + jrtInternalTaskCount
    benchmark := taskBenchmarkInit k.benchmark img.cycleCounterAvailable img.jrtCoreClockHz
      img.jrtTickRateHz (taskCount + jrtInternalTaskCount)
      (fun i => (tasks i).benchmarkPeriodTicks) taskCount } : Kernel) = k₀
  have happ₀ : k₀.applicationTaskCount = taskCount := by rw [← hk]
  have hn₀ : k₀.taskCount = taskCount + 2 := by rw [← hk]; rfl
  have hloop := foldl_prepareTask_ledger img tasks (List.range taskCount) k₀
  obtain ⟨-, hn, happ, -⟩ := foldl_prepareTask_spec img tasks (List.range taskCount) k₀
  generalize (List.range taskCount).foldl (fun k index => prepareTask img k index (tasks index)) k₀
    = k₁ at hloop hn happ ⊢
  obtain ⟨-, -, ⟨-, hn₂, happ₂, -⟩, -⟩ := prepareTimerServiceTask_spec img k₁ taskCount
  have hledger₂ := prepareTimerServiceTask_ledger img k₁ taskCount
  generalize prepareTimerServiceTask img k₁ taskCount = k₂ at hn₂ happ₂ hledger₂ ⊢
  obtain ⟨-, -, happ₃, -⟩ := prepareIdleTask_spec img k₂
  have hledger₃ := prepareIdleTask_ledger img k₂
  generalize prepareIdleTask img k₂ = k₃ at happ₃ hledger₃ ⊢
  refine ⟨((happ₃.trans happ₂).trans happ).trans happ₀, fun i hi => ?_⟩
  have hidle : k₂.taskCount - 1 = taskCount + 1 := by
    rw [hn₂, hn, hn₀]
    rfl
  change k₃.ledger i = _
  rw [hledger₃, hidle, Image.setups]
  by_cases hi₁ : i < taskCount
  · rw [if_pos hi₁, Function.update_of_ne (by omega), hledger₂, Function.update_of_ne (by omega)]
    exact hloop i (Or.inl (List.mem_range.mpr hi₁))
  · rw [if_neg hi₁]
    by_cases hi₂ : i = taskCount
    · rw [if_pos hi₂, hi₂, Function.update_of_ne (by omega), hledger₂, Function.update_self]
    · have hi₃ : i = taskCount + 1 := by omega
      rw [if_neg hi₂, hi₃, Function.update_self]

/-- Preparing the tasks does not touch the memory protection unit. -/
theorem kernelPrepared_mpu (img : Image) (k : Kernel) (tasks : Nat → JrtTaskDefinition)
    (taskCount : Nat) : (kernelPrepared img k tasks taskCount).mpu = k.mpu := by
  have hstep : ∀ (k : Kernel) (i : Nat), (prepareTask img k i (tasks i)).mpu = k.mpu :=
    fun _ _ => rfl
  exact Scan.foldl_rel (r := fun k k' : Kernel => k'.mpu = k.mpu) (fun _ => rfl)
    (fun h₁ h₂ => h₂.trans h₁) hstep (List.range taskCount) { k with
      applicationTaskCount := taskCount
      taskCount := taskCount + jrtInternalTaskCount
      benchmark := taskBenchmarkInit k.benchmark img.cycleCounterAvailable img.jrtCoreClockHz
        img.jrtTickRateHz (taskCount + jrtInternalTaskCount)
        (fun i => (tasks i).benchmarkPeriodTicks) taskCount }

theorem kernelSetUp_ledger {img : Image} {k k' : Kernel} {tasks : Nat → JrtTaskDefinition}
    {taskCount : Nat} (h : kernelSetUp img k tasks taskCount = .ok k') :
    k'.applicationTaskCount = taskCount
      ∧ ∀ i < taskCount + 2, k'.ledger i = .fresh (img.setups tasks taskCount i) := by
  obtain ⟨-, -, -, hledger, happ⟩ := kernelSetUp_cases h
  obtain ⟨happ', hprepared⟩ := kernelPrepared_ledger img k tasks taskCount
  rw [happ, hledger]
  exact ⟨happ', hprepared⟩

/-- Behind `JRT_KernelInit` every task has its setup, and nothing else. -/
theorem Boot.ledger {img : Image} {c : Cfg} (h : Boot img c) :
    ∃ tasks : Nat → JrtTaskDefinition, ∀ i < c.kernel.taskCount,
      c.kernel.ledger i = .fresh (img.setups tasks c.kernel.applicationTaskCount i) := by
  obtain ⟨k₀, config, k, hinit, rfl⟩ := h
  obtain ⟨tasks, -, -, -, -, -, hsetUp⟩ := jrtKernelInit_cases hinit
  obtain ⟨happ, hledger⟩ := kernelSetUp_ledger hsetUp
  refine ⟨tasks, fun i hi => ?_⟩
  change i < k.taskCount at hi
  rw [(jrtKernelInit_booted hinit).taskCount_eq, happ] at hi
  change k.ledger i = .fresh (img.setups tasks k.applicationTaskCount i)
  rw [happ]
  exact hledger i hi

/-! ## One step -/

def Call.ledger (k : Kernel) : Call → Nat → TaskLedger
  | .taskNotify task value => k.notifiedLedger task value
  | _ => k.ledger

/-- The ledgers behind the critical section of a blocking call. -/
def WaitCall.enteredLedger (k : Kernel) : WaitCall → Nat → TaskLedger
  | .taskNotifyTake value _ => if value = 0 then k.ledger else k.takenLedger k.currentTask
  | _ => k.ledger

/-- The ledgers once a blocked call has gone on behind its yield. -/
def WaitCall.resumedLedger (k : Kernel) : WaitCall → Nat → TaskLedger
  | .taskNotifyTake _ _ => k.takenLedger k.currentTask
  | _ => k.ledger

def Pc.ledger (k : Kernel) : Pc → Nat → TaskLedger
  | .entered call _ => call.enteredLedger k
  | .resumed call => call.resumedLedger k
  | _ => k.ledger

def IsrCall.ledger (k : Kernel) : IsrCall → Nat → TaskLedger
  | .taskNotifyFromIsr task value => k.notifiedLedger task value
  | _ => k.ledger

def Action.ledger (c : Cfg) : Action → Nat → TaskLedger
  | .call made => made.ledger c.kernel
  | .proceed _ => (c.pc c.current).ledger c.kernel
  | .isr made => made.ledger c.kernel
  | .pendsv currentSp =>
      Function.update c.kernel.ledger c.kernel.currentTask
        ((c.kernel.ledger c.kernel.currentTask).withSp currentSp)
  | _ => c.kernel.ledger

theorem EnterCases.ledger {k k' : Kernel} {call : Call} (h : EnterCases k call k') :
    k'.ledger = call.ledger k := by
  cases h with
  | taskDelay ticks => simp [Call.ledger]
  | taskSuspend taskId => simp [Call.ledger]
  | taskResume taskId => simp [Call.ledger]
  | semaphoreGive semaphore => simp [Call.ledger]
  | mutexUnlock mutex => simp [Call.ledger]
  | notifyFails hnone =>
      have hle := taskNotifyCommon_eq_none hnone
      rw [Call.ledger, Kernel.notifiedLedger, if_neg (Nat.not_lt.mpr hle)]
  | taskNotify hsome => exact taskNotifyCommon_ledger hsome
  | setBitsFails group bits => rfl
  | eventGroupSetBits hsome => exact eventGroupSetBitsCommon_ledger hsome
  | timerSetCallback timer callback argument =>
      exact jrtTimerSetCallback_ledger k timer callback argument
  | spares hspares hrecords =>
      rw [ledger_eq_of_tasks_eq hrecords.1]
      cases call <;> first | rfl | cases hspares

theorem proceedEntered_ledger {k : Kernel} {source : Nat → UInt8} {reserved : Bool}
    {call : WaitCall} {s : Segment} (h : proceedEntered k source reserved call = .ok s) :
    s.kernel.ledger = call.enteredLedger k := by
  cases call with
  | taskNotifyTake value timeout =>
      obtain rfl := Except.ok.inj h
      simp only [WaitCall.enteredLedger, ofFlow_kernel]
      split
      · next hnull =>
          rw [hnull]
          rfl
      · next hvalue => exact jrtTaskNotifyTake_ledger k hvalue timeout
  | timerServiceClaim =>
      simp only [proceedEntered, exec_bind_eq_ok] at h
      obtain ⟨⟨claimed, k'⟩, hclaim, h⟩ := h
      have hkept := kernelTimerServiceClaim_ledger hclaim
      cases claimed <;> obtain rfl := Except.ok.inj h <;> exact hkept
  | _ =>
      obtain rfl := Except.ok.inj h
      simp [WaitCall.enteredLedger]

theorem proceedResumed_ledger (k : Kernel) (call : WaitCall) :
    (proceedResumed k call).kernel.ledger = call.resumedLedger k := by
  cases call with
  | queueSend q timeout deadline =>
      simp only [proceedResumed]
      split <;> rfl
  | queueReceive q timeout deadline =>
      simp only [proceedResumed]
      split <;> rfl
  | taskNotifyTake value timeout => exact jrtTaskNotifyTakeResume_ledger k
  | eventGroupWaitBits g bits waitAll clear timeout =>
      exact jrtEventGroupWaitBitsResume_ledger k g bits
  | _ => rfl

theorem isrCall_ledger (k : Kernel) (call : IsrCall) :
    (isrCall k call).1.ledger = call.ledger k := by
  cases call with
  | semaphoreGiveFromIsr s => exact semaphoreGiveLocked_ledger k s
  | queueSendFromIsr q source => exact jrtQueueSendFromIsr_ledger k q source true
  | taskNotifyFromIsr task value =>
      simp only [isrCall]
      split
      · next hnone =>
          have hle := taskNotifyCommon_eq_none hnone
          rw [IsrCall.ledger, Kernel.notifiedLedger, if_neg (Nat.not_lt.mpr hle)]
      · next hsome => exact taskNotifyCommon_ledger hsome
  | eventGroupSetBitsFromIsr g bits =>
      simp only [isrCall]
      split
      · rfl
      · next hsome => exact eventGroupSetBitsCommon_ledger hsome

theorem ThreadSegment.ledger {c : Cfg} {a : Action} {s : Segment} (h : ThreadSegment c a s) :
    s.kernel.ledger = a.ledger c := by
  cases h with
  | call _ _ h => exact (enter_cases h).ledger
  | entered hpc h =>
      rw [Action.ledger, hpc]
      exact proceedEntered_ledger h
  | resumed hpc =>
      rw [Action.ledger, hpc]
      exact proceedResumed_ledger _ _
  | yielding hpc | requestSwitch hpc | inTime hpc =>
      rw [Action.ledger, hpc]
      rfl
  | delayed hpc =>
      rw [Action.ledger, hpc]
      exact sleepCurrent_ledger _ _

theorem updateStackUsage_ledger {k k' : Kernel} {task : Nat} {currentSp : Ptr}
    (h : updateStackUsage k task currentSp = .ok k') : k'.ledger = k.ledger := by
  simp only [updateStackUsage] at h
  split at h
  · cases h
  · obtain rfl := Except.ok.inj h
    rw [ledger_eq_of_tasks_eq (recordHighWater_frame _ _).2]
    exact setTask_ledger_of_eq rfl

theorem pendsvSave_ledger {k k' : Kernel} {currentSp : Ptr} (h : pendsvSave k currentSp = .ok k') :
    k'.ledger = Function.update k.ledger k.currentTask
      ((k.ledger k.currentTask).withSp currentSp) := by
  simp only [pendsvSave, exec_bind_eq_ok] at h
  obtain ⟨k₁, husage, h⟩ := h
  obtain rfl := Except.ok.inj h
  have hsaved : k₁.ledger = Function.update k.ledger k.currentTask
      ((k.ledger k.currentTask).withSp currentSp) := by
    rw [updateStackUsage_ledger husage, setTask_ledger]
    rfl
  rw [← hsaved]
  exact setTask_ledger_of_eq rfl

theorem pendsvInstall_ledger {k k' : Kernel} {nextIndex : Nat}
    (h : pendsvInstall k nextIndex = .ok k') : k'.ledger = k.ledger := by
  simp only [pendsvInstall, exec_bind_eq_ok] at h
  obtain ⟨mpu, -, h⟩ := h
  obtain rfl := Except.ok.inj h
  exact setTask_ledger_of_eq rfl

theorem pendsvSwitch_ledger {k k' : Kernel} {currentSp sp : Ptr}
    (h : pendsvSwitch k currentSp = .ok (sp, k')) :
    k'.ledger = Function.update k.ledger k.currentTask
      ((k.ledger k.currentTask).withSp currentSp) := by
  simp only [pendsvSwitch, exec_bind_eq_ok] at h
  obtain ⟨k₁, hsave, k₂, hinstall, h⟩ := h
  obtain ⟨-, rfl⟩ := Prod.mk.inj (Except.ok.inj h)
  rw [pendsvInstall_ledger hinstall, ledger_eq_of_tasks_eq (pendsvStatistics_frame _ _).2,
    pendsvSave_ledger hsave]

theorem StepCases.ledger {c c' : Cfg} {a : Action} {o : Observation} (h : StepCases c a c' o) :
    c'.kernel.ledger = a.ledger c := by
  cases h with
  | start _ hk =>
      obtain rfl := jrtKernelStart_spec hk
      rfl
  | thread _ _ hseg => exact hseg.ledger
  | tick _ hk => exact tickTasks_ledger hk
  | isr => exact isrCall_ledger _ _
  | pendsv _ _ hk => exact pendsvSwitch_ledger hk
  | store => rfl
  | cycles => rfl

/-- What a step makes of one ledger: a context switch saves the outgoing
task's stack pointer, and any other step writes at most what it has been
notified. -/
theorem StepCases.ledger_at {c c' : Cfg} {a : Action} {o : Observation} (h : StepCases c a c' o)
    (t : Nat) :
    ((∀ currentSp, a ≠ .pendsv currentSp)
        ∧ ∃ n, c'.kernel.ledger t = (c.kernel.ledger t).withNotification n)
      ∨ ∃ currentSp, a = .pendsv currentSp ∧ c'.kernel.ledger t
          = if t = c.kernel.currentTask then (c.kernel.ledger t).withSp currentSp
            else c.kernel.ledger t := by
  have hkept : ∃ n, c.kernel.ledger t = (c.kernel.ledger t).withNotification n := ⟨_, rfl⟩
  have hupdate : ∀ (j : Nat) (n : UInt32), ∃ m,
      Function.update c.kernel.ledger j ((c.kernel.ledger j).withNotification n) t
        = (c.kernel.ledger t).withNotification m := by
    intro j n
    by_cases hj : t = j
    · rw [hj, Function.update_self]
      exact ⟨n, rfl⟩
    · rw [Function.update_of_ne hj]
      exact hkept
  have hnotified : ∀ j v, ∃ n,
      c.kernel.notifiedLedger j v t = (c.kernel.ledger t).withNotification n := by
    intro j v
    unfold Kernel.notifiedLedger
    split
    · exact hupdate j _
    · exact hkept
  rw [h.ledger]
  cases a with
  | call made =>
      refine Or.inl ⟨by simp, ?_⟩
      cases made <;> first | exact hkept | exact hnotified _ _
  | isr made =>
      refine Or.inl ⟨by simp, ?_⟩
      cases made <;> first | exact hkept | exact hnotified _ _
  | proceed source =>
      refine Or.inl ⟨by simp, ?_⟩
      simp only [Action.ledger]
      cases c.pc c.current with
      | entered call reserved =>
          cases call with
          | taskNotifyTake value timeout =>
              simp only [Pc.ledger, WaitCall.enteredLedger]
              split
              · exact hkept
              · exact hupdate _ 0
          | _ => exact hkept
      | resumed call => cases call <;> first | exact hkept | exact hupdate _ 0
      | _ => exact hkept
  | pendsv currentSp =>
      refine Or.inr ⟨currentSp, rfl, ?_⟩
      simp only [Action.ledger]
      split
      · next ht => rw [ht, Function.update_self]
      · next ht => rw [Function.update_of_ne ht]
  | start | tick | store | cycles => exact Or.inl ⟨by simp, hkept⟩

/-- What initialisation gave a task no step changes. -/
theorem StepCases.setup {c c' : Cfg} {a : Action} {o : Observation} (h : StepCases c a c' o)
    (j : Nat) : (c'.kernel.ledger j).setup = (c.kernel.ledger j).setup := by
  rcases h.ledger_at j with ⟨-, n, hn⟩ | ⟨sp, -, hsp⟩
  · rw [hn]
    rfl
  · rw [hsp]
    split <;> rfl

theorem Run.setup {c c' : Cfg} {tr : List Transition} (h : Run c tr c') (j : Nat) :
    (c'.kernel.ledger j).setup = (c.kernel.ledger j).setup :=
  h.induction (fun c' => (c'.kernel.ledger j).setup = (c.kernel.ledger j).setup)
    (fun hs hstep => (hstep.setup j).trans hs) rfl

end JustRT
