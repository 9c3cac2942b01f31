import JustRT.System
import JustRT.Lib.Scan

/-!
# What a kernel function leaves alone

One frame lemma per function of `task.c`: outside the task table and the
benchmark records it changes nothing, or one named object. They are simp
lemmas about each field, so a later proof never unfolds a function to see
that it keeps, say, the mutexes.

A function that scans the table is treated by what the scan finds: a wake
is the end of the wait of the selected task, and a walk along a chain is a
list of writes of one field. When a function of the source changes, its
lemma here is the one to look at; what follows about the system does not
mention the function's body again.
-/

namespace JustRT

/-! ## Fallible functions -/

theorem exec_bind_eq_ok {α β : Type} {x : Exec α} {f : α → Exec β} {b : β} :
    x >>= f = .ok b ↔ ∃ a, x = .ok a ∧ f a = .ok b := by
  cases x <;> simp [bind, Except.bind]

/-! ## The frame of the task table -/

/-- `k'` differs from `k` at most in the task table, the benchmark records
and the diagnostics. -/
@[simp] abbrev TableFrame (k k' : Kernel) : Prop :=
  k'.taskCount = k.taskCount ∧ k'.applicationTaskCount = k.applicationTaskCount
    ∧ k'.gCurrentTaskIndex = k.gCurrentTaskIndex ∧ k'.currentTask = k.currentTask
    ∧ k'.kernelInitialized = k.kernelInitialized ∧ k'.kernelStarted = k.kernelStarted
    ∧ k'.timerServiceTaskIndex = k.timerServiceTaskIndex ∧ k'.gKernelTicks = k.gKernelTicks
    ∧ k'.semaphores = k.semaphores ∧ k'.mutexes = k.mutexes ∧ k'.mutexList = k.mutexList
    ∧ k'.queues = k.queues ∧ k'.eventGroups = k.eventGroups ∧ k'.timers = k.timers
    ∧ k'.timerList = k.timerList ∧ k'.mpu = k.mpu ∧ k'.memory = k.memory

theorem TableFrame.refl (k : Kernel) : TableFrame k k := by simp

theorem TableFrame.trans {k₁ k₂ k₃ : Kernel} (h₁ : TableFrame k₁ k₂) (h₂ : TableFrame k₂ k₃) :
    TableFrame k₁ k₃ := by
  simp_all

@[simp] theorem setTask_frame (k : Kernel) (i : Nat) (t : Task) : TableFrame k (k.setTask i t) := by
  simp [Kernel.setTask]

@[simp] theorem setTask_benchmark (k : Kernel) (i : Nat) (t : Task) :
    (k.setTask i t).benchmark = k.benchmark := rfl

@[simp] theorem mapDiag_frame (k : Kernel) (f : Diagnostics → Diagnostics) :
    TableFrame k (k.mapDiag f) ∧ (k.mapDiag f).tasks = k.tasks := by
  simp [Kernel.mapDiag]

/-- What the ways to write one object leave alone. -/
@[simp] abbrev ObjectFrame (k k' : Kernel) : Prop :=
  k'.tasks = k.tasks ∧ k'.taskCount = k.taskCount
    ∧ k'.applicationTaskCount = k.applicationTaskCount
    ∧ k'.gCurrentTaskIndex = k.gCurrentTaskIndex ∧ k'.currentTask = k.currentTask
    ∧ k'.kernelInitialized = k.kernelInitialized ∧ k'.kernelStarted = k.kernelStarted
    ∧ k'.timerServiceTaskIndex = k.timerServiceTaskIndex ∧ k'.gKernelTicks = k.gKernelTicks
    ∧ k'.mpu = k.mpu ∧ k'.memory = k.memory ∧ k'.benchmark = k.benchmark

@[simp] theorem setSemaphore_frame (k : Kernel) (a : Ptr) (s : JrtSemaphore) :
    ObjectFrame k (k.setSemaphore a s) ∧ (k.setSemaphore a s).mutexes = k.mutexes
      ∧ (k.setSemaphore a s).mutexList = k.mutexList ∧ (k.setSemaphore a s).queues = k.queues
      ∧ (k.setSemaphore a s).eventGroups = k.eventGroups
      ∧ (k.setSemaphore a s).timers = k.timers ∧ (k.setSemaphore a s).timerList = k.timerList := by
  simp [Kernel.setSemaphore]

@[simp] theorem setMutex_frame (k : Kernel) (a : Ptr) (m : JrtMutex) :
    ObjectFrame k (k.setMutex a m) ∧ (k.setMutex a m).semaphores = k.semaphores
      ∧ (k.setMutex a m).mutexList = k.mutexList ∧ (k.setMutex a m).queues = k.queues
      ∧ (k.setMutex a m).eventGroups = k.eventGroups
      ∧ (k.setMutex a m).timers = k.timers ∧ (k.setMutex a m).timerList = k.timerList := by
  simp [Kernel.setMutex]

@[simp] theorem setQueue_frame (k : Kernel) (a : Ptr) (q : JrtQueue) :
    ObjectFrame k (k.setQueue a q) ∧ (k.setQueue a q).semaphores = k.semaphores
      ∧ (k.setQueue a q).mutexes = k.mutexes ∧ (k.setQueue a q).mutexList = k.mutexList
      ∧ (k.setQueue a q).eventGroups = k.eventGroups
      ∧ (k.setQueue a q).timers = k.timers ∧ (k.setQueue a q).timerList = k.timerList := by
  simp [Kernel.setQueue]

@[simp] theorem setEventGroup_frame (k : Kernel) (a : Ptr) (g : JrtEventGroup) :
    ObjectFrame k (k.setEventGroup a g) ∧ (k.setEventGroup a g).semaphores = k.semaphores
      ∧ (k.setEventGroup a g).mutexes = k.mutexes ∧ (k.setEventGroup a g).mutexList = k.mutexList
      ∧ (k.setEventGroup a g).queues = k.queues
      ∧ (k.setEventGroup a g).timers = k.timers
      ∧ (k.setEventGroup a g).timerList = k.timerList := by
  simp [Kernel.setEventGroup]

@[simp] theorem setTimer_frame (k : Kernel) (a : Ptr) (t : JrtTimer) :
    ObjectFrame k (k.setTimer a t) ∧ (k.setTimer a t).semaphores = k.semaphores
      ∧ (k.setTimer a t).mutexes = k.mutexes ∧ (k.setTimer a t).mutexList = k.mutexList
      ∧ (k.setTimer a t).queues = k.queues ∧ (k.setTimer a t).eventGroups = k.eventGroups
      ∧ (k.setTimer a t).timerList = k.timerList := by
  simp [Kernel.setTimer]

theorem setSemaphore_semaphores (k : Kernel) (a : Ptr) (s : JrtSemaphore) (b : Ptr) :
    (k.setSemaphore a s).semaphores b = if b = a then s else k.semaphores b := rfl

theorem setMutex_mutexes (k : Kernel) (a : Ptr) (m : JrtMutex) (b : Ptr) :
    (k.setMutex a m).mutexes b = if b = a then m else k.mutexes b := rfl

theorem setQueue_queues (k : Kernel) (a : Ptr) (q : JrtQueue) (b : Ptr) :
    (k.setQueue a q).queues b = if b = a then q else k.queues b := rfl

theorem setEventGroup_eventGroups (k : Kernel) (a : Ptr) (g : JrtEventGroup) (b : Ptr) :
    (k.setEventGroup a g).eventGroups b = if b = a then g else k.eventGroups b := rfl

theorem setTimer_timers (k : Kernel) (a : Ptr) (t : JrtTimer) (b : Ptr) :
    (k.setTimer a t).timers b = if b = a then t else k.timers b := rfl

/-! ## Benchmark hooks -/

@[simp] theorem taskBenchmarkReleaseLocked_frame (k : Kernel) (task : Nat) (coalesced : Bool) :
    TableFrame k (taskBenchmarkReleaseLocked k task coalesced)
      ∧ (taskBenchmarkReleaseLocked k task coalesced).tasks = k.tasks := by
  simp [taskBenchmarkReleaseLocked]

@[simp] theorem taskBenchmarkCoalescedLocked_frame (k : Kernel) (task : Nat) :
    TableFrame k (taskBenchmarkCoalescedLocked k task)
      ∧ (taskBenchmarkCoalescedLocked k task).tasks = k.tasks := by
  simp [taskBenchmarkCoalescedLocked]

@[simp] theorem taskBenchmarkStartLocked_frame (k : Kernel) (task : Nat) :
    TableFrame k (taskBenchmarkStartLocked k task)
      ∧ (taskBenchmarkStartLocked k task).tasks = k.tasks := by
  simp [taskBenchmarkStartLocked]

@[simp] theorem taskBenchmarkCompleteLocked_frame (k : Kernel) (task : Nat) :
    TableFrame k (taskBenchmarkCompleteLocked k task)
      ∧ (taskBenchmarkCompleteLocked k task).tasks = k.tasks := by
  simp [taskBenchmarkCompleteLocked]

/-! ## Waits and wake-ups -/

@[simp] theorem taskWaitBeginUntil_frame (k : Kernel) (task : Nat) (object : WaitObject)
    (waitKind : TaskWaitKind) (deadline : TaskWaitDeadline) :
    TableFrame k (taskWaitBeginUntil k task object waitKind deadline) := by
  simp [taskWaitBeginUntil]

@[simp] theorem taskWaitBegin_frame (k : Kernel) (task : Nat) (object : WaitObject)
    (waitKind : TaskWaitKind) (timeoutTicks : UInt32) :
    TableFrame k (taskWaitBegin k task object waitKind timeoutTicks) := by
  simp [taskWaitBegin]

@[simp] theorem taskWaitEnd_frame (k : Kernel) (task : Nat) (result : UInt32) (coalesced : Bool) :
    TableFrame k (taskWaitEnd k task result coalesced) := by
  simp [taskWaitEnd]

@[simp] theorem taskBlockUntilLocked_frame (k : Kernel) (object : WaitObject)
    (waitKind : TaskWaitKind) (deadline : TaskWaitDeadline) :
    TableFrame k (taskBlockUntilLocked k object waitKind deadline).2 := by
  unfold taskBlockUntilLocked
  split <;> simp

/-- A wake ends the wait of the task the scan selects. -/
theorem taskWakeGetId_eq (k : Kernel) (object : WaitObject) (waitKind : TaskWaitKind) :
    taskWakeGetId k object waitKind
      = (wakeSelect k object waitKind,
          (wakeSelect k object waitKind).elim k fun s => taskWaitEnd k s 1 false) := by
  unfold taskWakeGetId
  split <;> next h => simp [h]

theorem taskWake_eq (k : Kernel) (object : WaitObject) (waitKind : TaskWaitKind) :
    taskWake k object waitKind
      = ((wakeSelect k object waitKind).isSome,
          (wakeSelect k object waitKind).elim k fun s => taskWaitEnd k s 1 false) := by
  simp [taskWake, taskWakeGetId_eq]

@[simp] theorem wakeSelected_frame (k : Kernel) (selected : Option Nat) :
    TableFrame k (selected.elim k fun s => taskWaitEnd k s 1 false) := by
  cases selected <;> simp

@[simp] theorem taskTimerServiceWakeLocked_frame (k : Kernel) :
    TableFrame k (taskTimerServiceWakeLocked k) := by
  simp only [taskTimerServiceWakeLocked]
  split <;> simp

@[simp] theorem taskTimerServiceBlockLocked_frame (k : Kernel) :
    TableFrame k (taskTimerServiceBlockLocked k) := by
  simp [taskTimerServiceBlockLocked]

/-! ## Priorities -/

@[simp] theorem setPriority_frame (k : Kernel) (task priority : Nat) :
    TableFrame k (setPriority k task priority) := by
  simp [setPriority]

/-- `k'` is `k` with some effective priorities written anew: all that the walks
along a chain of owners do. -/
inductive Reprioritized (k : Kernel) : Kernel → Prop where
  | refl : Reprioritized k k
  | set {k' : Kernel} (task priority : Nat) : Reprioritized k k' →
      Reprioritized k (setPriority k' task priority)

theorem Reprioritized.trans {k₁ k₂ k₃ : Kernel} (h : Reprioritized k₁ k₂)
    (h' : Reprioritized k₂ k₃) : Reprioritized k₁ k₃ := by
  induction h' with
  | refl => exact h
  | set task priority _ ih => exact .set task priority ih

theorem Reprioritized.kept {α : Type} {k k' : Kernel} (h : Reprioritized k k') (f : Kernel → α)
    (hset : ∀ (k : Kernel) (task priority : Nat), f (setPriority k task priority) = f k) :
    f k' = f k := by
  induction h with
  | refl => rfl
  | set task priority _ ih => rw [hset, ih]

theorem Reprioritized.frame {k k' : Kernel} (h : Reprioritized k k') : TableFrame k k' := by
  induction h with
  | refl => exact .refl k
  | set task priority _ ih => exact ih.trans (setPriority_frame _ task priority)

theorem inheritLoop_reprioritized (priority depth id : Nat) (k : Kernel) :
    Reprioritized k (inheritLoop priority depth id k) := by
  induction depth generalizing id k with
  | zero => exact .refl
  | succ depth ih =>
      have hraise : Reprioritized k
          (if (k.tasks id).priority < priority then setPriority k id priority else k) := by
        split
        · exact .set id priority .refl
        · exact .refl
      simp only [inheritLoop]
      split
      · exact .refl
      · split
        · exact hraise
        · exact hraise.trans (ih _ _)

theorem taskInheritPriority_reprioritized (k : Kernel) (task priority : Nat) :
    Reprioritized k (taskInheritPriority k task priority) :=
  inheritLoop_reprioritized priority k.taskCount task k

theorem restoreLoop_reprioritized (depth id : Nat) (k : Kernel) :
    Reprioritized k (restoreLoop depth id k) := by
  induction depth generalizing id k with
  | zero => exact .refl
  | succ depth ih =>
      have hset : Reprioritized k (setPriority k id (effectivePriority k id)) := .set _ _ .refl
      simp only [restoreLoop]
      split
      · exact .refl
      · split
        · exact hset
        · split
          · exact hset
          · exact hset.trans (ih _ _)

theorem restorePriorityChain_reprioritized (k : Kernel) (task : Nat) :
    Reprioritized k (restorePriorityChain k task) :=
  restoreLoop_reprioritized k.taskCount task k

theorem taskRestorePriority_reprioritized (k : Kernel) (task : Nat) :
    Reprioritized k (taskRestorePriority k task) := by
  unfold taskRestorePriority
  split
  · exact .set _ _ .refl
  · exact .refl

@[simp] theorem inheritLoop_frame (priority depth id : Nat) (k : Kernel) :
    TableFrame k (inheritLoop priority depth id k) :=
  (inheritLoop_reprioritized priority depth id k).frame

@[simp] theorem taskInheritPriority_frame (k : Kernel) (task priority : Nat) :
    TableFrame k (taskInheritPriority k task priority) :=
  (taskInheritPriority_reprioritized k task priority).frame

@[simp] theorem restoreLoop_frame (depth id : Nat) (k : Kernel) :
    TableFrame k (restoreLoop depth id k) :=
  (restoreLoop_reprioritized depth id k).frame

@[simp] theorem restorePriorityChain_frame (k : Kernel) (task : Nat) :
    TableFrame k (restorePriorityChain k task) :=
  (restorePriorityChain_reprioritized k task).frame

@[simp] theorem taskRestorePriority_frame (k : Kernel) (task : Nat) :
    TableFrame k (taskRestorePriority k task) :=
  (taskRestorePriority_reprioritized k task).frame

/-! ## Delay, suspension, notifications -/

@[simp] theorem sleepCurrent_frame (k : Kernel) (ticks : UInt32) :
    TableFrame k (sleepCurrent k ticks) := by
  simp only [sleepCurrent]
  split <;> simp

@[simp] theorem kernelTaskSuspend_frame (k : Kernel) (task : Nat) :
    TableFrame k (kernelTaskSuspend k task).2 := by
  simp only [kernelTaskSuspend]
  repeat' split
  all_goals simp

@[simp] theorem kernelTaskResume_frame (k : Kernel) (task : Nat) :
    TableFrame k (kernelTaskResume k task).2 := by
  simp only [kernelTaskResume]
  repeat' split
  all_goals simp

/-- An accepted notification adds to the task's value, and ends the task's
wait if it waits for one. -/
theorem taskNotifyCommon_cases {k k' : Kernel} {task : Nat} {value : UInt32}
    {fromIsr inIsr : Bool} (h : taskNotifyCommon k task value fromIsr inIsr = some k') :
    task < k.taskCount ∧ ∃ k₁ coalesced,
      k₁ = k.setTask task ((k.tasks task).withNotification
        ((k.tasks task).notificationValue + value))
      ∧ (((k₁.tasks task).state = .blocked ∧ (k₁.tasks task).waitKind = .notification
          ∧ k' = taskWaitEnd k₁ task 1 coalesced)
        ∨ (¬((k₁.tasks task).state = .blocked ∧ (k₁.tasks task).waitKind = .notification)
          ∧ (k' = k₁ ∨ k' = taskBenchmarkCoalescedLocked k₁ task))) := by
  unfold taskNotifyCommon at h
  by_cases hctx : wrongContext fromIsr inIsr = true
  · rw [if_pos hctx] at h
    cases h
  rw [if_neg hctx] at h
  by_cases htask : task ≥ k.taskCount
  · rw [if_pos htask] at h
    cases h
  rw [if_neg htask] at h
  refine ⟨Nat.lt_of_not_ge htask, _, decide (value ≠ 0 ∧ (k.tasks task).notificationValue ≠ 0),
    rfl, ?_⟩
  generalize k.setTask task ((k.tasks task).withNotification
    ((k.tasks task).notificationValue + value)) = k₁ at h ⊢
  generalize decide (value ≠ 0 ∧ (k.tasks task).notificationValue ≠ 0) = coalesced at h ⊢
  by_cases hwait : (k₁.tasks task).state = .blocked ∧ (k₁.tasks task).waitKind = .notification
  · simp only [if_pos hwait, Option.some.injEq] at h
    exact Or.inl ⟨hwait.1, hwait.2, h.symm⟩
  · simp only [if_neg hwait] at h
    refine Or.inr ⟨hwait, ?_⟩
    cases coalesced with
    | false => exact Or.inl (Option.some.inj h).symm
    | true => exact Or.inr (Option.some.inj h).symm

theorem taskNotifyCommon_frame {k k' : Kernel} {task : Nat} {value : UInt32}
    {fromIsr inIsr : Bool} (h : taskNotifyCommon k task value fromIsr inIsr = some k') :
    TableFrame k k' := by
  obtain ⟨-, k₁, _, rfl, ⟨-, -, rfl⟩ | ⟨-, rfl | rfl⟩⟩ := taskNotifyCommon_cases h <;> simp

@[simp] theorem jrtTaskNotifyTake_frame (k : Kernel) (value : Ptr) (timeoutTicks : UInt32)
    (inIsr : Bool) : TableFrame k (jrtTaskNotifyTake k value timeoutTicks inIsr).2.2 := by
  simp only [jrtTaskNotifyTake]
  repeat' split
  all_goals simp

@[simp] theorem jrtTaskNotifyTakeResume_frame (k : Kernel) :
    TableFrame k (jrtTaskNotifyTakeResume k).2.2 := by
  simp [jrtTaskNotifyTakeResume]

/-! ## Event groups -/

/-- The control variables of the kernel, the memory protection unit and
the stacks: what only initialisation, the tick and the context switch
write. -/
@[simp] abbrev ControlFrame (k k' : Kernel) : Prop :=
  k'.taskCount = k.taskCount ∧ k'.applicationTaskCount = k.applicationTaskCount
    ∧ k'.gCurrentTaskIndex = k.gCurrentTaskIndex ∧ k'.currentTask = k.currentTask
    ∧ k'.kernelInitialized = k.kernelInitialized ∧ k'.kernelStarted = k.kernelStarted
    ∧ k'.timerServiceTaskIndex = k.timerServiceTaskIndex ∧ k'.gKernelTicks = k.gKernelTicks
    ∧ k'.mpu = k.mpu ∧ k'.memory = k.memory

@[simp] abbrev EventGroupFrame (k k' : Kernel) : Prop :=
  ControlFrame k k' ∧ k'.semaphores = k.semaphores ∧ k'.mutexes = k.mutexes
    ∧ k'.mutexList = k.mutexList ∧ k'.queues = k.queues ∧ k'.timers = k.timers
    ∧ k'.timerList = k.timerList

@[simp] theorem jrtEventGroupCreateStatic_frame (k : Kernel) (group : Ptr) :
    EventGroupFrame k (jrtEventGroupCreateStatic k group) := by
  unfold jrtEventGroupCreateStatic
  split <;> simp

@[simp] theorem setBitsStep_frame (group : Ptr) (k : Kernel) (index : Nat) :
    TableFrame k (setBitsStep group k index) := by
  simp only [setBitsStep]
  split <;> simp

@[simp] theorem foldl_setBitsStep_frame (group : Ptr) (l : List Nat) (k : Kernel) :
    TableFrame k (l.foldl (setBitsStep group) k) :=
  Scan.foldl_rel TableFrame.refl TableFrame.trans (setBitsStep_frame group) l k

theorem eventGroupSetBitsCommon_frame {k k' : Kernel} {group : Ptr} {bits result : UInt32}
    {fromIsr inIsr : Bool}
    (h : eventGroupSetBitsCommon k group bits fromIsr inIsr = some (result, k')) :
    EventGroupFrame k k' := by
  simp only [eventGroupSetBitsCommon] at h
  split at h
  · cases h
  · cases h
    simp

@[simp] theorem jrtEventGroupWaitBits_frame (k : Kernel) (group : Ptr) (bits : UInt32)
    (waitAll clearOnExit : Bool) (timeoutTicks : UInt32) (inIsr : Bool) :
    EventGroupFrame k
      (jrtEventGroupWaitBits k group bits waitAll clearOnExit timeoutTicks inIsr).2 := by
  simp only [jrtEventGroupWaitBits]
  split
  · simp
  · split
    · cases clearOnExit <;> simp
    · split <;> simp

@[simp] theorem jrtEventGroupWaitBitsResume_frame (k : Kernel) (group : Ptr) (bits : UInt32) :
    EventGroupFrame k (jrtEventGroupWaitBitsResume k group bits).2 := by
  simp only [jrtEventGroupWaitBitsResume]
  split <;> simp

/-! ## Semaphores -/

@[simp] theorem countContextMisuse_frame (k : Kernel) (bump : SyncMisuse → SyncMisuse) :
    TableFrame k (countContextMisuse k bump) ∧ (countContextMisuse k bump).tasks = k.tasks := by
  simp [countContextMisuse]

@[simp] abbrev SemaphoreFrame (k k' : Kernel) : Prop :=
  ControlFrame k k' ∧ k'.mutexes = k.mutexes ∧ k'.mutexList = k.mutexList
    ∧ k'.queues = k.queues ∧ k'.eventGroups = k.eventGroups ∧ k'.timers = k.timers
    ∧ k'.timerList = k.timerList

@[simp] theorem jrtSemaphoreCreateBinaryStatic_frame (k : Kernel) (semaphore : Ptr)
    (available : UInt32) :
    SemaphoreFrame k (jrtSemaphoreCreateBinaryStatic k semaphore available) := by
  simp [jrtSemaphoreCreateBinaryStatic]

@[simp] theorem jrtSemaphoreTake_frame (k : Kernel) (semaphore : Ptr) (timeoutTicks : UInt32)
    (deadline : TaskWaitDeadline) (inIsr : Bool) :
    SemaphoreFrame k (jrtSemaphoreTake k semaphore timeoutTicks deadline inIsr).2 := by
  simp only [jrtSemaphoreTake]
  repeat' split
  all_goals simp

@[simp] theorem semaphoreGiveLocked_frame (k : Kernel) (semaphore : Ptr) :
    SemaphoreFrame k (semaphoreGiveLocked k semaphore) := by
  simp only [semaphoreGiveLocked, taskWake_eq]
  split <;> simp

@[simp] theorem jrtSemaphoreGive_frame (k : Kernel) (semaphore : Ptr) (inIsr : Bool) :
    SemaphoreFrame k (jrtSemaphoreGive k semaphore inIsr) := by
  unfold jrtSemaphoreGive
  split <;> simp

@[simp] theorem jrtSemaphoreGiveFromIsr_frame (k : Kernel) (semaphore : Ptr) (inIsr : Bool) :
    SemaphoreFrame k (jrtSemaphoreGiveFromIsr k semaphore inIsr).2 := by
  unfold jrtSemaphoreGiveFromIsr
  split <;> simp

/-! ## Mutexes -/

@[simp] abbrev MutexFrame (k k' : Kernel) : Prop :=
  ControlFrame k k' ∧ k'.semaphores = k.semaphores ∧ k'.queues = k.queues
    ∧ k'.eventGroups = k.eventGroups ∧ k'.timers = k.timers ∧ k'.timerList = k.timerList

theorem mutexLinkLocked_frame {k k' : Kernel} {mutex : Ptr} (h : mutexLinkLocked k mutex = .ok k') :
    MutexFrame k k' ∧ k'.tasks = k.tasks := by
  simp only [mutexLinkLocked, exec_bind_eq_ok] at h
  obtain ⟨linked, -, h⟩ := h
  cases linked <;> cases h <;> simp

theorem jrtMutexCreateRecursiveStatic_frame {k k' : Kernel} {mutex : Ptr}
    (h : jrtMutexCreateRecursiveStatic k mutex = .ok k') :
    MutexFrame k k' ∧ k'.tasks = k.tasks := by
  simp only [jrtMutexCreateRecursiveStatic, exec_bind_eq_ok] at h
  obtain ⟨linked, -, h⟩ := h
  simpa using mutexLinkLocked_frame h

@[simp] theorem jrtMutexLock_frame (k : Kernel) (mutex : Ptr) (timeoutTicks : UInt32)
    (deadline : TaskWaitDeadline) (inIsr : Bool) :
    MutexFrame k (jrtMutexLock k mutex timeoutTicks deadline inIsr).2
      ∧ (jrtMutexLock k mutex timeoutTicks deadline inIsr).2.mutexList = k.mutexList := by
  simp only [jrtMutexLock]
  repeat' split
  all_goals simp

@[simp] theorem jrtMutexUnlock_frame (k : Kernel) (mutex : Ptr) (inIsr : Bool) :
    MutexFrame k (jrtMutexUnlock k mutex inIsr).2
      ∧ (jrtMutexUnlock k mutex inIsr).2.mutexList = k.mutexList := by
  simp only [jrtMutexUnlock, taskWakeGetId_eq]
  split
  · simp
  · split
    · simp
    · split
      · simp
      · cases wakeSelect k (.ptr mutex) .mutex <;> simp

/-! ## Queues -/

@[simp] abbrev QueueFrame (k k' : Kernel) : Prop :=
  ControlFrame k k' ∧ k'.semaphores = k.semaphores ∧ k'.mutexes = k.mutexes
    ∧ k'.mutexList = k.mutexList ∧ k'.eventGroups = k.eventGroups ∧ k'.timers = k.timers
    ∧ k'.timerList = k.timerList

@[simp] theorem jrtQueueCreateStatic_frame (k : Kernel) (queue : Ptr) (storage : Nat → UInt8)
    (capacity itemSize : UInt32) :
    QueueFrame k (jrtQueueCreateStatic k queue storage capacity itemSize) := by
  simp [jrtQueueCreateStatic]

@[simp] theorem queueWakeReceiver_frame (k : Kernel) (queue : Ptr) :
    QueueFrame k (queueWakeReceiver k queue) := by
  simp only [queueWakeReceiver, taskWake_eq]
  split <;> simp

@[simp] theorem queueWakeSender_frame (k : Kernel) (queue : Ptr) :
    QueueFrame k (queueWakeSender k queue) := by
  simp only [queueWakeSender, taskWake_eq]
  split <;> simp

@[simp] theorem jrtQueueSend_frame (k : Kernel) (queue : Ptr) (source : Nat → UInt8)
    (timeoutTicks : UInt32) (deadline : TaskWaitDeadline) (reserved inIsr : Bool) :
    QueueFrame k (jrtQueueSend k queue source timeoutTicks deadline reserved inIsr).2 := by
  simp only [jrtQueueSend]
  repeat' split
  all_goals simp

@[simp] theorem jrtQueueReceive_frame (k : Kernel) (queue : Ptr) (timeoutTicks : UInt32)
    (deadline : TaskWaitDeadline) (reserved inIsr : Bool) :
    QueueFrame k (jrtQueueReceive k queue timeoutTicks deadline reserved inIsr).2.2 := by
  simp only [jrtQueueReceive]
  repeat' split
  all_goals simp

@[simp] theorem jrtQueueSendFromIsr_frame (k : Kernel) (queue : Ptr) (source : Nat → UInt8)
    (inIsr : Bool) : QueueFrame k (jrtQueueSendFromIsr k queue source inIsr).2 := by
  simp only [jrtQueueSendFromIsr]
  repeat' split
  all_goals simp

/-! ## Timers -/

@[simp] abbrev TimerFrame (k k' : Kernel) : Prop :=
  ControlFrame k k' ∧ k'.semaphores = k.semaphores ∧ k'.mutexes = k.mutexes
    ∧ k'.mutexList = k.mutexList ∧ k'.queues = k.queues ∧ k'.eventGroups = k.eventGroups

theorem timerLinkLocked_frame {k k' : Kernel} {timer : Ptr} (h : timerLinkLocked k timer = .ok k') :
    TimerFrame k k' ∧ k'.tasks = k.tasks := by
  simp only [timerLinkLocked, exec_bind_eq_ok] at h
  obtain ⟨linked, -, h⟩ := h
  cases linked <;> cases h <;> simp

theorem jrtTimerCreateStatic_frame {k k' : Kernel} {timer : Ptr}
    (h : jrtTimerCreateStatic k timer = .ok k') : TimerFrame k k' ∧ k'.tasks = k.tasks := by
  unfold jrtTimerCreateStatic at h
  split at h
  · cases h; simp
  · simp only [exec_bind_eq_ok] at h
    obtain ⟨linked, -, h⟩ := h
    simpa using timerLinkLocked_frame h

@[simp] theorem jrtTimerSetCallback_frame (k : Kernel) (timer callback argument : Ptr) :
    TimerFrame k (jrtTimerSetCallback k timer callback argument).2 := by
  simp only [jrtTimerSetCallback]
  repeat' split
  all_goals simp

theorem jrtTimerStart_frame {k k' : Kernel} {timer : Ptr} {delayTicks : UInt32}
    (h : jrtTimerStart k timer delayTicks = .ok k') : TimerFrame k k' ∧ k'.tasks = k.tasks := by
  unfold jrtTimerStart at h
  split at h
  · cases h; simp
  · simp only [exec_bind_eq_ok] at h
    obtain ⟨k₁, hlink, h⟩ := h
    cases h
    simpa using timerLinkLocked_frame hlink

theorem jrtTimerStartPeriodic_frame {k k' : Kernel} {timer : Ptr} {periodTicks : UInt32}
    (h : jrtTimerStartPeriodic k timer periodTicks = .ok k') :
    TimerFrame k k' ∧ k'.tasks = k.tasks := by
  unfold jrtTimerStartPeriodic at h
  split at h
  · cases h; simp
  · simp only [exec_bind_eq_ok] at h
    obtain ⟨k₁, hlink, h⟩ := h
    cases h
    simpa using timerLinkLocked_frame hlink

theorem jrtTimerRestart_frame {k k' : Kernel} {timer : Ptr}
    (h : jrtTimerRestart k timer = .ok k') : TimerFrame k k' ∧ k'.tasks = k.tasks := by
  unfold jrtTimerRestart at h
  split at h
  · cases h; simp
  · split at h
    · simp only [exec_bind_eq_ok] at h
      obtain ⟨k₁, hlink, h⟩ := h
      cases h
      simpa using timerLinkLocked_frame hlink
    · cases h; simp

@[simp] theorem jrtTimerStop_frame (k : Kernel) (timer : Ptr) :
    TimerFrame k (jrtTimerStop k timer) ∧ (jrtTimerStop k timer).tasks = k.tasks := by
  unfold jrtTimerStop
  split <;> simp

@[simp] theorem jrtTimerTakeExpirations_frame (k : Kernel) (timer : Ptr) :
    TimerFrame k (jrtTimerTakeExpirations k timer).2
      ∧ (jrtTimerTakeExpirations k timer).2.tasks = k.tasks := by
  unfold jrtTimerTakeExpirations
  split <;> simp

@[simp] theorem jrtTimerDispatch_frame (k : Kernel) (timer : Ptr) :
    TimerFrame k (jrtTimerDispatch k timer).2 ∧ (jrtTimerDispatch k timer).2.tasks = k.tasks := by
  simp only [jrtTimerDispatch]
  repeat' split
  all_goals simp

@[simp] theorem timerExpire_frame (k : Kernel) (timer : Ptr) :
    TimerFrame k (timerExpire k timer) := by
  simp only [timerExpire]
  split <;> simp

@[simp] theorem timerRearm_frame (k : Kernel) (timer : Ptr) :
    TimerFrame k (timerRearm k timer) ∧ (timerRearm k timer).tasks = k.tasks := by
  simp [timerRearm]

@[simp] theorem timerTickStep_frame (now : UInt32) (k : Kernel) (timer : Ptr) :
    TimerFrame k (timerTickStep now k timer) := by
  unfold timerTickStep
  split <;> simp

theorem timerTickLoop_frame {now : UInt32} {fuel : Nat} {timer : Ptr} {k k' : Kernel}
    (h : timerTickLoop now fuel timer k = .ok k') : TimerFrame k k' := by
  induction fuel generalizing timer k with
  | zero => cases h
  | succ fuel ih =>
      unfold timerTickLoop at h
      split at h
      · cases h; simp
      · have hstep := timerTickStep_frame now k timer
        have hrest := ih h
        simp_all

theorem kernelTimerServiceClaim_frame {k k' : Kernel} {claimed : Option Ptr}
    (h : kernelTimerServiceClaim k = .ok (claimed, k')) : TimerFrame k k' := by
  simp only [kernelTimerServiceClaim, exec_bind_eq_ok] at h
  obtain ⟨found, -, h⟩ := h
  cases found <;> cases h <;> simp

/-! ## The tick -/

@[simp] theorem countTimeout_frame (k : Kernel) (waitKind : TaskWaitKind) :
    TableFrame k (countTimeout k waitKind) ∧ (countTimeout k waitKind).tasks = k.tasks := by
  cases waitKind <;> simp [countTimeout]

@[simp] theorem tickTask_frame (k : Kernel) (index : Nat) : TableFrame k (tickTask k index) := by
  simp only [tickTask]
  repeat' split
  all_goals simp

@[simp] theorem foldl_tickTask_frame (l : List Nat) (k : Kernel) :
    TableFrame k (l.foldl tickTask k) :=
  Scan.foldl_rel TableFrame.refl TableFrame.trans tickTask_frame l k

@[simp] theorem advanceTicks_frame (k : Kernel) :
    ObjectFrame { k with gKernelTicks := k.gKernelTicks + 1 } (advanceTicks k)
      ∧ (advanceTicks k).semaphores = k.semaphores ∧ (advanceTicks k).mutexes = k.mutexes
      ∧ (advanceTicks k).mutexList = k.mutexList ∧ (advanceTicks k).queues = k.queues
      ∧ (advanceTicks k).eventGroups = k.eventGroups ∧ (advanceTicks k).timers = k.timers
      ∧ (advanceTicks k).timerList = k.timerList := by
  simp [advanceTicks]

/-- A tick that returns is its body: the invariant checks only read. -/
theorem tickTasks_body {k k' : Kernel} (h : tickTasks k = .ok k') : tickTasksBody k = .ok k' := by
  simp only [tickTasks, exec_bind_eq_ok] at h
  obtain ⟨k₁, hbody, -, -, h⟩ := h
  cases h
  exact hbody

theorem tickTasksBody_cases {k k' : Kernel} (h : tickTasksBody k = .ok k') :
    ∃ k₁, kernelTimerTick (advanceTicks k) = .ok k₁
      ∧ k' = (List.range k₁.taskCount).foldl tickTask k₁ := by
  simp only [tickTasksBody, exec_bind_eq_ok] at h
  obtain ⟨k₁, htimer, h⟩ := h
  cases h
  exact ⟨k₁, htimer, rfl⟩

/-! ## Functions that leave the task records alone -/

/-- Between `k` and `k'` the task table and the benchmark records stay. -/
@[simp] abbrev RecordFrame (k k' : Kernel) : Prop :=
  k'.tasks = k.tasks ∧ k'.benchmark = k.benchmark

theorem mutexLinkLocked_records {k k' : Kernel} {mutex : Ptr}
    (h : mutexLinkLocked k mutex = .ok k') : RecordFrame k k' := by
  simp only [mutexLinkLocked, exec_bind_eq_ok] at h
  obtain ⟨linked, -, h⟩ := h
  cases linked <;> cases h <;> exact ⟨rfl, rfl⟩

theorem jrtMutexCreateRecursiveStatic_records {k k' : Kernel} {mutex : Ptr}
    (h : jrtMutexCreateRecursiveStatic k mutex = .ok k') : RecordFrame k k' := by
  simp only [jrtMutexCreateRecursiveStatic, exec_bind_eq_ok] at h
  obtain ⟨linked, -, h⟩ := h
  have hlink := mutexLinkLocked_records h
  exact ⟨hlink.1, hlink.2⟩

theorem jrtEventGroupCreateStatic_records (k : Kernel) (group : Ptr) :
    RecordFrame k (jrtEventGroupCreateStatic k group) := by
  unfold jrtEventGroupCreateStatic
  split <;> exact ⟨rfl, rfl⟩

theorem timerLinkLocked_records {k k' : Kernel} {timer : Ptr}
    (h : timerLinkLocked k timer = .ok k') : RecordFrame k k' := by
  simp only [timerLinkLocked, exec_bind_eq_ok] at h
  obtain ⟨linked, -, h⟩ := h
  cases linked <;> cases h <;> exact ⟨rfl, rfl⟩

theorem jrtTimerCreateStatic_records {k k' : Kernel} {timer : Ptr}
    (h : jrtTimerCreateStatic k timer = .ok k') : RecordFrame k k' := by
  unfold jrtTimerCreateStatic at h
  split at h
  · cases h
    exact ⟨rfl, rfl⟩
  · simp only [exec_bind_eq_ok] at h
    obtain ⟨linked, -, h⟩ := h
    have hlink := timerLinkLocked_records h
    exact ⟨hlink.1, hlink.2⟩

/-- The timer operations that link a timer and then write it. -/
theorem timerLinked_records {k k' : Kernel} {timer : Ptr} {f : Kernel → JrtTimer}
    (h : (timerLinkLocked k timer >>= fun k => .ok (k.setTimer timer (f k))) = .ok k') :
    RecordFrame k k' := by
  rw [exec_bind_eq_ok] at h
  obtain ⟨k₁, hlink, h⟩ := h
  cases h
  have hrecords := timerLinkLocked_records hlink
  exact ⟨hrecords.1, hrecords.2⟩

theorem jrtTimerStart_records {k k' : Kernel} {timer : Ptr} {delayTicks : UInt32}
    (h : jrtTimerStart k timer delayTicks = .ok k') : RecordFrame k k' := by
  unfold jrtTimerStart at h
  split at h
  · cases h
    exact ⟨rfl, rfl⟩
  · exact timerLinked_records h

theorem jrtTimerStartPeriodic_records {k k' : Kernel} {timer : Ptr} {periodTicks : UInt32}
    (h : jrtTimerStartPeriodic k timer periodTicks = .ok k') : RecordFrame k k' := by
  unfold jrtTimerStartPeriodic at h
  split at h
  · cases h
    exact ⟨rfl, rfl⟩
  · exact timerLinked_records h

theorem jrtTimerRestart_records {k k' : Kernel} {timer : Ptr}
    (h : jrtTimerRestart k timer = .ok k') : RecordFrame k k' := by
  unfold jrtTimerRestart at h
  split at h
  · cases h
    exact ⟨rfl, rfl⟩
  · split at h
    · exact timerLinked_records h
    · cases h
      exact ⟨rfl, rfl⟩

theorem jrtTimerStop_records (k : Kernel) (timer : Ptr) :
    RecordFrame k (jrtTimerStop k timer) := by
  unfold jrtTimerStop
  split <;> exact ⟨rfl, rfl⟩

theorem jrtTimerTakeExpirations_records (k : Kernel) (timer : Ptr) :
    RecordFrame k (jrtTimerTakeExpirations k timer).2 := by
  unfold jrtTimerTakeExpirations
  split <;> exact ⟨rfl, rfl⟩

theorem jrtTimerDispatch_records (k : Kernel) (timer : Ptr) :
    RecordFrame k (jrtTimerDispatch k timer).2 := by
  simp only [jrtTimerDispatch]
  split
  · exact ⟨rfl, rfl⟩
  · split <;> exact ⟨rfl, rfl⟩

/-! ## The first segment of a call -/

def Call.sparesRecords : Call → Bool
  | .taskDelay _ | .taskSuspend _ | .taskResume _ | .semaphoreGive _ | .mutexUnlock _
  | .taskNotify _ _ | .eventGroupSetBits _ _ | .timerSetCallback _ _ _ => false
  | _ => true

/-- What the first segment of a call does to the kernel, seen from the task
records: every call that writes them, and all the others. -/
inductive EnterCases (k : Kernel) : Call → Kernel → Prop where
  | taskDelay (ticks : UInt32) : EnterCases k (.taskDelay ticks) (sleepCurrent k ticks)
  | taskSuspend (taskId : Nat) : EnterCases k (.taskSuspend taskId) (kernelTaskSuspend k taskId).2
  | taskResume (taskId : Nat) : EnterCases k (.taskResume taskId) (kernelTaskResume k taskId).2
  | semaphoreGive (semaphore : Ptr) :
      EnterCases k (.semaphoreGive semaphore) (semaphoreGiveLocked k semaphore)
  | mutexUnlock (mutex : Ptr) : EnterCases k (.mutexUnlock mutex) (jrtMutexUnlock k mutex false).2
  | notifyFails {taskId : Nat} {value : UInt32} :
      taskNotifyCommon k taskId value false false = none → EnterCases k (.taskNotify taskId value) k
  | taskNotify {taskId : Nat} {value : UInt32} {k' : Kernel} :
      taskNotifyCommon k taskId value false false = some k' →
      EnterCases k (.taskNotify taskId value) k'
  | setBitsFails (group : Ptr) (bits : UInt32) : EnterCases k (.eventGroupSetBits group bits) k
  | eventGroupSetBits {group : Ptr} {bits result : UInt32} {k' : Kernel} :
      eventGroupSetBitsCommon k group bits false false = some (result, k') →
      EnterCases k (.eventGroupSetBits group bits) k'
  | timerSetCallback (timer callback argument : Ptr) :
      EnterCases k (.timerSetCallback timer callback argument)
        (jrtTimerSetCallback k timer callback argument).2
  | spares {call : Call} {k' : Kernel} : call.sparesRecords = true → RecordFrame k k' →
      EnterCases k call k'

theorem enter_cases {k : Kernel} {call : Call} {s : Segment} (h : enter k call = .ok s) :
    EnterCases k call s.kernel := by
  cases call with
  | taskDelay ticks =>
      obtain rfl := Except.ok.inj h
      exact .taskDelay ticks
  | taskSuspend taskId =>
      obtain rfl := Except.ok.inj h
      exact .taskSuspend taskId
  | taskResume taskId =>
      obtain rfl := Except.ok.inj h
      exact .taskResume taskId
  | semaphoreGive semaphore =>
      obtain rfl := Except.ok.inj h
      exact .semaphoreGive semaphore
  | mutexUnlock mutex =>
      obtain rfl := Except.ok.inj h
      exact .mutexUnlock mutex
  | taskNotify taskId value =>
      simp only [enter] at h
      split at h
      · next hnone =>
          obtain rfl := Except.ok.inj h
          exact .notifyFails hnone
      · next hsome =>
          obtain rfl := Except.ok.inj h
          exact .taskNotify hsome
  | eventGroupSetBits group bits =>
      simp only [enter] at h
      split at h
      · obtain rfl := Except.ok.inj h
        exact .setBitsFails group bits
      · next hsome =>
          obtain rfl := Except.ok.inj h
          exact .eventGroupSetBits hsome
  | timerSetCallback timer callback argument =>
      have hcase := EnterCases.timerSetCallback (k := k) timer callback argument
      simp only [enter] at h
      split at h <;> next hcall =>
        rw [hcall] at hcase
        obtain rfl := Except.ok.inj h
        exact hcase
  | taskDelayUntil previousWake =>
      cases previousWake <;> obtain rfl := Except.ok.inj h <;> exact .spares rfl ⟨rfl, rfl⟩
  | mutexCreateRecursiveStatic mutex =>
      simp only [enter, exec_bind_eq_ok] at h
      obtain ⟨k', hcreate, h⟩ := h
      obtain rfl := Except.ok.inj h
      exact .spares rfl (jrtMutexCreateRecursiveStatic_records hcreate)
  | eventGroupCreateStatic group =>
      obtain rfl := Except.ok.inj h
      exact .spares rfl (jrtEventGroupCreateStatic_records k group)
  | timerCreateStatic timer =>
      simp only [enter, exec_bind_eq_ok] at h
      obtain ⟨k', hcreate, h⟩ := h
      obtain rfl := Except.ok.inj h
      exact .spares rfl (jrtTimerCreateStatic_records hcreate)
  | timerStart timer delayTicks =>
      simp only [enter, exec_bind_eq_ok] at h
      obtain ⟨k', hstart, h⟩ := h
      obtain rfl := Except.ok.inj h
      exact .spares rfl (jrtTimerStart_records hstart)
  | timerStartPeriodic timer periodTicks =>
      simp only [enter, exec_bind_eq_ok] at h
      obtain ⟨k', hstart, h⟩ := h
      obtain rfl := Except.ok.inj h
      exact .spares rfl (jrtTimerStartPeriodic_records hstart)
  | timerRestart timer =>
      simp only [enter, exec_bind_eq_ok] at h
      obtain ⟨k', hstart, h⟩ := h
      obtain rfl := Except.ok.inj h
      exact .spares rfl (jrtTimerRestart_records hstart)
  | timerStop timer =>
      obtain rfl := Except.ok.inj h
      exact .spares rfl (jrtTimerStop_records k timer)
  | timerTakeExpirations timer =>
      obtain rfl := Except.ok.inj h
      exact .spares rfl (jrtTimerTakeExpirations_records k timer)
  | timerDispatch timer =>
      obtain rfl := Except.ok.inj h
      exact .spares rfl (jrtTimerDispatch_records k timer)
  | taskYield | boardLedToggle | semaphoreCreateBinaryStatic | semaphoreTake | mutexLock
  | queueCreateStatic | queueSend | queueReceive | taskNotifyTake | eventGroupWaitBits
  | callbackReturn =>
      obtain rfl := Except.ok.inj h
      exact .spares rfl ⟨rfl, rfl⟩

end JustRT
