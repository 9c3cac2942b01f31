import JustRT.Wait

/-!
# Priorities, seen from outside

Effective and base priorities as functions of the task index. Base
priorities are written by `JRT_KernelInit` alone, effective ones by the
inheritance and restoration routines alone. `PrioFrame` says that two
kernels agree in both, which is all that most results about scheduling
need to know of a step.
-/

namespace JustRT

def Kernel.prio (k : Kernel) (j : Nat) : Nat := (k.tasks j).priority

def Kernel.basePrio (k : Kernel) (j : Nat) : Nat := (k.tasks j).basePriority

/-- No priority differs between `k` and `k'`. -/
@[simp] abbrev PrioFrame (k k' : Kernel) : Prop :=
  k'.prio = k.prio ∧ k'.basePrio = k.basePrio

theorem PrioFrame.refl (k : Kernel) : PrioFrame k k := ⟨rfl, rfl⟩

theorem PrioFrame.trans {k₁ k₂ k₃ : Kernel} (h₁ : PrioFrame k₁ k₂) (h₂ : PrioFrame k₂ k₃) :
    PrioFrame k₁ k₃ :=
  ⟨h₂.1.trans h₁.1, h₂.2.trans h₁.2⟩

theorem prio_eq_of_tasks_eq {k k' : Kernel} (h : k'.tasks = k.tasks) : PrioFrame k k' := by
  constructor <;> funext j <;> simp [Kernel.prio, Kernel.basePrio, h]

theorem setTask_prio (k : Kernel) (i : Nat) (t : Task) :
    (k.setTask i t).prio = Function.update k.prio i t.priority := by
  funext j
  by_cases h : j = i
  · simp [h, Kernel.prio]
  · simp [h, Kernel.prio, Kernel.setTask_tasks_of_ne]

theorem setTask_basePrio (k : Kernel) (i : Nat) (t : Task) :
    (k.setTask i t).basePrio = Function.update k.basePrio i t.basePriority := by
  funext j
  by_cases h : j = i
  · simp [h, Kernel.basePrio]
  · simp [h, Kernel.basePrio, Kernel.setTask_tasks_of_ne]

/-- A record written over one of the same priorities. -/
theorem setTask_prioFrame {k : Kernel} {i : Nat} {t : Task}
    (hp : t.priority = (k.tasks i).priority) (hb : t.basePriority = (k.tasks i).basePriority) :
    PrioFrame k (k.setTask i t) := by
  rw [PrioFrame, setTask_prio, setTask_basePrio, hp, hb]
  exact ⟨Function.update_eq_self i k.prio, Function.update_eq_self i k.basePrio⟩

/-! ## Functions that leave every priority alone -/

@[simp] theorem setSemaphore_prioFrame (k : Kernel) (a : Ptr) (s : JrtSemaphore) :
    PrioFrame k (k.setSemaphore a s) := ⟨rfl, rfl⟩

@[simp] theorem setMutex_prioFrame (k : Kernel) (a : Ptr) (m : JrtMutex) :
    PrioFrame k (k.setMutex a m) := ⟨rfl, rfl⟩

@[simp] theorem setQueue_prioFrame (k : Kernel) (a : Ptr) (q : JrtQueue) :
    PrioFrame k (k.setQueue a q) := ⟨rfl, rfl⟩

@[simp] theorem setEventGroup_prioFrame (k : Kernel) (a : Ptr) (g : JrtEventGroup) :
    PrioFrame k (k.setEventGroup a g) := ⟨rfl, rfl⟩

@[simp] theorem setTimer_prioFrame (k : Kernel) (a : Ptr) (t : JrtTimer) :
    PrioFrame k (k.setTimer a t) := ⟨rfl, rfl⟩

@[simp] theorem taskBenchmarkReleaseLocked_prioFrame (k : Kernel) (task : Nat) (b : Bool) :
    PrioFrame k (taskBenchmarkReleaseLocked k task b) := ⟨rfl, rfl⟩

@[simp] theorem taskBenchmarkCoalescedLocked_prioFrame (k : Kernel) (task : Nat) :
    PrioFrame k (taskBenchmarkCoalescedLocked k task) := ⟨rfl, rfl⟩

@[simp] theorem taskBenchmarkStartLocked_prioFrame (k : Kernel) (task : Nat) :
    PrioFrame k (taskBenchmarkStartLocked k task) := ⟨rfl, rfl⟩

@[simp] theorem taskBenchmarkCompleteLocked_prioFrame (k : Kernel) (task : Nat) :
    PrioFrame k (taskBenchmarkCompleteLocked k task) := ⟨rfl, rfl⟩

@[simp] theorem advanceTicks_prioFrame (k : Kernel) : PrioFrame k (advanceTicks k) := ⟨rfl, rfl⟩

@[simp] theorem mapDiag_prioFrame (k : Kernel) (f : Diagnostics → Diagnostics) :
    PrioFrame k (k.mapDiag f) := ⟨rfl, rfl⟩

@[simp] theorem countContextMisuse_prioFrame (k : Kernel) (bump : SyncMisuse → SyncMisuse) :
    PrioFrame k (countContextMisuse k bump) := ⟨rfl, rfl⟩

@[simp] theorem countTimeout_prioFrame (k : Kernel) (waitKind : TaskWaitKind) :
    PrioFrame k (countTimeout k waitKind) := by
  cases waitKind <;> exact ⟨rfl, rfl⟩

@[simp] theorem taskWaitBeginUntil_prioFrame (k : Kernel) (task : Nat) (object : WaitObject)
    (waitKind : TaskWaitKind) (deadline : TaskWaitDeadline) :
    PrioFrame k (taskWaitBeginUntil k task object waitKind deadline) :=
  setTask_prioFrame rfl rfl

@[simp] theorem taskWaitBegin_prioFrame (k : Kernel) (task : Nat) (object : WaitObject)
    (waitKind : TaskWaitKind) (timeoutTicks : UInt32) :
    PrioFrame k (taskWaitBegin k task object waitKind timeoutTicks) :=
  taskWaitBeginUntil_prioFrame k task object waitKind _

@[simp] theorem taskWaitEnd_prioFrame (k : Kernel) (task : Nat) (result : UInt32)
    (coalesced : Bool) : PrioFrame k (taskWaitEnd k task result coalesced) :=
  setTask_prioFrame rfl rfl

@[simp] theorem taskBlockUntilLocked_prioFrame (k : Kernel) (object : WaitObject)
    (waitKind : TaskWaitKind) (deadline : TaskWaitDeadline) :
    PrioFrame k (taskBlockUntilLocked k object waitKind deadline).2 := by
  unfold taskBlockUntilLocked
  split <;> simp

@[simp] theorem wakeSelected_prioFrame (k : Kernel) (selected : Option Nat) :
    PrioFrame k (selected.elim k fun s => taskWaitEnd k s 1 false) := by
  cases selected <;> simp

@[simp] theorem taskTimerServiceWakeLocked_prioFrame (k : Kernel) :
    PrioFrame k (taskTimerServiceWakeLocked k) := by
  simp only [taskTimerServiceWakeLocked]
  split <;> simp

@[simp] theorem taskTimerServiceBlockLocked_prioFrame (k : Kernel) :
    PrioFrame k (taskTimerServiceBlockLocked k) := by
  simp [taskTimerServiceBlockLocked]

@[simp] theorem sleepCurrent_prioFrame (k : Kernel) (ticks : UInt32) :
    PrioFrame k (sleepCurrent k ticks) := by
  have hhook : PrioFrame k
      (if ticks ≠ 0 then taskBenchmarkCompleteLocked k k.gCurrentTaskIndex else k) := by
    split <;> simp
  exact hhook.trans (setTask_prioFrame rfl rfl)

@[simp] theorem kernelTaskSuspend_prioFrame (k : Kernel) (task : Nat) :
    PrioFrame k (kernelTaskSuspend k task).2 := by
  simp only [kernelTaskSuspend]
  split
  · simp
  · split
    · simp
    · split
      · simp
      · split
        · simp
        · refine PrioFrame.trans ?_ (setTask_prioFrame rfl rfl)
          split <;> simp

@[simp] theorem kernelTaskResume_prioFrame (k : Kernel) (task : Nat) :
    PrioFrame k (kernelTaskResume k task).2 := by
  simp only [kernelTaskResume]
  split
  · simp
  · split
    · simp
    · split
      · simp
      · split
        · simp
        · exact setTask_prioFrame rfl rfl

theorem taskNotifyCommon_prioFrame {k k' : Kernel} {task : Nat} {value : UInt32}
    {fromIsr inIsr : Bool} (h : taskNotifyCommon k task value fromIsr inIsr = some k') :
    PrioFrame k k' := by
  obtain ⟨-, k₁, _, hk₁, hcases⟩ := taskNotifyCommon_cases h
  have hk₁ : PrioFrame k k₁ := by
    rw [hk₁]
    exact setTask_prioFrame rfl rfl
  obtain ⟨-, -, rfl⟩ | ⟨-, rfl | rfl⟩ := hcases
  · exact hk₁.trans (taskWaitEnd_prioFrame _ _ _ _)
  · exact hk₁
  · exact hk₁.trans (taskBenchmarkCoalescedLocked_prioFrame _ _)

@[simp] theorem jrtTaskNotifyTake_prioFrame (k : Kernel) (value : Ptr) (timeoutTicks : UInt32)
    (inIsr : Bool) : PrioFrame k (jrtTaskNotifyTake k value timeoutTicks inIsr).2.2 := by
  simp only [jrtTaskNotifyTake]
  split
  · simp
  · split
    · exact setTask_prioFrame rfl rfl
    · split <;> simp

@[simp] theorem jrtTaskNotifyTakeResume_prioFrame (k : Kernel) :
    PrioFrame k (jrtTaskNotifyTakeResume k).2.2 :=
  setTask_prioFrame rfl rfl

@[simp] theorem setBitsStep_prioFrame (group : Ptr) (k : Kernel) (index : Nat) :
    PrioFrame k (setBitsStep group k index) := by
  simp only [setBitsStep]
  split <;> simp

@[simp] theorem foldl_setBitsStep_prioFrame (group : Ptr) (l : List Nat) (k : Kernel) :
    PrioFrame k (l.foldl (setBitsStep group) k) :=
  Scan.foldl_rel PrioFrame.refl PrioFrame.trans (setBitsStep_prioFrame group) l k

theorem eventGroupSetBitsCommon_prioFrame {k k' : Kernel} {group : Ptr} {bits result : UInt32}
    {fromIsr inIsr : Bool}
    (h : eventGroupSetBitsCommon k group bits fromIsr inIsr = some (result, k')) :
    PrioFrame k k' := by
  simp only [eventGroupSetBitsCommon] at h
  split at h
  · cases h
  · cases h
    simp

@[simp] theorem jrtEventGroupWaitBits_prioFrame (k : Kernel) (group : Ptr) (bits : UInt32)
    (waitAll clearOnExit : Bool) (timeoutTicks : UInt32) (inIsr : Bool) :
    PrioFrame k
      (jrtEventGroupWaitBits k group bits waitAll clearOnExit timeoutTicks inIsr).2 := by
  simp only [jrtEventGroupWaitBits]
  split
  · simp
  · split
    · cases clearOnExit <;> simp
    · split
      · simp
      · have hset : PrioFrame k (k.setTask k.currentTask ((k.tasks k.currentTask).withEventWait
            bits (boolWord waitAll) (boolWord clearOnExit))) := setTask_prioFrame rfl rfl
        exact hset.trans (taskWaitBegin_prioFrame _ _ _ _ _)

@[simp] theorem jrtEventGroupWaitBitsResume_prioFrame (k : Kernel) (group : Ptr)
    (bits : UInt32) : PrioFrame k (jrtEventGroupWaitBitsResume k group bits).2 := by
  simp only [jrtEventGroupWaitBitsResume]
  split <;> simp

@[simp] theorem jrtSemaphoreTake_prioFrame (k : Kernel) (semaphore : Ptr)
    (timeoutTicks : UInt32) (deadline : TaskWaitDeadline) (inIsr : Bool) :
    PrioFrame k (jrtSemaphoreTake k semaphore timeoutTicks deadline inIsr).2 := by
  simp only [jrtSemaphoreTake]
  repeat' split
  all_goals simp

@[simp] theorem semaphoreGiveLocked_prioFrame (k : Kernel) (semaphore : Ptr) :
    PrioFrame k (semaphoreGiveLocked k semaphore) := by
  simp only [semaphoreGiveLocked, taskWake_eq]
  split <;> simp

@[simp] theorem queueWakeReceiver_prioFrame (k : Kernel) (queue : Ptr) :
    PrioFrame k (queueWakeReceiver k queue) := by
  simp only [queueWakeReceiver, taskWake_eq]
  split <;> simp

@[simp] theorem queueWakeSender_prioFrame (k : Kernel) (queue : Ptr) :
    PrioFrame k (queueWakeSender k queue) := by
  simp only [queueWakeSender, taskWake_eq]
  split <;> simp

@[simp] theorem jrtQueueSend_prioFrame (k : Kernel) (queue : Ptr) (source : Nat → UInt8)
    (timeoutTicks : UInt32) (deadline : TaskWaitDeadline) (reserved inIsr : Bool) :
    PrioFrame k (jrtQueueSend k queue source timeoutTicks deadline reserved inIsr).2 := by
  simp only [jrtQueueSend]
  repeat' split
  all_goals simp

@[simp] theorem jrtQueueReceive_prioFrame (k : Kernel) (queue : Ptr) (timeoutTicks : UInt32)
    (deadline : TaskWaitDeadline) (reserved inIsr : Bool) :
    PrioFrame k (jrtQueueReceive k queue timeoutTicks deadline reserved inIsr).2.2 := by
  simp only [jrtQueueReceive]
  repeat' split
  all_goals simp

@[simp] theorem jrtQueueSendFromIsr_prioFrame (k : Kernel) (queue : Ptr)
    (source : Nat → UInt8) (inIsr : Bool) :
    PrioFrame k (jrtQueueSendFromIsr k queue source inIsr).2 := by
  simp only [jrtQueueSendFromIsr]
  repeat' split
  all_goals simp

@[simp] theorem jrtTimerSetCallback_prioFrame (k : Kernel) (timer callback argument : Ptr) :
    PrioFrame k (jrtTimerSetCallback k timer callback argument).2 := by
  simp only [jrtTimerSetCallback]
  repeat' split
  all_goals simp

@[simp] theorem timerExpire_prioFrame (k : Kernel) (timer : Ptr) :
    PrioFrame k (timerExpire k timer) := by
  simp only [timerExpire]
  split <;> simp

@[simp] theorem timerTickStep_prioFrame (now : UInt32) (k : Kernel) (timer : Ptr) :
    PrioFrame k (timerTickStep now k timer) := by
  unfold timerTickStep
  split
  · exact (timerExpire_prioFrame k timer).trans
      (prio_eq_of_tasks_eq (timerRearm_frame _ timer).2)
  · simp

theorem timerTickLoop_prioFrame {now : UInt32} {fuel : Nat} {timer : Ptr} {k k' : Kernel}
    (h : timerTickLoop now fuel timer k = .ok k') : PrioFrame k k' := by
  induction fuel generalizing timer k with
  | zero => cases h
  | succ fuel ih =>
      unfold timerTickLoop at h
      split at h
      · cases h; simp
      · exact (timerTickStep_prioFrame now k timer).trans (ih h)

theorem kernelTimerServiceClaim_prioFrame {k k' : Kernel} {claimed : Option Ptr}
    (h : kernelTimerServiceClaim k = .ok (claimed, k')) : PrioFrame k k' := by
  simp only [kernelTimerServiceClaim, exec_bind_eq_ok] at h
  obtain ⟨found, -, h⟩ := h
  cases found <;> cases h <;> simp

/-! ## Base priorities -/

@[simp] theorem setPriority_basePrio (k : Kernel) (task priority : Nat) :
    (setPriority k task priority).basePrio = k.basePrio := by
  simp only [setPriority, setTask_basePrio]
  exact Function.update_eq_self task k.basePrio

theorem setPriority_prio (k : Kernel) (task priority : Nat) :
    (setPriority k task priority).prio = Function.update k.prio task priority := by
  simp only [setPriority, setTask_prio]
  rfl

end JustRT
