import JustRT.Scheduler

/-!
# Who sleeps, and for how long

A sleep is a state and a counter. Nothing but the tick and the delay calls
writes it: a wake-up ends the wait of a `BLOCKED` task, and a switch or a
suspension finds its task `READY` or `RUNNING`. `StepCases.sleep` is that
statement for one step of the system.
-/

namespace JustRT

/-- The ticks a `SLEEPING` task has left. -/
def Task.sleep (t : Task) : Option UInt32 :=
  if t.state = .sleeping then some t.sleepTicks else none

def Kernel.sleep (k : Kernel) (j : Nat) : Option UInt32 := (k.tasks j).sleep

theorem sleep_eq_none_iff {k : Kernel} {j : Nat} :
    k.sleep j = none ↔ (k.view j).state ≠ .sleeping := by
  simp [Kernel.sleep, Task.sleep, view_state]

theorem sleep_eq_some_iff {k : Kernel} {j : Nat} {n : UInt32} :
    k.sleep j = some n ↔ (k.view j).state = .sleeping ∧ (k.tasks j).sleepTicks = n := by
  simp [Kernel.sleep, Task.sleep, view_state]

theorem sleep_eq_of_tasks_eq {k k' : Kernel} (h : k'.tasks = k.tasks) : k'.sleep = k.sleep := by
  funext j
  rw [Kernel.sleep, Kernel.sleep, h]

theorem setTask_sleep (k : Kernel) (i : Nat) (t : Task) :
    (k.setTask i t).sleep = Function.update k.sleep i t.sleep := by
  funext j
  by_cases h : j = i
  · simp [h, Kernel.sleep]
  · simp [h, Kernel.sleep, Kernel.setTask_tasks_of_ne]

theorem setTask_sleep_of_eq {k : Kernel} {i : Nat} {t : Task} (h : t.sleep = k.sleep i) :
    (k.setTask i t).sleep = k.sleep := by
  rw [setTask_sleep, h]
  exact Function.update_eq_self i k.sleep

/-- A record is written that neither slept nor sleeps. -/
theorem setTask_sleep_of_ne {k : Kernel} {i : Nat} {t : Task}
    (hold : (k.tasks i).state ≠ .sleeping) (hnew : t.state ≠ .sleeping) :
    (k.setTask i t).sleep = k.sleep := by
  refine setTask_sleep_of_eq ?_
  rw [Kernel.sleep, Task.sleep, Task.sleep, if_neg hold, if_neg hnew]

/-! ## Wake-ups -/

@[simp] theorem setPriority_sleep (k : Kernel) (task priority : Nat) :
    (setPriority k task priority).sleep = k.sleep :=
  setTask_sleep_of_eq rfl

@[simp] theorem inheritLoop_sleep (priority depth id : Nat) (k : Kernel) :
    (inheritLoop priority depth id k).sleep = k.sleep :=
  (inheritLoop_reprioritized priority depth id k).kept Kernel.sleep setPriority_sleep

@[simp] theorem restoreLoop_sleep (depth id : Nat) (k : Kernel) :
    (restoreLoop depth id k).sleep = k.sleep :=
  (restoreLoop_reprioritized depth id k).kept Kernel.sleep setPriority_sleep

@[simp] theorem taskInheritPriority_sleep (k : Kernel) (task priority : Nat) :
    (taskInheritPriority k task priority).sleep = k.sleep :=
  (taskInheritPriority_reprioritized k task priority).kept Kernel.sleep setPriority_sleep

@[simp] theorem restorePriorityChain_sleep (k : Kernel) (task : Nat) :
    (restorePriorityChain k task).sleep = k.sleep :=
  (restorePriorityChain_reprioritized k task).kept Kernel.sleep setPriority_sleep

@[simp] theorem taskRestorePriority_sleep (k : Kernel) (task : Nat) :
    (taskRestorePriority k task).sleep = k.sleep :=
  (taskRestorePriority_reprioritized k task).kept Kernel.sleep setPriority_sleep

theorem taskWaitEnd_sleep {k : Kernel} {task : Nat} (hb : (k.view task).state = .blocked)
    (result : UInt32) (coalesced : Bool) :
    (taskWaitEnd k task result coalesced).sleep = k.sleep := by
  have hold : (k.tasks task).state ≠ .sleeping := by
    rw [← view_state, hb]
    decide
  refine Eq.trans (setTask_sleep_of_ne ?_ ?_)
    (sleep_eq_of_tasks_eq (taskBenchmarkReleaseLocked_frame k task coalesced).2)
  · rw [(taskBenchmarkReleaseLocked_frame k task coalesced).2]
    exact hold
  · simp [Task.waitEnded]

@[simp] theorem wakeSelected_sleep (k : Kernel) (object : WaitObject) (waitKind : TaskWaitKind) :
    ((wakeSelect k object waitKind).elim k fun s => taskWaitEnd k s 1 false).sleep = k.sleep := by
  cases h : wakeSelect k object waitKind with
  | none => rfl
  | some s => exact taskWaitEnd_sleep (wakeSelect_spec h).2.1.1 1 false

@[simp] theorem taskTimerServiceWakeLocked_sleep (k : Kernel) :
    (taskTimerServiceWakeLocked k).sleep = k.sleep := by
  simp only [taskTimerServiceWakeLocked]
  split
  · next h => exact taskWaitEnd_sleep h.1 1 false
  · rfl

@[simp] theorem setBitsStep_sleep (group : Ptr) (k : Kernel) (index : Nat) :
    (setBitsStep group k index).sleep = k.sleep := by
  simp only [setBitsStep]
  split
  · next h => exact taskWaitEnd_sleep h.1 1 false
  · rfl

theorem eventGroupSetBitsCommon_sleep {k k' : Kernel} {group : Ptr} {bits result : UInt32}
    {fromIsr inIsr : Bool}
    (h : eventGroupSetBitsCommon k group bits fromIsr inIsr = some (result, k')) :
    k'.sleep = k.sleep := by
  simp only [eventGroupSetBitsCommon] at h
  split at h
  · cases h
  · cases h
    exact Scan.foldl_rel (r := fun k k' : Kernel => k'.sleep = k.sleep) (fun _ => rfl)
      (fun h₁ h₂ => h₂.trans h₁) (setBitsStep_sleep group) _ _

theorem taskNotifyCommon_sleep {k k' : Kernel} {task : Nat} {value : UInt32}
    {fromIsr inIsr : Bool} (h : taskNotifyCommon k task value fromIsr inIsr = some k') :
    k'.sleep = k.sleep := by
  obtain ⟨-, k₁, coalesced, hk₁, hcases⟩ := taskNotifyCommon_cases h
  have hadded : k₁.sleep = k.sleep := by
    rw [hk₁]
    exact setTask_sleep_of_eq rfl
  rw [← hadded]
  obtain ⟨hb, -, rfl⟩ | ⟨-, rfl | rfl⟩ := hcases
  · exact taskWaitEnd_sleep hb 1 coalesced
  · rfl
  · rfl

@[simp] theorem semaphoreGiveLocked_sleep (k : Kernel) (semaphore : Ptr) :
    (semaphoreGiveLocked k semaphore).sleep = k.sleep := by
  simp only [semaphoreGiveLocked, taskWake_eq]
  split
  · exact wakeSelected_sleep k _ _
  · exact Eq.trans (sleep_eq_of_tasks_eq rfl) (wakeSelected_sleep k _ _)

@[simp] theorem jrtMutexUnlock_sleep (k : Kernel) (mutex : Ptr) (inIsr : Bool) :
    (jrtMutexUnlock k mutex inIsr).2.sleep = k.sleep := by
  have hwake := wakeSelected_sleep k (.ptr mutex) .mutex
  simp only [jrtMutexUnlock, taskWakeGetId_eq]
  split
  · rfl
  · split
    · rfl
    · split
      · rfl
      · cases hs : wakeSelect k (.ptr mutex) .mutex with
        | none => exact taskRestorePriority_sleep _ _
        | some s =>
            rw [hs] at hwake
            refine (taskRestorePriority_sleep _ _).trans ((taskRestorePriority_sleep _ _).trans ?_)
            exact Eq.trans (sleep_eq_of_tasks_eq rfl) hwake

@[simp] theorem queueWakeReceiver_sleep (k : Kernel) (queue : Ptr) :
    (queueWakeReceiver k queue).sleep = k.sleep := by
  simp only [queueWakeReceiver, taskWake_eq]
  split
  · exact Eq.trans (sleep_eq_of_tasks_eq rfl) (wakeSelected_sleep k _ _)
  · exact wakeSelected_sleep k _ _

@[simp] theorem queueWakeSender_sleep (k : Kernel) (queue : Ptr) :
    (queueWakeSender k queue).sleep = k.sleep := by
  simp only [queueWakeSender, taskWake_eq]
  split
  · exact Eq.trans (sleep_eq_of_tasks_eq rfl) (wakeSelected_sleep k _ _)
  · exact wakeSelected_sleep k _ _

@[simp] theorem jrtQueueSendFromIsr_sleep (k : Kernel) (queue : Ptr) (source : Nat → UInt8)
    (inIsr : Bool) : (jrtQueueSendFromIsr k queue source inIsr).2.sleep = k.sleep := by
  simp only [jrtQueueSendFromIsr]
  split
  · rfl
  · split
    · exact queueWakeReceiver_sleep _ queue
    · rfl

@[simp] theorem jrtTimerSetCallback_sleep (k : Kernel) (timer callback argument : Ptr) :
    (jrtTimerSetCallback k timer callback argument).2.sleep = k.sleep := by
  simp only [jrtTimerSetCallback]
  split
  · rfl
  · split
    · exact taskTimerServiceWakeLocked_sleep _
    · rfl

@[simp] theorem timerTickStep_sleep (now : UInt32) (k : Kernel) (timer : Ptr) :
    (timerTickStep now k timer).sleep = k.sleep := by
  have hexpire : (timerExpire k timer).sleep = k.sleep := by
    simp only [timerExpire]
    split
    · exact taskTimerServiceWakeLocked_sleep _
    · rfl
  unfold timerTickStep
  split
  · rw [sleep_eq_of_tasks_eq (timerRearm_frame _ timer).2, hexpire]
  · rfl

theorem timerTickLoop_sleep {now : UInt32} {fuel : Nat} {timer : Ptr} {k k' : Kernel}
    (h : timerTickLoop now fuel timer k = .ok k') : k'.sleep = k.sleep := by
  induction fuel generalizing timer k with
  | zero => cases h
  | succ fuel ih =>
      unfold timerTickLoop at h
      split at h
      · obtain rfl := Except.ok.inj h
        rfl
      · rw [ih h, timerTickStep_sleep]

/-! ## Blocking calls, delays and suspensions -/

theorem taskWaitBeginUntil_sleep {k : Kernel} {task : Nat}
    (hold : (k.view task).state ≠ .sleeping) (object : WaitObject) (waitKind : TaskWaitKind)
    (deadline : TaskWaitDeadline) :
    (taskWaitBeginUntil k task object waitKind deadline).sleep = k.sleep :=
  setTask_sleep_of_ne hold (by simp [Task.waitBegun])

theorem taskBlockUntilLocked_sleep {k : Kernel}
    (hold : (k.view k.currentTask).state ≠ .sleeping) (object : WaitObject)
    (waitKind : TaskWaitKind) (deadline : TaskWaitDeadline) :
    (taskBlockUntilLocked k object waitKind deadline).2.sleep = k.sleep := by
  unfold taskBlockUntilLocked
  split
  · rfl
  · exact taskWaitBeginUntil_sleep hold _ _ _

theorem sleepCurrent_sleep (k : Kernel) (ticks : UInt32) :
    (sleepCurrent k ticks).sleep
      = Function.update k.sleep k.currentTask (if ticks = 0 then none else some ticks) := by
  simp only [sleepCurrent]
  by_cases hzero : ticks = 0
  · simp only [hzero, ne_eq, not_true_eq_false, if_false, if_true, setTask_sleep]
    rfl
  · simp only [hzero, ne_eq, not_false_eq_true, if_false, if_true, setTask_sleep]
    rfl

/-- A suspension finds its task `READY` or `RUNNING`. -/
theorem kernelTaskSuspend_sleep (k : Kernel) (requested : Nat) :
    (kernelTaskSuspend k requested).2.sleep = k.sleep := by
  simp only [kernelTaskSuspend]
  split
  · rfl
  · split
    · rfl
    · split
      · rfl
      · next taskId _ =>
          by_cases hstate : (k.tasks taskId).state ≠ .ready
              ∧ ((k.tasks taskId).state ≠ .running ∨ taskId ≠ k.gCurrentTaskIndex)
          · rw [if_pos hstate]
          · rw [if_neg hstate]
            have hold : (k.tasks taskId).state ≠ .sleeping := fun hsleep =>
              hstate ⟨by simp [hsleep], Or.inl (by simp [hsleep])⟩
            have hnew : TaskState.suspended ≠ .sleeping := by decide
            split
            · exact setTask_sleep_of_ne hold hnew
            · exact setTask_sleep_of_ne hold hnew

theorem kernelTaskResume_sleep (k : Kernel) (requested : Nat) :
    (kernelTaskResume k requested).2.sleep = k.sleep := by
  simp only [kernelTaskResume]
  split
  · rfl
  · split
    · rfl
    · split
      · rfl
      · next taskId _ =>
          by_cases hstate : (k.tasks taskId).state ≠ .suspended
          · rw [if_pos hstate]
          · rw [if_neg hstate]
            have hold : (k.tasks taskId).state ≠ .sleeping := fun hsleep =>
              hstate (by simp [hsleep])
            have hnew : TaskState.ready ≠ .sleeping := by decide
            exact setTask_sleep_of_ne hold hnew

/-! ## Segments -/

/-- The ticks a call delays its task by at once. -/
def Call.delay : Call → Option UInt32
  | .taskDelay ticks => some ticks
  | _ => none

def Action.delay (c : Cfg) : Action → Option UInt32
  | .call made => made.delay
  | .proceed _ =>
      match c.pc c.current with
      | .delaying nextWake now =>
          if signedNonneg (now - nextWake) then none else some (nextWake - now)
      | _ => none
  | _ => none

/-- The sleeps once task `i` is delayed by `delay`. -/
def Kernel.delayed (k : Kernel) (i : Nat) : Option UInt32 → Nat → Option UInt32
  | some ticks => Function.update k.sleep i (if ticks = 0 then none else some ticks)
  | none => k.sleep

theorem EnterCases.sleep {k k' : Kernel} {call : Call} (h : EnterCases k call k') :
    k'.sleep = k.delayed k.currentTask call.delay := by
  cases h with
  | taskDelay ticks => exact sleepCurrent_sleep k ticks
  | taskSuspend taskId => exact kernelTaskSuspend_sleep k taskId
  | taskResume taskId => exact kernelTaskResume_sleep k taskId
  | semaphoreGive semaphore => exact semaphoreGiveLocked_sleep k semaphore
  | mutexUnlock mutex => exact jrtMutexUnlock_sleep k mutex false
  | notifyFails => rfl
  | taskNotify hsome => exact taskNotifyCommon_sleep hsome
  | setBitsFails => rfl
  | eventGroupSetBits hsome => exact eventGroupSetBitsCommon_sleep hsome
  | timerSetCallback timer callback argument =>
      exact jrtTimerSetCallback_sleep k timer callback argument
  | spares hspares hrecords =>
      rw [sleep_eq_of_tasks_eq hrecords.1]
      cases call <;> first | rfl | cases hspares

/-- The critical section of a blocking call, of a task that does not sleep. -/
theorem proceedEntered_sleep {k : Kernel} {source : Nat → UInt8} {reserved : Bool}
    {call : WaitCall} {s : Segment} (hold : (k.view k.currentTask).state ≠ .sleeping)
    (h : proceedEntered k source reserved call = .ok s) : s.kernel.sleep = k.sleep := by
  cases call with
  | semaphoreTake sem timeout deadline =>
      obtain rfl := Except.ok.inj h
      simp only [ofFlow_kernel, jrtSemaphoreTake, Bool.false_eq_true, if_false]
      split
      · rfl
      · split
        · rfl
        · exact taskBlockUntilLocked_sleep hold _ _ _
  | mutexLock m timeout deadline =>
      obtain rfl := Except.ok.inj h
      simp only [ofFlow_kernel, jrtMutexLock, Bool.false_eq_true, if_false]
      split
      · rfl
      · split
        · rfl
        · split
          · rfl
          · rw [taskBlockUntilLocked_sleep, taskInheritPriority_sleep]
            rw [taskInheritPriority_view, (taskInheritPriority_frame _ _ _).2.2.2.1]
            exact hold
  | queueSend q timeout deadline =>
      obtain rfl := Except.ok.inj h
      simp only [ofFlow_kernel, jrtQueueSend, Bool.false_eq_true, if_false]
      split
      · exact queueWakeReceiver_sleep _ q
      · split
        · rfl
        · exact taskBlockUntilLocked_sleep hold _ _ _
  | queueReceive q timeout deadline =>
      obtain rfl := Except.ok.inj h
      simp only [ofFlow_kernel, jrtQueueReceive, Bool.false_eq_true, if_false]
      split
      · exact queueWakeSender_sleep _ q
      · split
        · rfl
        · exact taskBlockUntilLocked_sleep hold _ _ _
  | taskNotifyTake value timeout =>
      obtain rfl := Except.ok.inj h
      simp only [ofFlow_kernel, jrtTaskNotifyTake]
      split
      · rfl
      · split
        · exact setTask_sleep_of_eq rfl
        · split
          · rfl
          · exact taskWaitBeginUntil_sleep hold _ _ _
  | eventGroupWaitBits g bits waitAll clear timeout =>
      obtain rfl := Except.ok.inj h
      simp only [ofFlow_kernel, jrtEventGroupWaitBits]
      split
      · rfl
      · split
        · cases clear <;> rfl
        · split
          · rfl
          · refine (taskWaitBeginUntil_sleep ?_ _ _ _).trans (setTask_sleep_of_eq rfl)
            rw [setTask_view, Function.update_self]
            exact hold
  | timerServiceClaim =>
      simp only [proceedEntered, exec_bind_eq_ok, kernelTimerServiceClaim] at h
      obtain ⟨⟨_, k'⟩, ⟨claimed, -, hclaim⟩, h⟩ := h
      cases claimed with
      | none =>
          cases hclaim
          cases h
          exact taskWaitBeginUntil_sleep hold _ _ _
      | some timer =>
          cases hclaim
          cases h
          rfl

theorem proceedResumed_sleep (k : Kernel) (call : WaitCall) :
    (proceedResumed k call).kernel.sleep = k.sleep := by
  cases call with
  | queueSend q timeout deadline =>
      simp only [proceedResumed]
      split <;> rfl
  | queueReceive q timeout deadline =>
      simp only [proceedResumed]
      split <;> rfl
  | taskNotifyTake value timeout => exact setTask_sleep_of_eq rfl
  | eventGroupWaitBits g bits waitAll clear timeout =>
      simp only [proceedResumed, jrtEventGroupWaitBitsResume, ret_kernel]
      split <;> rfl
  | _ => rfl

theorem isrCall_sleep (k : Kernel) (call : IsrCall) : (isrCall k call).1.sleep = k.sleep := by
  cases call with
  | semaphoreGiveFromIsr s => exact semaphoreGiveLocked_sleep k s
  | queueSendFromIsr q source => exact jrtQueueSendFromIsr_sleep k q source true
  | taskNotifyFromIsr task value =>
      simp only [isrCall]
      split
      · rfl
      · next hsome => exact taskNotifyCommon_sleep hsome
  | eventGroupSetBitsFromIsr g bits =>
      simp only [isrCall]
      split
      · rfl
      · next hsome => exact eventGroupSetBitsCommon_sleep hsome

/-- A segment of the running task puts it to sleep if it delays it. -/
theorem ThreadSegment.sleep {c : Cfg} {a : Action} {s : Segment} (hs : Sched c)
    (hp : c.pending = false) (h : ThreadSegment c a s) :
    s.kernel.sleep = c.kernel.delayed c.current (a.delay c) := by
  have hold : (c.kernel.view c.kernel.currentTask).state ≠ .sleeping := by
    rw [hs.currentTask]
    rcases hs.thread hp with hrun | ⟨hblocked, -⟩
    · simp [hrun]
    · simp [hblocked]
  cases h with
  | call _ _ h =>
      rw [(enter_cases h).sleep, hs.currentTask]
      rfl
  | entered hpc h =>
      rw [Action.delay, hpc]
      exact proceedEntered_sleep hold h
  | resumed hpc =>
      rw [Action.delay, hpc]
      exact proceedResumed_sleep _ _
  | yielding hpc | requestSwitch hpc =>
      rw [Action.delay, hpc]
      rfl
  | inTime hpc hdue =>
      simp only [Action.delay, hpc, hdue]
      rfl
  | delayed hpc hdue =>
      simp only [Action.delay, hpc, hdue]
      rw [ret_kernel, sleepCurrent_sleep, hs.currentTask]
      rfl

/-! ## The context switch -/

theorem updateStackUsage_sleep {k k' : Kernel} {task : Nat} {currentSp : Ptr}
    (h : updateStackUsage k task currentSp = .ok k') : k'.sleep = k.sleep := by
  simp only [updateStackUsage] at h
  split at h
  · cases h
  · obtain rfl := Except.ok.inj h
    rw [sleep_eq_of_tasks_eq (recordHighWater_frame _ _).2]
    exact setTask_sleep_of_eq rfl

theorem pendsvSave_sleep {k k' : Kernel} {currentSp : Ptr} (h : pendsvSave k currentSp = .ok k') :
    k'.sleep = k.sleep := by
  simp only [pendsvSave, exec_bind_eq_ok] at h
  obtain ⟨k₁, husage, h⟩ := h
  obtain rfl := Except.ok.inj h
  have husage' : k₁.sleep = k.sleep := by
    rw [updateStackUsage_sleep husage]
    exact setTask_sleep_of_eq rfl
  rw [← husage']
  refine setTask_sleep_of_eq ?_
  rw [Kernel.sleep]
  by_cases hrun : (k₁.tasks k.currentTask).state = .running
  · rw [if_pos hrun, Task.sleep, Task.sleep, hrun]
    rfl
  · rw [if_neg hrun]
    rfl

theorem pendsvInstall_sleep {k k' : Kernel} {nextIndex : Nat}
    (hold : (k.view nextIndex).state ≠ .sleeping) (h : pendsvInstall k nextIndex = .ok k') :
    k'.sleep = k.sleep := by
  simp only [pendsvInstall, exec_bind_eq_ok] at h
  obtain ⟨mpu, -, h⟩ := h
  obtain rfl := Except.ok.inj h
  have hnew : TaskState.running ≠ .sleeping := by decide
  exact setTask_sleep_of_ne hold hnew

theorem Sched.pendsvSwitch_sleep {c : Cfg} (hs : Sched c) {currentSp sp : Ptr} {k : Kernel}
    (h : pendsvSwitch c.kernel currentSp = .ok (sp, k)) : k.sleep = c.kernel.sleep := by
  simp only [pendsvSwitch, exec_bind_eq_ok] at h
  obtain ⟨k₁, hsave, k₂, hinstall, h⟩ := h
  obtain ⟨-, rfl⟩ := Prod.mk.inj (Except.ok.inj h)
  have hready := (hs.selected_ready hsave).2
  have hstatistics := (pendsvStatistics_frame k₁ c.kernel.gCurrentTaskIndex).2
  rw [pendsvInstall_sleep ?_ hinstall, sleep_eq_of_tasks_eq hstatistics, pendsvSave_sleep hsave]
  rw [view_eq_of_tasks_eq hstatistics]
  change (k₁.view (pendsvNextIndex k₁ c.kernel.gCurrentTaskIndex)).state = .ready at hready
  simp [hready]

theorem StepCases.sleep {c c' : Cfg} {a : Action} {o : Observation} (hs : Sched c)
    (h : StepCases c a c' o) (ha : a ≠ .tick) :
    c'.kernel.sleep = c.kernel.delayed c.current (a.delay c) := by
  cases h with
  | start _ hk =>
      obtain rfl := jrtKernelStart_spec hk
      rfl
  | thread _ hp hseg => exact hseg.sleep hs hp
  | tick => exact absurd rfl ha
  | isr => exact isrCall_sleep _ _
  | pendsv _ _ hk => exact hs.pendsvSwitch_sleep hk
  | store => rfl
  | cycles => rfl

/-! ## The tick -/

/-- What a tick leaves of a sleep of `n` ticks. -/
def sleepTicked (n : UInt32) : Option UInt32 :=
  if n > 0 then (if n - 1 = 0 then none else some (n - 1)) else some n

/-- The task loop of the tick changes the sleep of the task it visits. -/
theorem tickTask_sleep (k : Kernel) (index : Nat) :
    (tickTask k index).sleep
      = Function.update k.sleep index ((k.sleep index).bind sleepTicked) := by
  simp only [tickTask]
  split
  · next h =>
      obtain ⟨hstate, hpos⟩ := h
      have hsleep : k.sleep index = some (k.tasks index).sleepTicks :=
        sleep_eq_some_iff.mpr ⟨hstate, rfl⟩
      rw [hsleep, Option.bind_some, sleepTicked, if_pos hpos]
      simp only [Kernel.setTask_tasks_self, Task.withSleepTicks_sleepTicks]
      split
      · rw [setTask_sleep, sleep_eq_of_tasks_eq (taskBenchmarkReleaseLocked_frame _ _ _).2,
          setTask_sleep, Function.update_idem]
        rfl
      · rw [setTask_sleep, Task.sleep]
        congr 1
        exact if_pos hstate
  · next h =>
      have hkept : (k.sleep index).bind sleepTicked = k.sleep index := by
        cases hsleep : k.sleep index with
        | none => rfl
        | some n =>
            obtain ⟨hstate, rfl⟩ := sleep_eq_some_iff.mp hsleep
            exact if_neg fun hpos => h ⟨hstate, hpos⟩
      rw [hkept, Function.update_eq_self]
      split
      · next hexpired =>
          have hended := taskWaitEnd_sleep (waitExpired_iff.mp hexpired).1 0 false
          have hcounted := sleep_eq_of_tasks_eq (countTimeout_frame (taskWaitEnd k index 0 false)
            (k.tasks index).waitKind).2
          split
          · rw [restorePriorityChain_sleep, hcounted, hended]
          · rw [hcounted, hended]
      · rfl

/-- What a tick makes of task `j`: its timer part may end the wait of the
timer service, and the task loop visits the task once. -/
theorem tickTasks_visit {k k' : Kernel} (h : tickTasks k = .ok k') {j : Nat}
    (hj : j < k.taskCount) :
    ∃ k₁, k₁.gKernelTicks = k.gKernelTicks + 1 ∧ k₁.sleep j = k.sleep j
      ∧ Woken (wakesOn .timerServiceWaitObject .timerService) (k.view j) (k₁.view j)
      ∧ k'.sleep j = (tickTask k₁ j).sleep j ∧ k'.view j = (tickTask k₁ j).view j := by
  obtain ⟨k₀, htimer, rfl⟩ := tickTasksBody_cases (tickTasks_body h)
  have hframe := timerTickLoop_frame htimer
  simp only [TimerFrame, ControlFrame] at hframe
  have hn : k₀.taskCount = k.taskCount := hframe.1.1
  have hticks : k₀.gKernelTicks = k.gKernelTicks + 1 := by simp [hframe]
  have hsleep : k₀.sleep = (advanceTicks k).sleep := timerTickLoop_sleep htimer
  rw [show (advanceTicks k).sleep = k.sleep from rfl] at hsleep
  have hwoken := timerTickLoop_wakes htimer j
  rw [advanceTicks_view] at hwoken
  have hmem : j ∈ List.range k₀.taskCount := List.mem_range.mpr (hn ▸ hj)
  obtain ⟨k₁, ho, hvisit⟩ := Scan.foldl_visit (f := tickTask)
    (o := fun k : Kernel => (k.view j, k.sleep j, k.gKernelTicks)) List.nodup_range hmem
    (fun k i hi => by
      rw [tickTask_view, tickTask_sleep, Function.update_of_ne (Ne.symm hi),
        Function.update_of_ne (Ne.symm hi), (tickTask_frame k i).2.2.2.2.2.2.2.1]) k₀
  simp only [Prod.mk.injEq] at ho hvisit
  exact ⟨k₁, ho.2.2.trans hticks, by rw [ho.2.1, hsleep], by rwa [ho.1], hvisit.2.1, hvisit.1⟩

theorem tickTasks_sleep {k k' : Kernel} (h : tickTasks k = .ok k') {j : Nat}
    (hj : j < k.taskCount) : k'.sleep j = (k.sleep j).bind sleepTicked := by
  obtain ⟨k₁, -, hkept, -, hvisit, -⟩ := tickTasks_visit h hj
  rw [hvisit, tickTask_sleep, Function.update_self, hkept]

theorem sub_one_eq_zero_iff {n : UInt32} : n - 1 = 0 ↔ n = 1 := by
  constructor
  · intro hzero
    have hsum : n - 1 + 1 = 0 + 1 := by rw [hzero]
    rwa [UInt32.sub_add_cancel, UInt32.zero_add] at hsum
  · intro hone
    rw [hone]
    rfl

theorem sleepTicked_of_ne_zero {n : UInt32} (h : n ≠ 0) :
    sleepTicked n = if n = 1 then none else some (n - 1) := by
  rw [sleepTicked, if_pos (UInt32.pos_iff_ne_zero.mpr h)]
  exact if_congr sub_one_eq_zero_iff rfl rfl

/-- The last tick of a sleep makes its task `READY`. -/
theorem tickTasks_awakes {k k' : Kernel} (h : tickTasks k = .ok k') {j : Nat}
    (hj : j < k.taskCount) (hsleep : k.sleep j = some 1) : (k'.view j).state = .ready := by
  obtain ⟨k₁, -, hkept, -, -, hview⟩ := tickTasks_visit h hj
  obtain ⟨hstate, hticks⟩ := sleep_eq_some_iff.mp (hkept.trans hsleep)
  rw [hview, tickTask_view, Function.update_self, hticks, if_pos ⟨hstate, by decide⟩,
    if_pos (by decide)]
  rfl

end JustRT
