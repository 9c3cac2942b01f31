import JustRT.Priority

/-!
# What one segment does to the waits

Each function a segment runs either ends waits for a reason its arguments
name, blocks the caller, or writes one task's state. `SegmentEffect` is
that alternative, and `enter_effect`, `proceedEntered_effect` and
`proceedResumed_effect` place every call in it.

The reason is a relation between the wait that ends and the result it ends
with, so it also says that nobody else is woken: a give wakes waiters of
its semaphore, with 1, and no other task. Invariants that speak of waits
go through the three alternatives, and not through the calls one by one.
-/

namespace JustRT

/-! ## Functions that wake -/

theorem semaphoreGiveLocked_wakes (k : Kernel) (semaphore : Ptr) :
    WakesOnly (wakesOn (.ptr semaphore) .semaphore) k (semaphoreGiveLocked k semaphore) := by
  simp only [semaphoreGiveLocked, taskWake_eq]
  refine (wakeSelected_wakes _ _ _).trans ?_
  split
  · exact .refl _
  · exact .of_view_eq rfl

theorem jrtMutexUnlock_wakes (k : Kernel) (mutex : Ptr) (inIsr : Bool) :
    WakesOnly (wakesOn (.ptr mutex) .mutex) k (jrtMutexUnlock k mutex inIsr).2 := by
  simp only [jrtMutexUnlock, taskWakeGetId_eq]
  split
  · exact .of_view_eq rfl
  · split
    · exact .refl k
    · split
      · exact .of_view_eq rfl
      · have hwake := wakeSelected_wakes k (.ptr mutex) .mutex
        cases hs : wakeSelect k (.ptr mutex) .mutex with
        | none => exact .of_view_eq (by simp)
        | some s =>
            rw [hs] at hwake
            exact hwake.trans (.of_view_eq (by simp))

theorem queueWakeReceiver_wakes (k : Kernel) (queue : Ptr) :
    WakesOnly (wakesOn (.ptr queue) .queueReceive) k (queueWakeReceiver k queue) := by
  simp only [queueWakeReceiver, taskWake_eq]
  refine (wakeSelected_wakes _ _ _).trans ?_
  split
  · exact .of_view_eq rfl
  · exact .refl _

theorem queueWakeSender_wakes (k : Kernel) (queue : Ptr) :
    WakesOnly (wakesOn (.ptr queue) .queueSend) k (queueWakeSender k queue) := by
  simp only [queueWakeSender, taskWake_eq]
  refine (wakeSelected_wakes _ _ _).trans ?_
  split
  · exact .of_view_eq rfl
  · exact .refl _

theorem jrtQueueSendFromIsr_wakes (k : Kernel) (queue : Ptr) (source : Nat → UInt8)
    (inIsr : Bool) :
    WakesOnly (wakesOn (.ptr queue) .queueReceive) k
      (jrtQueueSendFromIsr k queue source inIsr).2 := by
  simp only [jrtQueueSendFromIsr]
  split
  · exact .of_view_eq rfl
  · split
    · refine WakesOnly.trans ?_ (queueWakeReceiver_wakes _ queue)
      exact .of_view_eq rfl
    · exact .of_view_eq rfl

theorem taskNotifyCommon_wakes {k k' : Kernel} {task : Nat} {value : UInt32}
    {fromIsr inIsr : Bool} (h : taskNotifyCommon k task value fromIsr inIsr = some k') :
    WakesOnly (fun v r => v.waitKind = .notification ∧ r = 1) k k' := by
  obtain ⟨-, k₁, _, hk₁, hcases⟩ := taskNotifyCommon_cases h
  have hview : k₁.view = k.view := by
    rw [hk₁, setTask_view]
    exact Function.update_eq_self task k.view
  obtain ⟨hb, hkind, rfl⟩ | ⟨-, rfl | rfl⟩ := hcases
  · exact (WakesOnly.of_view_eq hview).trans
      (.of_ended (taskWaitEnd_view _ _ _ _) hb ⟨hkind, rfl⟩)
  · exact .of_view_eq hview
  · exact .of_view_eq hview

theorem setBitsStep_wakes (group : Ptr) (k : Kernel) (index : Nat) :
    WakesOnly (wakesOn (.ptr group) .eventGroup) k (setBitsStep group k index) := by
  simp only [setBitsStep]
  split
  · next h => exact .of_ended (taskWaitEnd_view _ _ _ _) h.1 ⟨h.2.2.1, h.2.1, rfl⟩
  · exact .refl k

theorem eventGroupSetBitsCommon_wakes {k k' : Kernel} {group : Ptr} {bits result : UInt32}
    {fromIsr inIsr : Bool}
    (h : eventGroupSetBitsCommon k group bits fromIsr inIsr = some (result, k')) :
    WakesOnly (wakesOn (.ptr group) .eventGroup) k k' := by
  simp only [eventGroupSetBitsCommon] at h
  split at h
  · cases h
  · cases h
    exact (WakesOnly.of_view_eq (setEventGroup_view _ _ _)).trans
      (Scan.foldl_rel WakesOnly.refl WakesOnly.trans (setBitsStep_wakes group) _ _)

theorem jrtTimerSetCallback_wakes (k : Kernel) (timer callback argument : Ptr) :
    WakesOnly (wakesOn .timerServiceWaitObject .timerService) k
      (jrtTimerSetCallback k timer callback argument).2 := by
  simp only [jrtTimerSetCallback]
  split
  · exact .refl k
  · split
    · exact (WakesOnly.of_view_eq (setTimer_view _ _ _)).trans (taskTimerServiceWakeLocked_wakes _)
    · exact .of_view_eq rfl

/-! ## The tick -/

/-- The reasons a tick may end a wait for: a timeout, or work for the timer
service. -/
def tickWakes (v : WaitView) (r : UInt32) : Prop :=
  (r = 0 ∧ v.waitForever = 0) ∨ wakesOn .timerServiceWaitObject .timerService v r

theorem timerExpire_wakes (k : Kernel) (timer : Ptr) :
    WakesOnly (wakesOn .timerServiceWaitObject .timerService) k (timerExpire k timer) := by
  simp only [timerExpire]
  split
  · exact (WakesOnly.of_view_eq (setTimer_view _ _ _)).trans (taskTimerServiceWakeLocked_wakes _)
  · exact .of_view_eq rfl

theorem timerTickStep_wakes (now : UInt32) (k : Kernel) (timer : Ptr) :
    WakesOnly (wakesOn .timerServiceWaitObject .timerService) k (timerTickStep now k timer) := by
  unfold timerTickStep
  split
  · exact (timerExpire_wakes k timer).trans
      (.of_view_eq (view_eq_of_tasks_eq (timerRearm_frame _ timer).2))
  · exact .refl k

theorem timerTickLoop_wakes {now : UInt32} {fuel : Nat} {timer : Ptr} {k k' : Kernel}
    (h : timerTickLoop now fuel timer k = .ok k') :
    WakesOnly (wakesOn .timerServiceWaitObject .timerService) k k' := by
  induction fuel generalizing timer k with
  | zero => cases h
  | succ fuel ih =>
      unfold timerTickLoop at h
      split at h
      · cases h
        exact .refl _
      · exact (timerTickStep_wakes now k timer).trans (ih h)

/-- The task loop of the tick changes the wait of the task it visits: a
sleep ends, or a wait times out. -/
theorem tickTask_view (k : Kernel) (index : Nat) :
    (tickTask k index).view = Function.update k.view index
      (if (k.view index).state = .sleeping ∧ (k.tasks index).sleepTicks > 0 then
        (if (k.tasks index).sleepTicks - 1 = 0 then (k.view index).withState .ready
          else k.view index)
      else if waitExpired k index then (k.view index).ended 0
      else k.view index) := by
  simp only [tickTask, view_state]
  split
  · have hsleep : (k.setTask index ((k.tasks index).withSleepTicks
        ((k.tasks index).sleepTicks - 1))).view = k.view := by
      rw [setTask_view]
      exact Function.update_eq_self index k.view
    simp only [Kernel.setTask_tasks_self, Task.withSleepTicks_sleepTicks]
    split
    · simp only [setTask_view, taskBenchmarkReleaseLocked_view, Function.update_idem,
        (taskBenchmarkReleaseLocked_frame _ _ _).2, Kernel.setTask_tasks_self]
      rfl
    · rw [Function.update_eq_self]
      exact hsleep
  · split
    · have hended : (countTimeout (taskWaitEnd k index 0 false) (k.tasks index).waitKind).view
          = Function.update k.view index ((k.view index).ended 0) := by
        rw [countTimeout_view, taskWaitEnd_view]
      split
      · rw [restorePriorityChain_view, hended]
      · exact hended
    · rw [Function.update_eq_self]

theorem waitExpired_iff {k : Kernel} {index : Nat} :
    waitExpired k index = true ↔ (k.view index).state = .blocked
      ∧ (k.view index).waitForever = 0
      ∧ k.gKernelTicks - (k.tasks index).waitStart
          ≥ (k.tasks index).waitDeadline - (k.tasks index).waitStart := by
  simp [waitExpired, and_assoc, Kernel.view, Task.waitView]

theorem tickTask_wakes (k : Kernel) (index : Nat) : WakesOnly tickWakes k (tickTask k index) := by
  intro j
  rw [tickTask_view]
  by_cases hj : j = index
  · subst hj
    rw [Function.update_self]
    split
    · next h =>
        split
        · exact .awoken h.1
        · exact .kept
    · split
      · next h =>
          obtain ⟨hb, hforever, -⟩ := waitExpired_iff.mp h
          exact .ended hb (Or.inl ⟨rfl, hforever⟩)
      · exact .kept
  · rw [Function.update_of_ne hj]
    exact .kept

theorem tickTasksBody_wakes {k k' : Kernel} (h : tickTasksBody k = .ok k') :
    WakesOnly tickWakes k k' := by
  obtain ⟨k₁, htimer, rfl⟩ := tickTasksBody_cases h
  have hview : WakesOnly tickWakes k (advanceTicks k) := .of_view_eq (advanceTicks_view k)
  exact hview.trans (((timerTickLoop_wakes htimer).mono fun _ _ => Or.inr).trans
    (Scan.foldl_rel WakesOnly.refl WakesOnly.trans tickTask_wakes _ _))

theorem tickTasks_wakes {k k' : Kernel} (h : tickTasks k = .ok k') : WakesOnly tickWakes k k' :=
  tickTasksBody_wakes (tickTasks_body h)

/-! ## Reasons, call by call -/

/-- The waits a call may end, and with which result. -/
def Call.wakes : Call → WaitView → UInt32 → Prop
  | .semaphoreGive s => wakesOn (.ptr s) .semaphore
  | .mutexUnlock m => wakesOn (.ptr m) .mutex
  | .taskNotify _ _ => fun v r => v.waitKind = .notification ∧ r = 1
  | .eventGroupSetBits g _ => wakesOn (.ptr g) .eventGroup
  | .timerSetCallback _ _ _ => wakesOn .timerServiceWaitObject .timerService
  | _ => noWake

/-- The waits the critical section of a blocking call may end. -/
def WaitCall.wakes : WaitCall → WaitView → UInt32 → Prop
  | .queueSend q _ _ => wakesOn (.ptr q) .queueReceive
  | .queueReceive q _ _ => wakesOn (.ptr q) .queueSend
  | _ => noWake

def Pc.wakes : Pc → WaitView → UInt32 → Prop
  | .entered call _ => call.wakes
  | _ => noWake

def IsrCall.wakes : IsrCall → WaitView → UInt32 → Prop
  | .semaphoreGiveFromIsr s => wakesOn (.ptr s) .semaphore
  | .queueSendFromIsr q _ => wakesOn (.ptr q) .queueReceive
  | .taskNotifyFromIsr _ _ => fun v r => v.waitKind = .notification ∧ r = 1
  | .eventGroupSetBitsFromIsr g _ => wakesOn (.ptr g) .eventGroup

theorem isrCall_wakes (k : Kernel) (call : IsrCall) :
    WakesOnly call.wakes k (isrCall k call).1 := by
  cases call with
  | semaphoreGiveFromIsr s => exact semaphoreGiveLocked_wakes k s
  | queueSendFromIsr q source => exact jrtQueueSendFromIsr_wakes k q source true
  | taskNotifyFromIsr task value =>
      simp only [isrCall]
      split
      · exact .refl k
      · next h => exact taskNotifyCommon_wakes h
  | eventGroupSetBitsFromIsr g bits =>
      simp only [isrCall]
      split
      · exact .refl k
      · next h => exact eventGroupSetBitsCommon_wakes h

/-- A handler that pends no switch has ended no wait. -/
theorem isrCall_view_eq {k : Kernel} {call : IsrCall} (h : (isrCall k call).2.2 = false) :
    (isrCall k call).1.view = k.view := by
  cases call with
  | semaphoreGiveFromIsr s => simp [isrCall, jrtSemaphoreGiveFromIsr] at h
  | queueSendFromIsr q source =>
      cases hacc : queueSendAccepts (k.queues q) false <;>
        simp [isrCall, jrtQueueSendFromIsr, hacc] at h ⊢
  | taskNotifyFromIsr task value =>
      simp only [isrCall] at h ⊢
      split
      · rfl
      · next hsome => simp [hsome] at h
  | eventGroupSetBitsFromIsr g bits =>
      simp only [isrCall] at h ⊢
      split
      · rfl
      · next hsome => simp [hsome] at h

/-! ## The effect of a segment -/

/-- What the event-group fields of a task that waits in `call` hold. -/
def WaitCall.EventFields : WaitCall → WaitView → Prop
  | .eventGroupWaitBits _ bits waitAll clearOnExit _, v =>
      v.eventWaitBits = bits ∧ v.eventWaitAll = boolWord waitAll
        ∧ v.eventClearOnExit = boolWord clearOnExit
  | _, _ => True

/-- The wait record of task `task` behind the critical section that blocked
it in `call`. -/
structure WaitCall.Begun (call : WaitCall) (task : Nat) (v : WaitView) : Prop where
  on : v.On (call.object task) call.kind
  result : v.waitResult = 0
  eventFields : call.EventFields v

/-- The states a segment may write outright. -/
inductive Restates (k : Kernel) : Nat → TaskState → Prop where
  | delayed {s : TaskState} : s = .ready ∨ s = .sleeping → Restates k k.currentTask s
  | suspended {j : Nat} : j < k.applicationTaskCount →
      (k.view j).state = .ready ∨ ((k.view j).state = .running ∧ j = k.gCurrentTaskIndex) →
      Restates k j .suspended
  | resumed {j : Nat} : j < k.applicationTaskCount → (k.view j).state = .suspended →
      Restates k j .ready

/-- What a segment that admits the wakes `R` may do to the waits: end some,
block the caller, or write one state and pend a switch. Besides its frame this
is all the scheduler's invariant has to know of a segment. -/
inductive SegmentEffect (R : WaitView → UInt32 → Prop) (k : Kernel) (s : Segment) : Prop where
  | wakes : WakesOnly R k s.kernel → (∀ w, s.pc ≠ .yielding w) → (∀ w, s.pc ≠ .resumed w) →
      SegmentEffect R k s
  | blocks {w : WaitCall} {v : WaitView} : s.pc = .yielding w → s.switch = false →
      s.result = none → s.kernel.view = Function.update k.view k.currentTask v →
      w.Begun k.currentTask v → SegmentEffect R k s
  | restates {j : Nat} {state : TaskState} : s.pc = .user → s.switch = true →
      Restates k j state →
      s.kernel.view = Function.update k.view j ((k.view j).withState state) →
      SegmentEffect R k s

/-- A segment that returns with every wait as it was. -/
theorem SegmentEffect.of_view_eq {R : WaitView → UInt32 → Prop} {k : Kernel} {s : Segment}
    (h : s.kernel.view = k.view) (hy : ∀ w, s.pc ≠ .yielding w) (hr : ∀ w, s.pc ≠ .resumed w) :
    SegmentEffect R k s :=
  .wakes (.of_view_eq h) hy hr

theorem sleepCurrent_view (k : Kernel) (ticks : UInt32) :
    (sleepCurrent k ticks).view = Function.update k.view k.currentTask
      ((k.view k.currentTask).withState (if ticks = 0 then .ready else .sleeping)) := by
  simp only [sleepCurrent, setTask_view]
  split <;> rfl

theorem sleepCurrent_effect {R : WaitView → UInt32 → Prop} {k : Kernel} {ticks : UInt32}
    {s : Segment} (hk : s.kernel = sleepCurrent k ticks) (hpc : s.pc = .user)
    (hs : s.switch = true) : SegmentEffect R k s := by
  refine .restates hpc hs (.delayed ?_) (by rw [hk, sleepCurrent_view])
  split
  · exact Or.inl rfl
  · exact Or.inr rfl

theorem resolveApplicationTaskId_lt {k : Kernel} {requested taskId : Nat} {allowSelf : Bool}
    (h : resolveApplicationTaskId k requested allowSelf = .ok taskId) :
    taskId < k.applicationTaskCount := by
  simp only [resolveApplicationTaskId] at h
  generalize (if allowSelf ∧ requested = jrtTaskIdSelf then k.gCurrentTaskIndex
    else requested) = id at h
  split at h
  · cases h
  · cases h
    omega

/-- A suspension changes nothing, or suspends one application task. -/
theorem kernelTaskSuspend_view (k : Kernel) (requested : Nat) :
    (kernelTaskSuspend k requested).2.view = k.view
      ∨ ∃ j, Restates k j .suspended ∧ (kernelTaskSuspend k requested).2.view
          = Function.update k.view j ((k.view j).withState .suspended) := by
  simp only [kernelTaskSuspend]
  split
  · exact Or.inl rfl
  · split
    · exact Or.inl rfl
    · split
      · exact Or.inl rfl
      · next taskId hid =>
          by_cases hstate : (k.tasks taskId).state ≠ .ready
              ∧ ((k.tasks taskId).state ≠ .running ∨ taskId ≠ k.gCurrentTaskIndex)
          · rw [if_pos hstate]
            exact Or.inl rfl
          · rw [if_neg hstate]
            refine Or.inr ⟨taskId, .suspended (resolveApplicationTaskId_lt hid) ?_, ?_⟩
            · rw [view_state]
              by_cases hready : (k.tasks taskId).state = .ready
              · exact Or.inl hready
              · refine Or.inr ⟨?_, ?_⟩
                · by_contra hne
                  exact hstate ⟨hready, Or.inl hne⟩
                · by_contra hne
                  exact hstate ⟨hready, Or.inr hne⟩
            · simp only [setTask_view]
              split <;> rfl

theorem kernelTaskResume_view (k : Kernel) (requested : Nat) :
    (kernelTaskResume k requested).2.view = k.view
      ∨ ∃ j, Restates k j .ready ∧ (kernelTaskResume k requested).2.view
          = Function.update k.view j ((k.view j).withState .ready) := by
  simp only [kernelTaskResume]
  split
  · exact Or.inl rfl
  · split
    · exact Or.inl rfl
    · split
      · exact Or.inl rfl
      · next taskId hid =>
          by_cases hstate : (k.tasks taskId).state ≠ .suspended
          · rw [if_pos hstate]
            exact Or.inl rfl
          · rw [if_neg hstate]
            refine Or.inr ⟨taskId, .resumed (resolveApplicationTaskId_lt hid) ?_, ?_⟩
            · rw [view_state]
              exact not_not.mp hstate
            · simp only [setTask_view, taskBenchmarkReleaseLocked_view]
              rfl

/-! ## Every segment has an effect -/

@[simp] theorem ret_pc (k : Kernel) (result : UInt32) : (Segment.ret k result).pc = .user := rfl

@[simp] theorem ret_kernel (k : Kernel) (result : UInt32) :
    (Segment.ret k result).kernel = k := rfl

theorem ret_effect {R : WaitView → UInt32 → Prop} {k k' : Kernel} {result : UInt32}
    (h : WakesOnly R k k') : SegmentEffect R k (.ret k' result) :=
  .wakes h (by simp) (by simp)

/-- The last step of the blocking calls with a deadline: it gives up or
blocks. -/
theorem taskBlockUntilLocked_effect {R : WaitView → UInt32 → Prop} {k k₁ : Kernel}
    {call : WaitCall} {deadline : TaskWaitDeadline} (hview : k₁.view = k.view)
    (hcur : k₁.currentTask = k.currentTask) (hfields : ∀ v, call.EventFields v) :
    SegmentEffect R k (.ofFlow call
      (taskBlockUntilLocked k₁ (call.object k.currentTask) call.kind deadline)) := by
  rw [taskBlockUntilLocked, hcur]
  split
  · exact ret_effect (.of_view_eq hview)
  · have hbegun := taskWaitBeginUntil_view k₁ k.currentTask (call.object k.currentTask) call.kind
      deadline
    rw [hview] at hbegun
    exact .blocks rfl rfl rfl hbegun ⟨⟨rfl, rfl, rfl⟩, rfl, hfields _⟩

/-- The first segment of a call either returns, wakes, or writes a state. -/
theorem enter_effect {k : Kernel} {call : Call} {s : Segment} (h : enter k call = .ok s) :
    SegmentEffect call.wakes k s := by
  cases call with
  | taskYield => cases h; exact .of_view_eq rfl (by simp) (by simp)
  | taskDelay ticks => cases h; exact sleepCurrent_effect rfl rfl rfl
  | taskDelayUntil previousWake period =>
      cases previousWake <;> cases h <;> exact .of_view_eq rfl (by simp) (by simp)
  | taskSuspend id =>
      cases h
      rcases kernelTaskSuspend_view k id with hv | ⟨j, hj, hv⟩
      · exact .of_view_eq hv (by simp) (by simp)
      · exact .restates rfl rfl hj hv
  | taskResume id =>
      cases h
      rcases kernelTaskResume_view k id with hv | ⟨j, hj, hv⟩
      · exact .of_view_eq hv (by simp) (by simp)
      · exact .restates rfl rfl hj hv
  | boardLedToggle => cases h; exact .of_view_eq rfl (by simp) (by simp)
  | semaphoreCreateBinaryStatic s available => cases h; exact ret_effect (.of_view_eq rfl)
  | semaphoreTake s timeout => cases h; exact .of_view_eq rfl (by simp) (by simp)
  | semaphoreGive s => cases h; exact ret_effect (semaphoreGiveLocked_wakes k s)
  | mutexCreateRecursiveStatic m =>
      simp only [enter, exec_bind_eq_ok] at h
      obtain ⟨k', hcreate, h⟩ := h
      cases h
      exact ret_effect (.of_view_eq
        (view_eq_of_tasks_eq (jrtMutexCreateRecursiveStatic_frame hcreate).2))
  | mutexLock m timeout => cases h; exact .of_view_eq rfl (by simp) (by simp)
  | mutexUnlock m => cases h; exact ret_effect (jrtMutexUnlock_wakes k m false)
  | queueCreateStatic q storage capacity itemSize =>
      cases h; exact ret_effect (.of_view_eq rfl)
  | queueSend q timeout => cases h; exact .of_view_eq rfl (by simp) (by simp)
  | queueReceive q timeout => cases h; exact .of_view_eq rfl (by simp) (by simp)
  | taskNotify task value =>
      simp only [enter] at h
      split at h
      · cases h; exact ret_effect (.refl k)
      · next hsome => cases h; exact .wakes (taskNotifyCommon_wakes hsome) (by simp) (by simp)
  | taskNotifyTake value timeout => cases h; exact .of_view_eq rfl (by simp) (by simp)
  | eventGroupCreateStatic g =>
      cases h
      refine ret_effect (.of_view_eq ?_)
      unfold jrtEventGroupCreateStatic
      split <;> rfl
  | eventGroupSetBits g bits =>
      simp only [enter] at h
      split at h
      · cases h; exact ret_effect (.refl k)
      · next hsome =>
          cases h; exact .wakes (eventGroupSetBitsCommon_wakes hsome) (by simp) (by simp)
  | eventGroupWaitBits g bits waitAll clear timeout =>
      cases h; exact .of_view_eq rfl (by simp) (by simp)
  | timerCreateStatic t =>
      simp only [enter, exec_bind_eq_ok] at h
      obtain ⟨k', hcreate, h⟩ := h
      cases h
      exact ret_effect (.of_view_eq (view_eq_of_tasks_eq (jrtTimerCreateStatic_frame hcreate).2))
  | timerSetCallback t callback argument =>
      have hwakes := jrtTimerSetCallback_wakes k t callback argument
      simp only [enter] at h
      split at h <;> next hcall =>
        rw [hcall] at hwakes
        cases h
        exact .wakes hwakes (by simp) (by simp)
  | timerStart t delay =>
      simp only [enter, exec_bind_eq_ok] at h
      obtain ⟨k', hstart, h⟩ := h
      cases h
      exact ret_effect (.of_view_eq (view_eq_of_tasks_eq (jrtTimerStart_frame hstart).2))
  | timerStartPeriodic t period =>
      simp only [enter, exec_bind_eq_ok] at h
      obtain ⟨k', hstart, h⟩ := h
      cases h
      exact ret_effect (.of_view_eq (view_eq_of_tasks_eq (jrtTimerStartPeriodic_frame hstart).2))
  | timerRestart t =>
      simp only [enter, exec_bind_eq_ok] at h
      obtain ⟨k', hstart, h⟩ := h
      cases h
      exact ret_effect (.of_view_eq (view_eq_of_tasks_eq (jrtTimerRestart_frame hstart).2))
  | timerStop t =>
      cases h
      exact ret_effect (.of_view_eq (view_eq_of_tasks_eq (jrtTimerStop_frame k t).2))
  | timerTakeExpirations t =>
      cases h
      exact ret_effect (.of_view_eq (view_eq_of_tasks_eq (jrtTimerTakeExpirations_frame k t).2))
  | timerDispatch t =>
      cases h
      exact .of_view_eq (view_eq_of_tasks_eq (jrtTimerDispatch_frame k t).2) (by simp) (by simp)
  | callbackReturn => cases h; exact .of_view_eq rfl (by simp) (by simp)

/-! ### Critical sections of blocking calls -/

theorem jrtSemaphoreTake_effect (k : Kernel) (s : Ptr) (timeout : UInt32)
    (deadline : TaskWaitDeadline) :
    SegmentEffect noWake k (.ofFlow (.semaphoreTake s timeout deadline)
      (jrtSemaphoreTake k s timeout deadline false)) := by
  simp only [jrtSemaphoreTake, Bool.false_eq_true, if_false]
  split
  · exact ret_effect (.of_view_eq rfl)
  · split
    · exact ret_effect (.refl k)
    · exact taskBlockUntilLocked_effect rfl rfl fun _ => trivial

theorem jrtMutexLock_effect (k : Kernel) (m : Ptr) (timeout : UInt32)
    (deadline : TaskWaitDeadline) :
    SegmentEffect noWake k (.ofFlow (.mutexLock m timeout deadline)
      (jrtMutexLock k m timeout deadline false)) := by
  simp only [jrtMutexLock, Bool.false_eq_true, if_false]
  split
  · exact ret_effect (.of_view_eq rfl)
  · split
    · exact ret_effect (.of_view_eq rfl)
    · split
      · exact ret_effect (.refl k)
      · exact taskBlockUntilLocked_effect (taskInheritPriority_view _ _ _) (by simp)
          fun _ => trivial

theorem jrtQueueSend_effect (k : Kernel) (q : Ptr) (source : Nat → UInt8) (timeout : UInt32)
    (deadline : TaskWaitDeadline) (reserved : Bool) :
    SegmentEffect (wakesOn (.ptr q) .queueReceive) k (.ofFlow (.queueSend q timeout deadline)
      (jrtQueueSend k q source timeout deadline reserved false)) := by
  simp only [jrtQueueSend, Bool.false_eq_true, if_false]
  split
  · exact ret_effect ((WakesOnly.of_view_eq (setQueue_view _ _ _)).trans
      (queueWakeReceiver_wakes _ q))
  · split
    · exact ret_effect (.refl k)
    · exact taskBlockUntilLocked_effect rfl rfl fun _ => trivial

theorem jrtQueueReceive_effect (k : Kernel) (q : Ptr) (timeout : UInt32)
    (deadline : TaskWaitDeadline) (reserved : Bool) :
    SegmentEffect (wakesOn (.ptr q) .queueSend) k (.ofFlow (.queueReceive q timeout deadline)
      ((jrtQueueReceive k q timeout deadline reserved false).1,
        (jrtQueueReceive k q timeout deadline reserved false).2.2)) := by
  simp only [jrtQueueReceive, Bool.false_eq_true, if_false]
  split
  · exact ret_effect ((WakesOnly.of_view_eq (setQueue_view _ _ _)).trans
      (queueWakeSender_wakes _ q))
  · split
    · exact ret_effect (.refl k)
    · exact taskBlockUntilLocked_effect rfl rfl fun _ => trivial

theorem jrtTaskNotifyTake_effect (k : Kernel) (value : Ptr) (timeout : UInt32) :
    SegmentEffect noWake k (.ofFlow (.taskNotifyTake value timeout)
      ((jrtTaskNotifyTake k value timeout false).1,
        (jrtTaskNotifyTake k value timeout false).2.2)) := by
  simp only [jrtTaskNotifyTake]
  split
  · exact ret_effect (.refl k)
  · split
    · refine ret_effect (.of_view_eq ?_)
      rw [setTask_view]
      exact Function.update_eq_self _ k.view
    · split
      · exact ret_effect (.refl k)
      · exact .blocks rfl rfl rfl (taskWaitBeginUntil_view _ _ _ _ _)
          ⟨⟨rfl, rfl, rfl⟩, rfl, trivial⟩

theorem jrtEventGroupWaitBits_effect (k : Kernel) (g : Ptr) (bits : UInt32)
    (waitAll clear : Bool) (timeout : UInt32) :
    SegmentEffect noWake k (.ofFlow (.eventGroupWaitBits g bits waitAll clear timeout)
      (jrtEventGroupWaitBits k g bits waitAll clear timeout false)) := by
  simp only [jrtEventGroupWaitBits]
  split
  · exact ret_effect (.refl k)
  · split
    · cases clear <;> exact ret_effect (.of_view_eq rfl)
    · split
      · exact ret_effect (.refl k)
      · have hbegun := taskWaitBeginUntil_view
          (k.setTask k.currentTask ((k.tasks k.currentTask).withEventWait bits
            (boolWord waitAll) (boolWord clear)))
          k.currentTask (.ptr g) .eventGroup (taskWaitDeadline k timeout)
        rw [setTask_view, Function.update_idem] at hbegun
        rw [Kernel.setTask_tasks_self] at hbegun
        exact .blocks rfl rfl rfl hbegun ⟨⟨rfl, rfl, rfl⟩, rfl, rfl, rfl, rfl⟩

theorem timerServiceClaim_effect {k : Kernel} {source : Nat → UInt8} {reserved : Bool}
    {s : Segment} (h : proceedEntered k source reserved .timerServiceClaim = .ok s) :
    SegmentEffect noWake k s := by
  simp only [proceedEntered, exec_bind_eq_ok, kernelTimerServiceClaim] at h
  obtain ⟨⟨_, k'⟩, ⟨claimed, -, hclaim⟩, h⟩ := h
  cases claimed with
  | none =>
      cases hclaim
      cases h
      exact .blocks rfl rfl rfl (taskWaitBeginUntil_view _ _ _ _ _)
        ⟨⟨rfl, rfl, rfl⟩, rfl, trivial⟩
  | some timer =>
      cases hclaim
      cases h
      exact .of_view_eq rfl (by simp) (by simp)

/-- What a segment shows besides its effect plays no part in it. -/
theorem SegmentEffect.withOutput {R : WaitView → UInt32 → Prop} {k : Kernel} {s : Segment}
    (h : SegmentEffect R k s) (output : Option Output) :
    SegmentEffect R k { s with output } := by
  cases h with
  | wakes hw hy hr => exact .wakes hw hy hr
  | blocks hpc hs hres hv hb => exact .blocks hpc hs hres hv hb
  | restates hpc hs hj hv => exact .restates hpc hs hj hv

theorem proceedEntered_effect {k : Kernel} {source : Nat → UInt8} {reserved : Bool}
    {call : WaitCall} {s : Segment} (h : proceedEntered k source reserved call = .ok s) :
    SegmentEffect call.wakes k s := by
  cases call with
  | semaphoreTake sem timeout deadline =>
      cases h; exact jrtSemaphoreTake_effect k sem timeout deadline
  | mutexLock m timeout deadline => cases h; exact jrtMutexLock_effect k m timeout deadline
  | queueSend q timeout deadline =>
      cases h; exact jrtQueueSend_effect k q source timeout deadline reserved
  | queueReceive q timeout deadline =>
      cases h; exact (jrtQueueReceive_effect k q timeout deadline reserved).withOutput _
  | taskNotifyTake value timeout =>
      cases h; exact (jrtTaskNotifyTake_effect k value timeout).withOutput _
  | eventGroupWaitBits g bits waitAll clear timeout =>
      cases h; exact jrtEventGroupWaitBits_effect k g bits waitAll clear timeout
  | timerServiceClaim => exact timerServiceClaim_effect h

@[simp] theorem jrtEventGroupWaitBitsResume_view (k : Kernel) (g : Ptr) (bits : UInt32) :
    (jrtEventGroupWaitBitsResume k g bits).2.view = k.view := by
  simp only [jrtEventGroupWaitBitsResume]
  split <;> rfl

/-- Behind its yield a call ends no wait and begins none. -/
theorem proceedResumed_view (k : Kernel) (call : WaitCall) :
    (proceedResumed k call).kernel.view = k.view
      ∧ (∀ w, (proceedResumed k call).pc ≠ .yielding w)
      ∧ ∀ w, (proceedResumed k call).pc ≠ .resumed w := by
  cases call with
  | semaphoreTake s timeout deadline => simp [proceedResumed]
  | mutexLock m timeout deadline => simp [proceedResumed]
  | queueSend q timeout deadline =>
      simp only [proceedResumed]
      split <;> simp
  | queueReceive q timeout deadline =>
      simp only [proceedResumed]
      split <;> simp
  | taskNotifyTake value timeout => simp [proceedResumed]
  | eventGroupWaitBits g bits waitAll clear timeout => simp [proceedResumed]
  | timerServiceClaim => simp [proceedResumed]

end JustRT
