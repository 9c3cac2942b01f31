import JustRT.Step

/-!
# Which objects a step writes

Every segment and every handler writes objects of at most one kind: the
functions of `sync.c` and `timer.c` work on the object they are given, and
the ones they call in `task.c` work on task records. A claim about one
kind of object then has only the calls of that kind to look at, and all
other actions are settled by `HeapExcept` at once.
-/

namespace JustRT

/-- The kinds of objects, and `none` for a call that writes none. -/
inductive ObjectKind where
  | none | semaphore | mutex | queue | eventGroup | timer
deriving Repr, DecidableEq

/-- `k'` differs from `k` in objects of kind `kind` at most. -/
structure HeapExcept (kind : ObjectKind) (k k' : Kernel) : Prop where
  semaphores : kind ≠ .semaphore → k'.semaphores = k.semaphores
  mutexes : kind ≠ .mutex → k'.mutexes = k.mutexes
  mutexList : kind ≠ .mutex → k'.mutexList = k.mutexList
  queues : kind ≠ .queue → k'.queues = k.queues
  eventGroups : kind ≠ .eventGroup → k'.eventGroups = k.eventGroups
  timers : kind ≠ .timer → k'.timers = k.timers
  timerList : kind ≠ .timer → k'.timerList = k.timerList

namespace HeapExcept

variable {kind : ObjectKind} {k k' : Kernel}

theorem of_table (h : TableFrame k k') : HeapExcept kind k k' := by
  simp only [TableFrame] at h
  constructor <;> simp [h]

theorem of_semaphore (h : SemaphoreFrame k k') : HeapExcept .semaphore k k' := by
  simp only [SemaphoreFrame] at h
  constructor <;> simp [h]

theorem of_mutex (h : MutexFrame k k') : HeapExcept .mutex k k' := by
  simp only [MutexFrame] at h
  constructor <;> simp [h]

theorem of_queue (h : QueueFrame k k') : HeapExcept .queue k k' := by
  simp only [QueueFrame] at h
  constructor <;> simp [h]

theorem of_eventGroup (h : EventGroupFrame k k') : HeapExcept .eventGroup k k' := by
  simp only [EventGroupFrame] at h
  constructor <;> simp [h]

theorem of_timer (h : TimerFrame k k') : HeapExcept .timer k k' := by
  simp only [TimerFrame] at h
  constructor <;> simp [h]

end HeapExcept

/-! ## Calls -/

/-- The kind of object the first segment of a call may write. -/
def Call.objectKind : Call → ObjectKind
  | .semaphoreCreateBinaryStatic .. | .semaphoreGive _ => .semaphore
  | .mutexCreateRecursiveStatic _ | .mutexUnlock _ => .mutex
  | .queueCreateStatic .. => .queue
  | .eventGroupCreateStatic _ | .eventGroupSetBits .. => .eventGroup
  | .timerCreateStatic _ | .timerSetCallback .. | .timerStart .. | .timerStartPeriodic ..
  | .timerRestart _ | .timerStop _ | .timerTakeExpirations _ | .timerDispatch _ => .timer
  | _ => .none

/-- The kind of object the later segments of a blocking call may write. -/
def WaitCall.objectKind : WaitCall → ObjectKind
  | .semaphoreTake .. => .semaphore
  | .mutexLock .. => .mutex
  | .queueSend .. | .queueReceive .. => .queue
  | .taskNotifyTake .. => .none
  | .eventGroupWaitBits .. => .eventGroup
  | .timerServiceClaim => .timer

/-- The kind of object a handler may write. -/
def IsrCall.objectKind : IsrCall → ObjectKind
  | .semaphoreGiveFromIsr _ => .semaphore
  | .queueSendFromIsr .. => .queue
  | .taskNotifyFromIsr .. => .none
  | .eventGroupSetBitsFromIsr .. => .eventGroup

theorem enter_heap {k : Kernel} {call : Call} {s : Segment} (h : enter k call = .ok s) :
    HeapExcept call.objectKind k s.kernel := by
  cases call with
  | taskYield =>
      obtain rfl := Except.ok.inj h
      exact .of_table (.refl k)
  | taskDelay ticks =>
      obtain rfl := Except.ok.inj h
      exact .of_table (sleepCurrent_frame k ticks)
  | taskDelayUntil previousWake period =>
      cases previousWake <;> obtain rfl := Except.ok.inj h <;> exact .of_table (.refl k)
  | taskSuspend id =>
      obtain rfl := Except.ok.inj h
      exact .of_table (kernelTaskSuspend_frame k id)
  | taskResume id =>
      obtain rfl := Except.ok.inj h
      exact .of_table (kernelTaskResume_frame k id)
  | boardLedToggle =>
      obtain rfl := Except.ok.inj h
      exact .of_table (.refl k)
  | semaphoreCreateBinaryStatic s available =>
      obtain rfl := Except.ok.inj h
      exact .of_semaphore (jrtSemaphoreCreateBinaryStatic_frame k s available)
  | semaphoreTake s timeout =>
      obtain rfl := Except.ok.inj h
      exact .of_table (.refl k)
  | semaphoreGive s =>
      obtain rfl := Except.ok.inj h
      exact .of_semaphore (jrtSemaphoreGive_frame k s false)
  | mutexCreateRecursiveStatic m =>
      simp only [enter, exec_bind_eq_ok] at h
      obtain ⟨k', hcreate, h⟩ := h
      obtain rfl := Except.ok.inj h
      exact .of_mutex (jrtMutexCreateRecursiveStatic_frame hcreate).1
  | mutexLock m timeout =>
      obtain rfl := Except.ok.inj h
      exact .of_table (.refl k)
  | mutexUnlock m =>
      obtain rfl := Except.ok.inj h
      exact .of_mutex (jrtMutexUnlock_frame k m false).1
  | queueCreateStatic q storage capacity itemSize =>
      obtain rfl := Except.ok.inj h
      exact .of_queue (jrtQueueCreateStatic_frame k q storage capacity itemSize)
  | queueSend q timeout =>
      obtain rfl := Except.ok.inj h
      exact .of_table (.refl k)
  | queueReceive q timeout =>
      obtain rfl := Except.ok.inj h
      exact .of_table (.refl k)
  | taskNotify task value =>
      simp only [enter] at h
      split at h
      · obtain rfl := Except.ok.inj h
        exact .of_table (.refl k)
      · next hsome =>
          obtain rfl := Except.ok.inj h
          exact .of_table (taskNotifyCommon_frame hsome)
  | taskNotifyTake value timeout =>
      obtain rfl := Except.ok.inj h
      exact .of_table (.refl k)
  | eventGroupCreateStatic g =>
      obtain rfl := Except.ok.inj h
      exact .of_eventGroup (jrtEventGroupCreateStatic_frame k g)
  | eventGroupSetBits g bits =>
      simp only [enter] at h
      split at h
      · obtain rfl := Except.ok.inj h
        exact .of_table (.refl k)
      · next hsome =>
          obtain rfl := Except.ok.inj h
          exact .of_eventGroup (eventGroupSetBitsCommon_frame hsome)
  | eventGroupWaitBits g bits waitAll clear timeout =>
      obtain rfl := Except.ok.inj h
      exact .of_table (.refl k)
  | timerCreateStatic t =>
      simp only [enter, exec_bind_eq_ok] at h
      obtain ⟨k', hcreate, h⟩ := h
      obtain rfl := Except.ok.inj h
      exact .of_timer (jrtTimerCreateStatic_frame hcreate).1
  | timerSetCallback t callback argument =>
      have hframe := jrtTimerSetCallback_frame k t callback argument
      simp only [enter] at h
      split at h <;> next hcall =>
        rw [hcall] at hframe
        obtain rfl := Except.ok.inj h
        exact .of_timer hframe
  | timerStart t delay =>
      simp only [enter, exec_bind_eq_ok] at h
      obtain ⟨k', hstart, h⟩ := h
      obtain rfl := Except.ok.inj h
      exact .of_timer (jrtTimerStart_frame hstart).1
  | timerStartPeriodic t period =>
      simp only [enter, exec_bind_eq_ok] at h
      obtain ⟨k', hstart, h⟩ := h
      obtain rfl := Except.ok.inj h
      exact .of_timer (jrtTimerStartPeriodic_frame hstart).1
  | timerRestart t =>
      simp only [enter, exec_bind_eq_ok] at h
      obtain ⟨k', hstart, h⟩ := h
      obtain rfl := Except.ok.inj h
      exact .of_timer (jrtTimerRestart_frame hstart).1
  | timerStop t =>
      obtain rfl := Except.ok.inj h
      exact .of_timer (jrtTimerStop_frame k t).1
  | timerTakeExpirations t =>
      obtain rfl := Except.ok.inj h
      exact .of_timer (jrtTimerTakeExpirations_frame k t).1
  | timerDispatch t =>
      obtain rfl := Except.ok.inj h
      exact .of_timer (jrtTimerDispatch_frame k t).1
  | callbackReturn =>
      obtain rfl := Except.ok.inj h
      exact .of_table (.refl k)

theorem proceedEntered_heap {k : Kernel} {source : Nat → UInt8} {reserved : Bool}
    {call : WaitCall} {s : Segment} (h : proceedEntered k source reserved call = .ok s) :
    HeapExcept call.objectKind k s.kernel := by
  cases call with
  | semaphoreTake sem timeout deadline =>
      obtain rfl := Except.ok.inj h
      rw [ofFlow_kernel]
      exact .of_semaphore (jrtSemaphoreTake_frame k sem timeout deadline false)
  | mutexLock m timeout deadline =>
      obtain rfl := Except.ok.inj h
      rw [ofFlow_kernel]
      exact .of_mutex (jrtMutexLock_frame k m timeout deadline false).1
  | queueSend q timeout deadline =>
      obtain rfl := Except.ok.inj h
      rw [ofFlow_kernel]
      exact .of_queue (jrtQueueSend_frame k q source timeout deadline reserved false)
  | queueReceive q timeout deadline =>
      obtain rfl := Except.ok.inj h
      simp only [ofFlow_kernel]
      exact .of_queue (jrtQueueReceive_frame k q timeout deadline reserved false)
  | taskNotifyTake value timeout =>
      obtain rfl := Except.ok.inj h
      simp only [ofFlow_kernel]
      exact .of_table (jrtTaskNotifyTake_frame k value timeout false)
  | eventGroupWaitBits g bits waitAll clear timeout =>
      obtain rfl := Except.ok.inj h
      rw [ofFlow_kernel]
      exact .of_eventGroup (jrtEventGroupWaitBits_frame k g bits waitAll clear timeout false)
  | timerServiceClaim =>
      simp only [proceedEntered, exec_bind_eq_ok] at h
      obtain ⟨⟨claimed, k'⟩, hclaim, h⟩ := h
      have hframe := kernelTimerServiceClaim_frame hclaim
      cases claimed <;> obtain rfl := Except.ok.inj h <;> exact .of_timer hframe

theorem proceedResumed_heap (k : Kernel) (call : WaitCall) :
    HeapExcept call.objectKind k (proceedResumed k call).kernel := by
  cases call with
  | semaphoreTake s timeout deadline => exact .of_table (.refl k)
  | mutexLock m timeout deadline => exact .of_table (.refl k)
  | queueSend q timeout deadline =>
      simp only [proceedResumed]
      split <;> exact .of_table (.refl k)
  | queueReceive q timeout deadline =>
      simp only [proceedResumed]
      split <;> exact .of_table (.refl k)
  | taskNotifyTake value timeout => exact .of_table (jrtTaskNotifyTakeResume_frame k)
  | eventGroupWaitBits g bits waitAll clear timeout =>
      exact .of_eventGroup (jrtEventGroupWaitBitsResume_frame k g bits)
  | timerServiceClaim => exact .of_table (.refl k)

theorem isrCall_heap (k : Kernel) (call : IsrCall) :
    HeapExcept call.objectKind k (isrCall k call).1 := by
  cases call with
  | semaphoreGiveFromIsr s => exact .of_semaphore (jrtSemaphoreGiveFromIsr_frame k s true)
  | queueSendFromIsr q source => exact .of_queue (jrtQueueSendFromIsr_frame k q source true)
  | taskNotifyFromIsr task value =>
      simp only [isrCall]
      split
      · exact .of_table (.refl k)
      · next h => exact .of_table (taskNotifyCommon_frame h)
  | eventGroupSetBitsFromIsr g bits =>
      simp only [isrCall]
      split
      · exact .of_table (.refl k)
      · next h => exact .of_eventGroup (eventGroupSetBitsCommon_frame h)

/-! ## Segments -/

/-- The kind of object the segment at a program counter may write. -/
def Pc.objectKind : Pc → ObjectKind
  | .entered call _ => call.objectKind
  | .resumed call => call.objectKind
  | _ => .none

/-- The kind of object the action's segment may write. -/
def Action.objectKind (c : Cfg) : Action → ObjectKind
  | .call made => made.objectKind
  | .proceed _ => (c.pc c.current).objectKind
  | _ => .none

theorem ThreadSegment.heap {c : Cfg} {a : Action} {s : Segment} (h : ThreadSegment c a s) :
    HeapExcept (a.objectKind c) c.kernel s.kernel := by
  cases h with
  | call _ _ h => exact enter_heap h
  | entered hpc h =>
      rw [Action.objectKind, hpc]
      exact proceedEntered_heap h
  | yielding => exact .of_table (.refl _)
  | resumed hpc =>
      rw [Action.objectKind, hpc]
      exact proceedResumed_heap c.kernel _
  | requestSwitch => exact .of_table (.refl _)
  | inTime => exact .of_table (.refl _)
  | delayed => exact .of_table (sleepCurrent_frame _ _)

theorem pendsvSwitch_heap {k k' : Kernel} {currentSp sp : Ptr}
    (h : pendsvSwitch k currentSp = .ok (sp, k')) (kind : ObjectKind) : HeapExcept kind k k' := by
  obtain ⟨-, -, hframe, -⟩ := pendsvSwitch_cases h
  simp only [SwitchFrame] at hframe
  constructor <;> simp [hframe]

theorem tickTasks_heap {k k' : Kernel} (h : tickTasks k = .ok k') : HeapExcept .timer k k' := by
  have hframe := tickTasks_frame h
  simp only [TickFrame] at hframe
  constructor <;> simp [hframe]

end JustRT
