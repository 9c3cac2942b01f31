import JustRT.Ledger
import JustRT.Meter

/-!
# What one step does to the meters

Every segment, handler and tick moves meters by `Meter.Moves`, and a
notification that finds an earlier one not taken coalesces on top of it.
A context switch is the other half of the life cycle: it writes the stack
usage of the outgoing task and starts the activation of the selected one.
-/

namespace JustRT

/-! ## Effects -/

/-- Between `k` and `k'` each meter makes one move, and coalesces if its
task is in `coalesces`. -/
structure MeterEffect (coalesces : Nat → Prop) (k k' : Kernel) : Prop where
  counter : k'.counter = k.counter
  moves : ∀ j, ∃ m, (k.meter j).Moves k.counter m ∧
    (coalesces j ∧ k'.meter j = m.coalesce k.counter ∨ ¬coalesces j ∧ k'.meter j = m)

def noCoalesce (_ : Nat) : Prop := False

section

variable {k k' : Kernel} {coalesces : Nat → Prop}

theorem MeterEffect.of_moves (hnone : ∀ j, ¬coalesces j) (hcounter : k'.counter = k.counter)
    (h : ∀ j, (k.meter j).Moves k.counter (k'.meter j)) : MeterEffect coalesces k k' :=
  ⟨hcounter, fun j => ⟨k'.meter j, h j, Or.inr ⟨hnone j, rfl⟩⟩⟩

theorem Releases.effect (h : Releases k k') : MeterEffect noCoalesce k k' := by
  refine .of_moves (fun _ hno => hno) h.counter fun j => ?_
  rcases h.meter j with heq | ⟨hwaits, heq⟩
  · rw [heq]
    exact .kept
  · rw [heq]
    exact .released (hwaits.imp_right Or.inl)

theorem MeterFrame.effect (h : MeterFrame k k') : MeterEffect noCoalesce k k' :=
  (Releases.of_frame h).effect

theorem MeterEffect.of_eq (htasks : k'.tasks = k.tasks) (hbenchmark : k'.benchmark = k.benchmark) :
    MeterEffect noCoalesce k k' :=
  (MeterFrame.of_eq htasks hbenchmark).effect

theorem MeterEffect.refl (k : Kernel) : MeterEffect noCoalesce k k := .of_eq rfl rfl

theorem MeterEffect.of_update {i : Nat} {m : Meter} (hcounter : k'.counter = k.counter)
    (hmeter : k'.meter = Function.update k.meter i m) (hm : (k.meter i).Moves k.counter m) :
    MeterEffect noCoalesce k k' := by
  refine .of_moves (fun _ hno => hno) hcounter fun j => ?_
  rw [hmeter]
  by_cases hj : j = i
  · subst hj
    rw [Function.update_self]
    exact hm
  · rw [Function.update_of_ne hj]
    exact .kept

theorem MeterEffect.behind {k₁ : Kernel} (h : MeterEffect coalesces k₁ k')
    (hframe : MeterFrame k k₁) : MeterEffect coalesces k k' := by
  refine ⟨h.counter.trans hframe.1, fun j => ?_⟩
  rw [← hframe.1, ← hframe.2]
  exact h.moves j

end

/-! ## Functions that complete an activation -/

section Complete

variable {k : Kernel}

theorem taskWaitBeginUntil_effect (hrun : (k.tasks k.currentTask).state = .running)
    (object : WaitObject) (waitKind : TaskWaitKind) (deadline : TaskWaitDeadline) :
    MeterEffect noCoalesce k (taskWaitBeginUntil k k.currentTask object waitKind deadline) :=
  .of_update (taskBenchmarkCompleteLocked_counter k _)
    (setState_meter (taskBenchmarkCompleteLocked_meter k _) rfl rfl)
    (.completed hrun (Or.inl rfl))

theorem taskBlockUntilLocked_meterEffect (hrun : (k.tasks k.currentTask).state = .running)
    (object : WaitObject) (waitKind : TaskWaitKind) (deadline : TaskWaitDeadline) :
    MeterEffect noCoalesce k (taskBlockUntilLocked k object waitKind deadline).2 := by
  unfold taskBlockUntilLocked
  split
  · exact .refl k
  · exact taskWaitBeginUntil_effect hrun object waitKind deadline

theorem sleepCurrent_meterEffect (hrun : (k.tasks k.currentTask).state = .running)
    (hcur : k.gCurrentTaskIndex = k.currentTask) (ticks : UInt32) :
    MeterEffect noCoalesce k (sleepCurrent k ticks) := by
  simp only [sleepCurrent]
  by_cases hticks : ticks = 0
  · rw [if_neg (not_not.mpr hticks), if_pos hticks]
    refine .of_update (i := k.currentTask) rfl ?_ (.yielded hrun)
    exact setState_meter (Function.update_eq_self _ k.meter).symm rfl rfl
  · rw [if_pos hticks, if_neg hticks, hcur]
    exact .of_update (taskBenchmarkCompleteLocked_counter k _)
      (setState_meter (taskBenchmarkCompleteLocked_meter k _) rfl rfl)
      (.completed hrun (Or.inr (Or.inl rfl)))

theorem kernelTaskSuspend_effect (k : Kernel) (requested : Nat) :
    MeterEffect noCoalesce k (kernelTaskSuspend k requested).2 := by
  simp only [kernelTaskSuspend]
  split
  · exact .refl k
  · split
    · exact .refl k
    · split
      · exact .refl k
      · next taskId hid =>
          by_cases hstate : (k.tasks taskId).state ≠ .ready
              ∧ ((k.tasks taskId).state ≠ .running ∨ taskId ≠ k.gCurrentTaskIndex)
          · rw [if_pos hstate]
            exact .refl k
          rw [if_neg hstate]
          by_cases hrun : (k.tasks taskId).state = .running
          · rw [if_pos hrun]
            exact .of_update (taskBenchmarkCompleteLocked_counter k taskId)
              (setState_meter (taskBenchmarkCompleteLocked_meter k taskId) rfl rfl)
              (.completed hrun (Or.inr (Or.inr rfl)))
          · rw [if_neg hrun]
            have hready : (k.tasks taskId).state = .ready := by
              by_contra hne
              exact hstate ⟨hne, Or.inl hrun⟩
            refine .of_update (i := taskId) rfl ?_ (.setAside hready)
            exact setState_meter (Function.update_eq_self _ k.meter).symm rfl rfl

theorem kernelTaskResume_effect (k : Kernel) (requested : Nat) :
    MeterEffect noCoalesce k (kernelTaskResume k requested).2 := by
  simp only [kernelTaskResume]
  split
  · exact .refl k
  · split
    · exact .refl k
    · split
      · exact .refl k
      · next taskId hid =>
          by_cases hstate : (k.tasks taskId).state ≠ .suspended
          · rw [if_pos hstate]
            exact .refl k
          rw [if_neg hstate]
          exact .of_update (taskBenchmarkReleaseLocked_counter k taskId false)
            (setState_meter (taskBenchmarkReleaseLocked_meter k taskId false) rfl rfl)
            (.released (Or.inr (Or.inr (not_not.mp hstate))))

end Complete

/-! ## Notifications -/

/-- `value`, notified to task `j`, finds an earlier notification that was
not taken. -/
def Kernel.Coalesces (k : Kernel) (taskId : Nat) (value : UInt32) (j : Nat) : Prop :=
  j = taskId ∧ taskId < k.taskCount ∧ value ≠ 0 ∧ (k.tasks taskId).notificationValue ≠ 0

instance (k : Kernel) (taskId : Nat) (value : UInt32) (j : Nat) :
    Decidable (k.Coalesces taskId value j) :=
  inferInstanceAs (Decidable (_ ∧ _ ∧ _ ∧ _))

theorem taskNotifyCommon_effect {k k' : Kernel} {task : Nat} {value : UInt32}
    {fromIsr inIsr : Bool} (h : taskNotifyCommon k task value fromIsr inIsr = some k') :
    MeterEffect (k.Coalesces task value) k k' := by
  have hlt : task < k.taskCount := (taskNotifyCommon_cases h).1
  unfold taskNotifyCommon at h
  split at h
  · cases h
  split at h
  · cases h
  have hframe := setNotification_meterFrame k task ((k.tasks task).notificationValue + value)
  simp only at h
  have hstate : ((k.setTask task ((k.tasks task).withNotification
      ((k.tasks task).notificationValue + value))).tasks task).state = (k.tasks task).state := by
    rw [Kernel.setTask_tasks_self]
    rfl
  generalize k.setTask task ((k.tasks task).withNotification
    ((k.tasks task).notificationValue + value)) = k₁ at h hframe hstate
  refine MeterEffect.behind ?_ hframe
  have hcoalesces : ∀ j, k.Coalesces task value j
      ↔ j = task ∧ value ≠ 0 ∧ (k.tasks task).notificationValue ≠ 0 := fun j =>
    ⟨fun hc => ⟨hc.1, hc.2.2⟩, fun hc => ⟨hc.1, hlt, hc.2⟩⟩
  -- The two tests of the source: does the task wait, and does the value coalesce?
  have hupdated : ∀ m m' : Meter, (k₁.meter task).Moves k₁.counter m' →
      (k.Coalesces task value task ∧ m = m'.coalesce k₁.counter
        ∨ ¬k.Coalesces task value task ∧ m = m') →
      k'.counter = k₁.counter → k'.meter = Function.update k₁.meter task m →
      MeterEffect (k.Coalesces task value) k₁ k' := by
    intro m m' hmoves hm hcounter hmeter
    refine ⟨hcounter, fun j => ?_⟩
    rw [hmeter]
    by_cases hj : j = task
    · subst hj
      rw [Function.update_self]
      exact ⟨m', hmoves, hm⟩
    · rw [Function.update_of_ne hj]
      exact ⟨k₁.meter j, .kept, Or.inr ⟨fun hc => hj hc.1, rfl⟩⟩
  by_cases hvalue : value ≠ 0 ∧ (k.tasks task).notificationValue ≠ 0
  · have hself : k.Coalesces task value task := (hcoalesces task).mpr ⟨rfl, hvalue⟩
    simp only [decide_eq_true hvalue, if_true] at h
    split at h
    · next hwaits =>
        cases h
        refine hupdated _ _ (.released (Or.inl ?_)) (Or.inl ⟨hself, ?_⟩)
          (taskBenchmarkReleaseLocked_counter k₁ task true) (taskWaitEnd_meter k₁ task 1 true)
        · exact hwaits.1
        · simp only [Meter.apply, Meter.withState, Meter.coalesce, Meter.release,
            CycleCounter.apply, JrtTaskBenchmarkRecord.releasedBy, if_true]
          cases k₁.counter.available <;> rfl
    · cases h
      exact hupdated _ _ .kept (Or.inl ⟨hself, rfl⟩) (taskBenchmarkCoalescedLocked_counter k₁ task)
        (taskBenchmarkCoalescedLocked_meter k₁ task)
  · have hself : ¬k.Coalesces task value task := fun hc => hvalue ((hcoalesces task).mp hc).2
    simp only [decide_eq_false hvalue, Bool.false_eq_true, if_false] at h
    split at h
    · next hwaits =>
        cases h
        exact hupdated _ _ (.released (Or.inl hwaits.1)) (Or.inr ⟨hself, rfl⟩)
          (taskBenchmarkReleaseLocked_counter k₁ task false) (taskWaitEnd_meter k₁ task 1 false)
    · cases h
      exact hupdated _ _ .kept (Or.inr ⟨hself, rfl⟩) rfl
        (Function.update_eq_self task _).symm

/-! ## Critical sections of blocking calls -/

section Blocking

variable {k : Kernel} (hrun : (k.tasks k.currentTask).state = .running)
include hrun

theorem jrtSemaphoreTake_meterEffect (s : Ptr) (timeout : UInt32) (deadline : TaskWaitDeadline) :
    MeterEffect noCoalesce k (jrtSemaphoreTake k s timeout deadline false).2 := by
  simp only [jrtSemaphoreTake, Bool.false_eq_true, if_false]
  split
  · exact .of_eq rfl rfl
  · split
    · exact .refl k
    · exact taskBlockUntilLocked_meterEffect hrun _ _ deadline

theorem jrtMutexLock_meterEffect (m : Ptr) (timeout : UInt32) (deadline : TaskWaitDeadline) :
    MeterEffect noCoalesce k (jrtMutexLock k m timeout deadline false).2 := by
  simp only [jrtMutexLock, Bool.false_eq_true, if_false]
  split
  · exact .of_eq rfl rfl
  · split
    · exact .of_eq rfl rfl
    · split
      · exact .refl k
      · have hframe := (taskInheritPriority_reprioritized k (k.mutexes m).owner
          (k.tasks k.currentTask).priority).meterFrame
        have hcur : (taskInheritPriority k (k.mutexes m).owner
            (k.tasks k.currentTask).priority).currentTask = k.currentTask := by simp
        refine MeterEffect.behind (taskBlockUntilLocked_meterEffect ?_ _ _ deadline) hframe
        rw [hcur]
        exact (congrArg Meter.state (congrFun hframe.2 k.currentTask)).trans hrun

theorem jrtQueueSend_meterEffect (q : Ptr) (source : Nat → UInt8) (timeout : UInt32)
    (deadline : TaskWaitDeadline) (reserved : Bool) :
    MeterEffect noCoalesce k (jrtQueueSend k q source timeout deadline reserved false).2 := by
  simp only [jrtQueueSend, Bool.false_eq_true, if_false]
  split
  · refine Releases.effect ?_
    exact (queueWakeReceiver_releases _ q).behind_eq rfl rfl
  · split
    · exact .refl k
    · exact taskBlockUntilLocked_meterEffect hrun _ _ deadline

theorem jrtQueueReceive_meterEffect (q : Ptr) (timeout : UInt32) (deadline : TaskWaitDeadline)
    (reserved : Bool) :
    MeterEffect noCoalesce k (jrtQueueReceive k q timeout deadline reserved false).2.2 := by
  simp only [jrtQueueReceive, Bool.false_eq_true, if_false]
  split
  · refine Releases.effect ?_
    exact (queueWakeSender_releases _ q).behind_eq rfl rfl
  · split
    · exact .refl k
    · exact taskBlockUntilLocked_meterEffect hrun _ _ deadline

theorem jrtTaskNotifyTake_meterEffect (value : Ptr) (timeout : UInt32) :
    MeterEffect noCoalesce k (jrtTaskNotifyTake k value timeout false).2.2 := by
  simp only [jrtTaskNotifyTake]
  split
  · exact .refl k
  · split
    · exact (setNotification_meterFrame k k.currentTask 0).effect
    · split
      · exact .refl k
      · exact taskWaitBeginUntil_effect hrun _ _ _

theorem jrtEventGroupWaitBits_meterEffect (g : Ptr) (bits : UInt32) (waitAll clear : Bool)
    (timeout : UInt32) :
    MeterEffect noCoalesce k (jrtEventGroupWaitBits k g bits waitAll clear timeout false).2 := by
  simp only [jrtEventGroupWaitBits]
  split
  · exact .refl k
  · split
    · cases clear <;> exact .of_eq rfl rfl
    · split
      · exact .refl k
      · have hframe : MeterFrame k (k.setTask k.currentTask
            ((k.tasks k.currentTask).withEventWait bits (boolWord waitAll) (boolWord clear))) :=
          setTask_meterFrame rfl rfl rfl
        refine MeterEffect.behind (taskWaitBeginUntil_effect ?_ _ _ _) hframe
        exact (congrArg Meter.state (congrFun hframe.2 k.currentTask)).trans hrun

theorem proceedEntered_meterEffect {source : Nat → UInt8} {reserved : Bool} {call : WaitCall}
    {s : Segment} (h : proceedEntered k source reserved call = .ok s) :
    MeterEffect noCoalesce k s.kernel := by
  cases call with
  | semaphoreTake sem timeout deadline =>
      obtain rfl := Except.ok.inj h
      rw [ofFlow_kernel]
      exact jrtSemaphoreTake_meterEffect hrun sem timeout deadline
  | mutexLock m timeout deadline =>
      obtain rfl := Except.ok.inj h
      rw [ofFlow_kernel]
      exact jrtMutexLock_meterEffect hrun m timeout deadline
  | queueSend q timeout deadline =>
      obtain rfl := Except.ok.inj h
      rw [ofFlow_kernel]
      exact jrtQueueSend_meterEffect hrun q source timeout deadline reserved
  | queueReceive q timeout deadline =>
      obtain rfl := Except.ok.inj h
      rw [ofFlow_kernel]
      exact jrtQueueReceive_meterEffect hrun q timeout deadline reserved
  | taskNotifyTake value timeout =>
      obtain rfl := Except.ok.inj h
      rw [ofFlow_kernel]
      exact jrtTaskNotifyTake_meterEffect hrun value timeout
  | eventGroupWaitBits g bits waitAll clear timeout =>
      obtain rfl := Except.ok.inj h
      rw [ofFlow_kernel]
      exact jrtEventGroupWaitBits_meterEffect hrun g bits waitAll clear timeout
  | timerServiceClaim =>
      simp only [proceedEntered, exec_bind_eq_ok, kernelTimerServiceClaim] at h
      obtain ⟨⟨_, k'⟩, ⟨claimed, -, hclaim⟩, h⟩ := h
      cases claimed with
      | none =>
          cases hclaim
          cases h
          exact taskWaitBeginUntil_effect hrun _ _ _
      | some timer =>
          cases hclaim
          cases h
          exact .of_eq rfl rfl

end Blocking

/-! ## Calls and handlers -/

def Call.coalesces (k : Kernel) : Call → Nat → Prop
  | .taskNotify taskId value => k.Coalesces taskId value
  | _ => noCoalesce

def IsrCall.coalesces (k : Kernel) : IsrCall → Nat → Prop
  | .taskNotifyFromIsr taskId value => k.Coalesces taskId value
  | _ => noCoalesce

def Action.coalesces (c : Cfg) : Action → Nat → Prop
  | .call made => made.coalesces c.kernel
  | .isr made => made.coalesces c.kernel
  | _ => noCoalesce

def Call.notification : Call → Option (Nat × UInt32)
  | .taskNotify taskId value => some (taskId, value)
  | _ => none

def IsrCall.notification : IsrCall → Option (Nat × UInt32)
  | .taskNotifyFromIsr taskId value => some (taskId, value)
  | _ => none

def Action.notification : Action → Option (Nat × UInt32)
  | .call made => made.notification
  | .isr made => made.notification
  | _ => none

theorem coalesces_iff (c : Cfg) (a : Action) (j : Nat) :
    (∃ n ∈ a.notification, c.kernel.Coalesces n.1 n.2 j) ↔ a.coalesces c j := by
  cases a with
  | call made => cases made <;> simp [Action.notification, Call.notification, Action.coalesces,
      Call.coalesces, noCoalesce]
  | isr made => cases made <;> simp [Action.notification, IsrCall.notification, Action.coalesces,
      IsrCall.coalesces, noCoalesce]
  | _ => simp [Action.notification, Action.coalesces, noCoalesce]

instance (c : Cfg) (a : Action) (j : Nat) : Decidable (a.coalesces c j) :=
  decidable_of_iff _ (coalesces_iff c a j)

theorem EnterCases.meterEffect {k k' : Kernel} {call : Call} (h : EnterCases k call k')
    (hrun : (k.tasks k.currentTask).state = .running)
    (hcur : k.gCurrentTaskIndex = k.currentTask) :
    MeterEffect (call.coalesces k) k k' := by
  cases h with
  | taskDelay ticks => exact sleepCurrent_meterEffect hrun hcur ticks
  | taskSuspend taskId => exact kernelTaskSuspend_effect k taskId
  | taskResume taskId => exact kernelTaskResume_effect k taskId
  | semaphoreGive semaphore => exact (semaphoreGiveLocked_releases k semaphore).effect
  | mutexUnlock mutex => exact (jrtMutexUnlock_releases k mutex false).effect
  | @notifyFails taskId value hnone =>
      have hle : k.taskCount ≤ taskId := taskNotifyCommon_eq_none hnone
      exact .of_moves (fun j hc => absurd hc.2.1 (Nat.not_lt.mpr hle)) rfl fun _ => .kept
  | taskNotify hsome => exact taskNotifyCommon_effect hsome
  | setBitsFails => exact .refl k
  | eventGroupSetBits hsome => exact (eventGroupSetBitsCommon_releases hsome).effect
  | timerSetCallback timer callback argument =>
      exact (jrtTimerSetCallback_releases k timer callback argument).effect
  | spares hspares hrecords =>
      have hnone : call.coalesces k = noCoalesce := by
        cases call <;> first | rfl | cases hspares
      rw [hnone]
      exact .of_eq hrecords.1 hrecords.2

theorem proceedResumed_meterFrame (k : Kernel) (call : WaitCall) :
    MeterFrame k (proceedResumed k call).kernel := by
  cases call with
  | queueSend | queueReceive =>
      simp only [proceedResumed]
      split <;> exact .refl k
  | taskNotifyTake value timeout => exact jrtTaskNotifyTakeResume_meterFrame k
  | eventGroupWaitBits g bits waitAll clear timeout =>
      exact jrtEventGroupWaitBitsResume_meterFrame k g bits
  | semaphoreTake | mutexLock | timerServiceClaim => exact .refl k

theorem isrCall_meterEffect (k : Kernel) (call : IsrCall) :
    MeterEffect (call.coalesces k) k (isrCall k call).1 := by
  cases call with
  | semaphoreGiveFromIsr s => exact (semaphoreGiveLocked_releases k s).effect
  | queueSendFromIsr q source => exact (jrtQueueSendFromIsr_releases k q source true).effect
  | taskNotifyFromIsr task value =>
      simp only [isrCall]
      split
      · next hnone =>
          have hle : k.taskCount ≤ task := taskNotifyCommon_eq_none hnone
          exact .of_moves (fun j hc => absurd hc.2.1 (Nat.not_lt.mpr hle)) rfl fun _ => .kept
      · next hsome => exact taskNotifyCommon_effect hsome
  | eventGroupSetBitsFromIsr g bits =>
      simp only [isrCall]
      split
      · exact .refl k
      · next hsome => exact (eventGroupSetBitsCommon_releases hsome).effect

theorem ThreadSegment.meterEffect {c : Cfg} {a : Action} {s : Segment} (h : ThreadSegment c a s)
    (hsched : Sched c) (hp : c.pending = false) :
    MeterEffect (a.coalesces c) c.kernel s.kernel := by
  have hcur : c.kernel.gCurrentTaskIndex = c.kernel.currentTask := hsched.currentTask.symm
  have hrunning : (∀ call, c.pc c.current ≠ .yielding call) →
      (c.kernel.tasks c.kernel.currentTask).state = .running := fun hy => by
    rw [hsched.currentTask]
    exact hsched.current_running hp hy
  cases h with
  | call hpc _ h => exact (enter_cases h).meterEffect (hrunning (by simp [hpc])) hcur
  | entered hpc h => exact proceedEntered_meterEffect (hrunning (by simp [hpc])) h
  | resumed => exact (proceedResumed_meterFrame _ _).effect
  | delayed hpc => exact sleepCurrent_meterEffect (hrunning (by simp [hpc])) hcur _
  | yielding | requestSwitch | inTime => exact .refl _

/-! ## The context switch -/

/-- The outgoing task's meter, with the stack usage `update_stack_usage`
finds. -/
def Kernel.savedMeter (k : Kernel) (i : Nat) (currentSp : Ptr) : Meter :=
  let t := k.tasks i
  let word := fillScan k.memory t.stackTop ((t.stackTop - t.stackBottom) / 4).toNat t.stackBottom
  { k.meter i with
    state := t.state.demoted
    minimumSp := if currentSp < t.minimumSp then currentSp else t.minimumSp
    highWaterWords := (t.stackTop - word) / 4 }

/-- The meter of a task that has been selected. -/
def Meter.install (m : Meter) (c : CycleCounter) : Meter :=
  (m.withState .running).apply c JrtTaskBenchmarkRecord.started

theorem recordHighWater_meterFrame (k : Kernel) (words : UInt32) :
    MeterFrame k (recordHighWater k words) := by
  unfold recordHighWater
  split <;> exact .of_eq rfl rfl

/-- A stack pointer that `update_stack_usage` accepts. -/
def Task.InStack (t : Task) (currentSp : Ptr) : Prop :=
  t.stackBottom ≤ currentSp ∧ currentSp ≤ t.stackTop ∧ currentSp &&& 3 = 0

theorem updateStackUsage_eq {k k' : Kernel} {task : Nat} {currentSp : Ptr}
    (h : updateStackUsage k task currentSp = .ok k') :
    (k.tasks task).InStack currentSp ∧ k'.counter = k.counter ∧
      k'.meter = Function.update k.meter task
        ((k.savedMeter task currentSp).withState (k.tasks task).state) := by
  simp only [updateStackUsage] at h
  split at h
  · cases h
  · next hin =>
      obtain rfl := Except.ok.inj h
      simp only [not_or, not_not, UInt32.not_lt] at hin
      have hframe := recordHighWater_meterFrame (k.setTask task ((k.tasks task).withStackUsage
        (if currentSp < (k.tasks task).minimumSp then currentSp else (k.tasks task).minimumSp)
        (((k.tasks task).stackTop - fillScan k.memory (k.tasks task).stackTop
          (((k.tasks task).stackTop - (k.tasks task).stackBottom) / 4).toNat
          (k.tasks task).stackBottom) / 4)))
        (((k.tasks task).stackTop - fillScan k.memory (k.tasks task).stackTop
          (((k.tasks task).stackTop - (k.tasks task).stackBottom) / 4).toNat
          (k.tasks task).stackBottom) / 4)
      refine ⟨hin, hframe.1, hframe.2.trans ?_⟩
      rw [setTask_meter]
      rfl

theorem pendsvSave_meter {k k' : Kernel} {currentSp : Ptr} (h : pendsvSave k currentSp = .ok k') :
    (k.tasks k.currentTask).InStack currentSp ∧ k'.counter = k.counter ∧
      k'.meter = Function.update k.meter k.currentTask (k.savedMeter k.currentTask currentSp) := by
  simp only [pendsvSave, exec_bind_eq_ok] at h
  obtain ⟨k₁, husage, h⟩ := h
  obtain rfl := Except.ok.inj h
  obtain ⟨hin, hcounter, hmeter⟩ := updateStackUsage_eq husage
  have hframe : MeterFrame k (k.setTask k.currentTask
      ((k.tasks k.currentTask).withSp currentSp)) := setTask_meterFrame rfl rfl rfl
  rw [Kernel.setTask_tasks_self] at hin
  have hsaved : (k.setTask k.currentTask
      ((k.tasks k.currentTask).withSp currentSp)).savedMeter k.currentTask currentSp
      = k.savedMeter k.currentTask currentSp := by
    rw [Kernel.savedMeter, Kernel.setTask_tasks_self, hframe.2]
    rfl
  rw [hframe.2, hsaved, Kernel.setTask_tasks_self] at hmeter
  refine ⟨hin, hcounter, ?_⟩
  have hself := congrFun hmeter k.currentTask
  rw [Function.update_self] at hself
  have hstate : (k₁.tasks k.currentTask).state = (k.tasks k.currentTask).state :=
    congrArg Meter.state hself
  rw [setTask_meter, hmeter, Function.update_idem, Function.update_self]
  congr 1
  have hsp : (k₁.tasks k.currentTask).minimumSp = (k.savedMeter k.currentTask currentSp).minimumSp :=
    congrArg Meter.minimumSp hself
  have hwords : (k₁.tasks k.currentTask).highWaterWords
      = (k.savedMeter k.currentTask currentSp).highWaterWords :=
    congrArg Meter.highWaterWords hself
  simp only [Task.withState, Task.withRunCount, hstate, hsp, hwords]
  rfl

theorem pendsvSwitch_meter {k k' : Kernel} {currentSp sp : Ptr}
    (h : pendsvSwitch k currentSp = .ok (sp, k')) :
    (k.tasks k.currentTask).InStack currentSp ∧ k'.counter = k.counter ∧
      ∃ saved, saved = Function.update k.meter k.currentTask (k.savedMeter k.currentTask currentSp)
        ∧ k'.meter = Function.update saved k'.currentTask
          ((saved k'.currentTask).install k.counter) := by
  simp only [pendsvSwitch, exec_bind_eq_ok] at h
  obtain ⟨k₁, hsave, k₂, hinstall, h⟩ := h
  obtain ⟨-, rfl⟩ := Prod.mk.inj (Except.ok.inj h)
  obtain ⟨hin, hcounter, hsaved⟩ := pendsvSave_meter hsave
  refine ⟨hin, ?_⟩
  simp only [pendsvInstall, exec_bind_eq_ok] at hinstall
  obtain ⟨mpu, -, hinstall⟩ := hinstall
  obtain rfl := Except.ok.inj hinstall
  have hstatistics : MeterFrame k₁ (pendsvStatistics k₁ k.gCurrentTaskIndex) := .of_eq rfl rfl
  generalize hnext : pendsvNextIndex k₁ k.gCurrentTaskIndex = next
  generalize pendsvStatistics k₁ k.gCurrentTaskIndex = k₃ at hstatistics
  have hrunning : (({ k₃ with gCurrentTaskIndex := next, currentTask := next } : Kernel).setTask
      next ((k₃.tasks next).withState .running)).meter
      = Function.update k₁.meter next ((k₁.meter next).withState .running) := by
    rw [← hstatistics.2]
    exact setTask_meter _ _ _
  have hstarted := taskBenchmarkStartLocked_meter
    (({ k₃ with gCurrentTaskIndex := next, currentTask := next } : Kernel).setTask
      next ((k₃.tasks next).withState .running)) next
  rw [hrunning, Function.update_self, Function.update_idem] at hstarted
  refine ⟨(taskBenchmarkStartLocked_counter _ _).trans (hstatistics.1.trans hcounter), k₁.meter,
    hsaved, ?_⟩
  refine hstarted.trans ?_
  rw [Meter.install, ← hcounter, ← hstatistics.1]
  rfl

/-! ## One step -/

/-- A step other than a context switch moves every meter. -/
theorem StepCases.meter {c c' : Cfg} {a : Action} {o : Observation} (h : StepCases c a c' o)
    (hsched : Sched c) (hswitch : ∀ currentSp, a ≠ .pendsv currentSp) (j : Nat) :
    ∃ m, (c.kernel.meter j).Moves c.kernel.counter m ∧
      (a.coalesces c j ∧ c'.kernel.meter j = m.coalesce c.kernel.counter
        ∨ ¬a.coalesces c j ∧ c'.kernel.meter j = m) := by
  cases h with
  | start _ hk =>
      obtain rfl := jrtKernelStart_spec hk
      exact (MeterEffect.of_eq rfl rfl).moves j
  | thread _ hp hseg => exact (hseg.meterEffect hsched hp).moves j
  | tick _ hk => exact (tickTasks_releases hk).effect.moves j
  | isr => exact (isrCall_meterEffect c.kernel _).moves j
  | pendsv => exact absurd rfl (hswitch _)
  | store => exact (MeterEffect.of_eq rfl rfl).moves j
  | cycles => exact ⟨c.kernel.meter j, .kept, Or.inr ⟨fun hno => hno, rfl⟩⟩

/-- A context switch takes the running task back to `READY`, and starts the
selected one. -/
theorem StepCases.meter_switched {c c' : Cfg} {currentSp : Ptr} {o : Observation}
    (h : StepCases c (.pendsv currentSp) c' o) (hsched : Sched c) {j : Nat}
    (hj : j < c.kernel.taskCount) :
    ∃ m, m.record = (c.kernel.meter j).record ∧ m.state = (c.kernel.meter j).state.demoted
      ∧ (c'.kernel.meter j = m
        ∨ m.state = .ready ∧ c'.kernel.meter j = m.install c.kernel.counter) := by
  cases h with
  | thread _ _ hseg => cases hseg
  | pendsv _ _ hk =>
      obtain ⟨-, -, saved, hsaved, hmeter⟩ := pendsvSwitch_meter hk
      obtain ⟨k₁, hsave, -, -, -, hcur, -⟩ := pendsvSwitch_cases hk
      have hready : (saved (pendsvNextIndex k₁ c.current)).state = .ready := by
        have hview := (hsched.selected_ready hsave).2
        rw [hsaved, ← (pendsvSave_meter hsave).2.2]
        exact hview
      refine ⟨saved j, ?_, ?_, ?_⟩
      · rw [hsaved, Function.update_apply]
        split
        · next hj => rw [hj]; rfl
        · rfl
      · rw [hsaved, Function.update_apply]
        split
        · next hj => rw [hj]; rfl
        · next hne =>
            -- Only the current task may run.
            have hnot : (c.kernel.meter j).state ≠ .running := fun hrun =>
              hne ((hsched.running j hj hrun).trans hsched.currentTask.symm)
            exact (demoted_of_ne hnot).symm
      · rw [hmeter, Function.update_apply]
        split
        · next hj =>
            rw [hj]
            refine Or.inr ⟨?_, rfl⟩
            rw [hcur]
            exact hready
        · exact Or.inl rfl

/-- What one step may make of the meter `m` of a task: a move, with or without
a coalesced notification on top of it, or its part in a context switch. -/
inductive Meter.Steps (c : CycleCounter) (m : Meter) (coalesces : Prop) : Meter → Prop where
  | moved {m' : Meter} : ¬coalesces → m.Moves c m' → Meter.Steps c m coalesces m'
  | coalesced {m' : Meter} : coalesces → m.Moves c m' → Meter.Steps c m coalesces (m'.coalesce c)
  | demoted {m' : Meter} : ¬coalesces → m'.record = m.record → m'.state = m.state.demoted →
      Meter.Steps c m coalesces m'
  | started {m' : Meter} : ¬coalesces → m'.record = m.record → m'.state = m.state.demoted →
      m'.state = .ready → Meter.Steps c m coalesces (m'.install c)

theorem StepCases.meter_steps {c c' : Cfg} {a : Action} {o : Observation}
    (h : StepCases c a c' o) (hsched : Sched c) {j : Nat} (hj : j < c.kernel.taskCount) :
    (c.kernel.meter j).Steps c.kernel.counter (a.coalesces c j) (c'.kernel.meter j) := by
  by_cases hswitch : ∃ sp, a = .pendsv sp
  · obtain ⟨sp, rfl⟩ := hswitch
    obtain ⟨m, hrecord, hstate, hm⟩ := h.meter_switched hsched hj
    rcases hm with hm | ⟨hready, hm⟩
    · rw [hm]
      exact .demoted id hrecord hstate
    · rw [hm]
      exact .started id hrecord hstate hready
  · obtain ⟨m, hmoves, hm⟩ := h.meter hsched (fun sp hsp => hswitch ⟨sp, hsp⟩) j
    rcases hm with ⟨hcoalesces, hm⟩ | ⟨hnone, hm⟩
    · rw [hm]
      exact .coalesced hcoalesces hmoves
    · rw [hm]
      exact .moved hnone hmoves

/-- Only the passing of time writes the cycle counter. -/
theorem StepCases.counter {c c' : Cfg} {a : Action} {o : Observation} (h : StepCases c a c' o)
    (hsched : Sched c) :
    c'.kernel.counter = match a with
      | .cycles now => { c.kernel.counter with now }
      | _ => c.kernel.counter := by
  cases h with
  | start _ hk =>
      obtain rfl := jrtKernelStart_spec hk
      rfl
  | thread _ hp hseg =>
      have hcounter := (hseg.meterEffect hsched hp).counter
      cases hseg <;> exact hcounter
  | tick _ hk => exact (tickTasks_releases hk).counter
  | isr => exact (isrCall_meterEffect c.kernel _).counter
  | pendsv _ _ hk => exact (pendsvSwitch_meter hk).2.1
  | store => rfl
  | cycles => rfl

theorem Run.counter {c c' : Cfg} {tr : List Transition} (h : Run c tr c') (hsched : Sched c) :
    c'.kernel.counter.available = c.kernel.counter.available
      ∧ c'.kernel.counter.taskCount = c.kernel.counter.taskCount
      ∧ c'.kernel.counter.initialized = c.kernel.counter.initialized := by
  refine (h.induction (fun c' => Sched c'
    ∧ c'.kernel.counter.available = c.kernel.counter.available
    ∧ c'.kernel.counter.taskCount = c.kernel.counter.taskCount
    ∧ c'.kernel.counter.initialized = c.kernel.counter.initialized) ?_ ⟨hsched, rfl, rfl, rfl⟩).2
  rintro c₁ c₂ a o ⟨hs, hkept⟩ hstep
  refine ⟨hs.step hstep, ?_⟩
  rw [hstep.counter hs]
  cases a <;> exact hkept

/-! ## Initialisation -/

/-- The stack usage of a task that has not run: its initial frame. -/
def Task.FreshUsage (t : Task) : Prop := t.minimumSp = t.sp ∧ t.highWaterWords = 17

/-- The record of a task that nothing was measured of. -/
structure JrtTaskBenchmarkRecord.Clear (r : JrtTaskBenchmarkRecord) : Prop where
  releaseCount : r.releaseCount = 0
  completionCount : r.completionCount = 0
  coalescedCount : r.coalescedCount = 0
  maxReleaseLatencyCycles : r.maxReleaseLatencyCycles = 0
  releasePending : r.releasePending = false
  activationActive : r.activationActive = false

/-- A prepare function makes the stack usage of its task fresh, and writes
no other task. The benchmark it leaves as it is, unless the task's
activation is open. -/
structure PreparesUsage (k k' : Kernel) (index : Nat) : Prop where
  fresh : (k'.tasks index).FreshUsage
  others : ∀ j, j ≠ index → k'.tasks j = k.tasks j
  benchmark : (k.benchmark.records index).Clear → k'.benchmark = k.benchmark

theorem prepareRecord_usage (img : Image) (k : Kernel) (index : Nat)
    (bottom top entry argument : Ptr) (priority : Nat) (name : String) (flags : UInt32)
    (base : Ptr) (size : UInt32) :
    PreparesUsage k (prepareRecord img k index bottom top entry argument priority name flags base
      size) index := by
  simp only [prepareRecord]
  generalize archBuildInitialStack img (fillStack k.memory bottom top) top entry argument = built
  obtain ⟨sp, memory⟩ := built
  refine ⟨?_, fun j hj => Kernel.setTask_tasks_of_ne _ hj _, fun _ => rfl⟩
  rw [Kernel.setTask_tasks_self]
  exact ⟨rfl, rfl⟩

/-- A write of the prepared task that keeps its usage. -/
theorem PreparesUsage.setTask {k k' : Kernel} {index : Nat} {t : Task}
    (h : PreparesUsage k k' index) (ht : t.FreshUsage) :
    PreparesUsage k (k'.setTask index t) index := by
  refine ⟨?_, fun j hj => ?_, h.benchmark⟩
  · rw [Kernel.setTask_tasks_self]
    exact ht
  · rw [Kernel.setTask_tasks_of_ne k' hj]
    exact h.others j hj

theorem prepareTask_usage (img : Image) (k : Kernel) (index : Nat) (d : JrtTaskDefinition) :
    PreparesUsage k (prepareTask img k index d) index := by
  have hrecord := prepareRecord_usage img k index d.stackBuffer d.stackEnd d.entry d.argument
    d.priority d.name d.flags d.privateDataBase d.privateDataSize
  exact hrecord.setTask hrecord.fresh

theorem prepareIdleTask_usage (img : Image) (k : Kernel) :
    PreparesUsage k (prepareIdleTask img k) (k.taskCount - 1) := by
  have hrecord := prepareRecord_usage img k (k.taskCount - 1) (img.idleTaskStorage + 32)
    (img.idleTaskStorage + 32 + img.jrtIdleStackWords * 4) img.idleBody 0 0 "idle" 0 0 0
  exact hrecord.setTask hrecord.fresh

theorem taskBenchmarkCompleteLocked_clear {k : Kernel} {i : Nat}
    (h : (k.benchmark.records i).Clear) :
    (taskBenchmarkCompleteLocked k i).benchmark = k.benchmark := by
  simp only [taskBenchmarkCompleteLocked, Benchmark.onRecord, h.activationActive]
  split
  · have hsame : (fun j => if j = i then k.benchmark.records i else k.benchmark.records j)
        = k.benchmark.records := by
      funext j
      by_cases hj : j = i <;> simp [hj]
    simp [hsame]
  · rfl

theorem prepareTimerServiceTask_usage (img : Image) (k : Kernel) (index : Nat) :
    PreparesUsage k (prepareTimerServiceTask img k index) index := by
  have hrecord := prepareRecord_usage img { k with timerServiceTaskIndex := index } index
    (img.timerServiceTaskStorage + 32)
    (img.timerServiceTaskStorage + 32 + img.jrtTimerServiceStackWords * 4) img.timerServiceBody 0
    img.jrtTimerServicePriority "timer-service" 0 0 0
  simp only [prepareTimerServiceTask, taskWaitBegin, taskWaitBeginUntil]
  generalize prepareRecord img { k with timerServiceTaskIndex := index } index
    (img.timerServiceTaskStorage + 32)
    (img.timerServiceTaskStorage + 32 + img.jrtTimerServiceStackWords * 4) img.timerServiceBody 0
    img.jrtTimerServicePriority "timer-service" 0 0 0 = k₁ at hrecord
  refine ⟨?_, fun j hj => ?_, fun hclear => ?_⟩
  · rw [Kernel.setTask_tasks_self]
    exact hrecord.fresh
  · rw [Kernel.setTask_tasks_of_ne _ hj]
    exact hrecord.others j hj
  · have hbenchmark : k₁.benchmark = k.benchmark := hrecord.benchmark hclear
    rw [← hbenchmark] at hclear ⊢
    exact taskBenchmarkCompleteLocked_clear hclear

theorem foldl_prepareTask_usage (img : Image) (tasks : Nat → JrtTaskDefinition) (l : List Nat)
    (k : Kernel) (hclear : ∀ i, (k.benchmark.records i).Clear ∨ i ∉ l) :
    (l.foldl (fun k index => prepareTask img k index (tasks index)) k).benchmark = k.benchmark
      ∧ ∀ i, i ∈ l ∨ (k.tasks i).FreshUsage →
        ((l.foldl (fun k index => prepareTask img k index (tasks index)) k).tasks i).FreshUsage := by
  induction l generalizing k with
  | nil => exact ⟨rfl, fun i hi => hi.resolve_left List.not_mem_nil⟩
  | cons a l ih =>
      have husage := prepareTask_usage img k a (tasks a)
      have hbenchmark := husage.benchmark
        ((hclear a).resolve_right (not_not.mpr List.mem_cons_self))
      obtain ⟨hrest, hfresh⟩ := ih (prepareTask img k a (tasks a)) fun i => by
        rw [hbenchmark]
        exact (hclear i).imp_right fun hi hmem => hi (List.mem_cons_of_mem _ hmem)
      refine ⟨hrest.trans hbenchmark, fun i hi => hfresh i ?_⟩
      by_cases hia : i = a
      · rw [hia]
        exact Or.inr husage.fresh
      · rw [husage.others i hia]
        exact hi.imp_left fun hmem => (List.mem_cons.mp hmem).resolve_left hia

theorem taskBenchmarkInit_clear (b : Benchmark) (available : Bool) (clock rate : UInt32)
    {taskCount i : Nat} (periods : Nat → UInt32) (application : Nat) (hi : i < taskCount) :
    ((taskBenchmarkInit b available clock rate taskCount periods application).records i).Clear := by
  simp only [taskBenchmarkInit, hi, if_true]
  split <;> exact ⟨rfl, rfl, rfl, rfl, rfl, rfl⟩

/-- Behind `JRT_KernelInit` every stack holds its initial frame, and nothing
was measured. -/
theorem kernelSetUp_meter {img : Image} {k k' : Kernel} {tasks : Nat → JrtTaskDefinition}
    {taskCount : Nat} (h : kernelSetUp img k tasks taskCount = .ok k') :
    k'.counter = { available := img.cycleCounterAvailable, taskCount := taskCount + 1
                   frequencyHz := if img.cycleCounterAvailable then img.jrtCoreClockHz else 0
                   initialized := true, now := k.benchmark.dwtCyccnt }
      ∧ ∀ i < taskCount + 2, (k'.tasks i).FreshUsage ∧ (k'.benchmark.records i).Clear := by
  simp only [kernelSetUp, exec_bind_eq_ok] at h
  obtain ⟨mpu, -, h⟩ := h
  obtain rfl := Except.ok.inj h
  generalize hk₀ : ({ k with
    applicationTaskCount := taskCount
    taskCount := taskCount + jrtInternalTaskCount
    benchmark := taskBenchmarkInit k.benchmark img.cycleCounterAvailable img.jrtCoreClockHz
      img.jrtTickRateHz (taskCount + jrtInternalTaskCount)
      (fun i => (tasks i).benchmarkPeriodTicks) taskCount } : Kernel) = k₀
  have hclear : ∀ i < taskCount + 2, (k₀.benchmark.records i).Clear := fun i hi => by
    rw [← hk₀]
    exact taskBenchmarkInit_clear _ _ _ _ _ _ hi
  have hcounter : k₀.counter = { available := img.cycleCounterAvailable, taskCount := taskCount + 1
                                 frequencyHz := if img.cycleCounterAvailable then img.jrtCoreClockHz
                                   else 0
                                 initialized := true, now := k.benchmark.dwtCyccnt } := by
    rw [← hk₀]
    rfl
  have hn₀ : k₀.taskCount = taskCount + 2 := by
    rw [← hk₀]
    rfl
  obtain ⟨hbenchmark₁, hfresh₁⟩ := foldl_prepareTask_usage img tasks (List.range taskCount) k₀
    fun i => by
      by_cases hi : i < taskCount + 2
      · exact Or.inl (hclear i hi)
      · refine Or.inr fun hmem => ?_
        have := List.mem_range.mp hmem
        omega
  obtain ⟨-, hn₁, -⟩ := foldl_prepareTask_spec img tasks (List.range taskCount) k₀
  generalize (List.range taskCount).foldl (fun k index => prepareTask img k index (tasks index)) k₀
    = k₁ at hbenchmark₁ hfresh₁ hn₁ ⊢
  have hservice := prepareTimerServiceTask_usage img k₁ taskCount
  obtain ⟨-, -, ⟨-, hn₂, -⟩, -⟩ := prepareTimerServiceTask_spec img k₁ taskCount
  have hbenchmark₂ := hservice.benchmark (by rw [hbenchmark₁]; exact hclear _ (by omega))
  generalize prepareTimerServiceTask img k₁ taskCount = k₂ at hservice hn₂ hbenchmark₂ ⊢
  have hidle := prepareIdleTask_usage img k₂
  have hindex : k₂.taskCount - 1 = taskCount + 1 := by omega
  rw [hindex] at hidle
  have hbenchmark₃ := hidle.benchmark (by rw [hbenchmark₂, hbenchmark₁]; exact hclear _ (by omega))
  generalize prepareIdleTask img k₂ = k₃ at hidle hbenchmark₃ ⊢
  have hbenchmark : k₃.benchmark = k₀.benchmark :=
    hbenchmark₃.trans (hbenchmark₂.trans hbenchmark₁)
  have husage : ∀ i < taskCount + 2, (k₃.tasks i).FreshUsage := fun i hi => by
    by_cases hi₃ : i = taskCount + 1
    · rw [hi₃]
      exact hidle.fresh
    rw [hidle.others i hi₃]
    by_cases hi₂ : i = taskCount
    · rw [hi₂]
      exact hservice.fresh
    rw [hservice.others i hi₂]
    exact hfresh₁ i (Or.inl (List.mem_range.mpr (by omega)))
  refine ⟨?_, fun i hi => ⟨?_, ?_⟩⟩
  · rw [← hcounter, Kernel.counter, Kernel.counter, ← hbenchmark]
    rfl
  · show (if i = 0 then (k₃.tasks 0).withState .running else k₃.tasks i).FreshUsage
    split
    · exact husage 0 (by omega)
    · exact husage i hi
  · show (k₃.benchmark.records i).Clear
    rw [hbenchmark]
    exact hclear i hi

theorem Boot.meter {img : Image} {c : Cfg} (h : Boot img c) :
    c.kernel.counter.available = img.cycleCounterAvailable
      ∧ c.kernel.counter.taskCount = c.kernel.applicationTaskCount + 1
      ∧ c.kernel.counter.initialized = true
      ∧ ∀ i < c.kernel.taskCount,
        (c.kernel.tasks i).FreshUsage ∧ (c.kernel.benchmark.records i).Clear := by
  obtain ⟨k₀, config, k, hinit, rfl⟩ := h
  obtain ⟨tasks, -, -, -, -, -, hsetUp⟩ := jrtKernelInit_cases hinit
  have happ := (kernelSetUp_ledger hsetUp).1
  obtain ⟨hcounter, hmeter⟩ := kernelSetUp_meter hsetUp
  have hcount : k.taskCount = k.applicationTaskCount + 2 := (jrtKernelInit_booted hinit).taskCount_eq
  change k.counter.available = _ ∧ k.counter.taskCount = k.applicationTaskCount + 1
    ∧ k.counter.initialized = true ∧ ∀ i < k.taskCount, _
  rw [hcount, happ, hcounter]
  exact ⟨rfl, rfl, rfl, hmeter⟩

end JustRT
