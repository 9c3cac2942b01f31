import JustRT.Scheduler

/-!
# What the kernel measures of a task

`Meter` is a task's state with what is measured of it: its benchmark
record and its stack usage. A step of the system moves the meter of each
task along its life cycle (`Meter.Moves`): a wait, a sleep or a suspension
ends and an activation is released, or the running task leaves and its
activation completes. The context switch alone starts activations and
writes stack usage.
-/

namespace JustRT

/-! ## Records -/

namespace JrtTaskBenchmarkRecord

variable (r : JrtTaskBenchmarkRecord) (now : UInt32)

/-- What `task_benchmark_release_locked` makes of a record. -/
def released : JrtTaskBenchmarkRecord :=
  { r with
    releaseCount := r.releaseCount + 1
    releaseCycle := if r.releasePending then r.releaseCycle else now
    releasePending := true }

/-- What `task_benchmark_coalesced_locked` makes of a record. -/
def coalesced : JrtTaskBenchmarkRecord := { r with coalescedCount := r.coalescedCount + 1 }

/-- What `task_benchmark_start_locked` makes of a record. -/
def started : JrtTaskBenchmarkRecord :=
  if r.releasePending && !r.activationActive then
    { r with
      maxReleaseLatencyCycles := max (now - r.releaseCycle) r.maxReleaseLatencyCycles
      activationStartCycle := now
      releasePending := false
      activationActive := true }
  else r

/-- What `task_benchmark_complete_locked` makes of a record. -/
def completed : JrtTaskBenchmarkRecord :=
  if r.activationActive then
    { r with
      maxActivationCycles := max (now - r.activationStartCycle) r.maxActivationCycles
      completionCount := r.completionCount + 1
      activationActive := false }
  else r

end JrtTaskBenchmarkRecord

/-- The variables of `benchmark.c` besides the records. -/
structure CycleCounter where
  available : Bool
  taskCount : Nat
  frequencyHz : UInt32
  initialized : Bool
  now : UInt32
deriving DecidableEq

def Kernel.counter (k : Kernel) : CycleCounter :=
  { available := k.benchmark.cycleCounterAvailable
    taskCount := k.benchmark.taskCount
    frequencyHz := k.benchmark.cycleFrequencyHz
    initialized := k.benchmark.initialized
    now := k.benchmark.dwtCyccnt }

/-- A hook writes a record only if the counter is available. -/
def CycleCounter.apply (c : CycleCounter)
    (f : JrtTaskBenchmarkRecord → UInt32 → JrtTaskBenchmarkRecord)
    (r : JrtTaskBenchmarkRecord) : JrtTaskBenchmarkRecord :=
  if c.available then f r c.now else r

/-! ## Meters -/

/-- What the benchmark and the stack check record of a task, and the state that
decides what they are to record. -/
structure Meter where
  state : TaskState
  record : JrtTaskBenchmarkRecord
  minimumSp : Ptr
  highWaterWords : UInt32
deriving DecidableEq

def Kernel.meter (k : Kernel) (j : Nat) : Meter :=
  { state := (k.tasks j).state
    record := k.benchmark.records j
    minimumSp := (k.tasks j).minimumSp
    highWaterWords := (k.tasks j).highWaterWords }

namespace Meter

def withState (m : Meter) (state : TaskState) : Meter := { m with state }

/-- A hook `f` has written the record. -/
def apply (m : Meter) (c : CycleCounter)
    (f : JrtTaskBenchmarkRecord → UInt32 → JrtTaskBenchmarkRecord) : Meter :=
  { m with record := c.apply f m.record }

def release (m : Meter) (c : CycleCounter) : Meter :=
  (m.apply c JrtTaskBenchmarkRecord.released).withState .ready

/-- The running task has left for `state`, with a completion. -/
def complete (m : Meter) (c : CycleCounter) (state : TaskState) : Meter :=
  (m.apply c JrtTaskBenchmarkRecord.completed).withState state

def coalesce (m : Meter) (c : CycleCounter) : Meter :=
  m.apply c fun r _ => r.coalesced

end Meter

/-- The task waits to be made `READY` again. -/
def TaskState.Idle (s : TaskState) : Prop := s = .blocked ∨ s = .sleeping ∨ s = .suspended

instance (s : TaskState) : Decidable s.Idle := inferInstanceAs (Decidable (_ ∨ _ ∨ _))

/-- What may become of the meter `m` of a task between two context switches. A
release and a completion have their hook of the benchmark beside the write of
the state; a yield, and the suspension of a ready task, have none. -/
inductive Meter.Moves (c : CycleCounter) (m : Meter) : Meter → Prop where
  | kept : Meter.Moves c m m
  | released : m.state.Idle → Meter.Moves c m (m.release c)
  | completed {state : TaskState} : m.state = .running → state.Idle →
      Meter.Moves c m (m.complete c state)
  | yielded : m.state = .running → Meter.Moves c m (m.withState .ready)
  | setAside : m.state = .ready → Meter.Moves c m (m.withState .suspended)

/-! ## Hooks -/

theorem onRecord_records (b : Benchmark) (i j : Nat)
    (f : JrtTaskBenchmarkRecord → JrtTaskBenchmarkRecord) :
    (b.onRecord i f).records j =
      if j = i ∧ b.cycleCounterAvailable then f (b.records i) else b.records j := by
  unfold Benchmark.onRecord
  by_cases hb : b.cycleCounterAvailable = true <;> by_cases hj : j = i <;> simp [hb, hj]

section Hooks

variable (k : Kernel) (i : Nat)

theorem meter_of_hook {k' : Kernel}
    {f : JrtTaskBenchmarkRecord → UInt32 → JrtTaskBenchmarkRecord} (htasks : k'.tasks = k.tasks)
    (hrecords : k'.benchmark.records =
      (k.benchmark.onRecord i fun r => f r k.benchmark.dwtCyccnt).records) :
    k'.meter = Function.update k.meter i ((k.meter i).apply k.counter f) := by
  funext j
  have hrecord : k'.benchmark.records j
      = if j = i then k.counter.apply f (k.benchmark.records i) else k.benchmark.records j := by
    rw [hrecords, onRecord_records, CycleCounter.apply]
    by_cases hj : j = i <;>
      by_cases hb : k.benchmark.cycleCounterAvailable = true <;> simp [hj, hb, Kernel.counter]
  by_cases hj : j = i
  · subst hj
    rw [Function.update_self, Kernel.meter, htasks, hrecord, if_pos rfl]
    rfl
  · rw [Function.update_of_ne hj, Kernel.meter, htasks, hrecord, if_neg hj]
    rfl

theorem onRecord_counter (f : JrtTaskBenchmarkRecord → JrtTaskBenchmarkRecord) :
    ({ k with benchmark := k.benchmark.onRecord i f } : Kernel).counter = k.counter := by
  unfold Benchmark.onRecord
  by_cases hb : k.benchmark.cycleCounterAvailable = true <;> simp [hb, Kernel.counter]

@[simp] theorem taskBenchmarkReleaseLocked_counter (coalesced : Bool) :
    (taskBenchmarkReleaseLocked k i coalesced).counter = k.counter := onRecord_counter k i _

@[simp] theorem taskBenchmarkCoalescedLocked_counter :
    (taskBenchmarkCoalescedLocked k i).counter = k.counter := onRecord_counter k i _

@[simp] theorem taskBenchmarkStartLocked_counter :
    (taskBenchmarkStartLocked k i).counter = k.counter := onRecord_counter k i _

@[simp] theorem taskBenchmarkCompleteLocked_counter :
    (taskBenchmarkCompleteLocked k i).counter = k.counter := onRecord_counter k i _

/-- What a release makes of a record; a coalesced one counts twice. -/
def JrtTaskBenchmarkRecord.releasedBy (coalesced : Bool) (r : JrtTaskBenchmarkRecord)
    (now : UInt32) : JrtTaskBenchmarkRecord :=
  if coalesced then (r.released now).coalesced else r.released now

theorem taskBenchmarkReleaseLocked_meter (coalesced : Bool) :
    (taskBenchmarkReleaseLocked k i coalesced).meter = Function.update k.meter i
      ((k.meter i).apply k.counter (JrtTaskBenchmarkRecord.releasedBy coalesced)) := by
  refine meter_of_hook k i rfl ?_
  simp only [taskBenchmarkReleaseLocked]
  congr 2
  funext r
  cases coalesced <;> cases hp : r.releasePending <;>
    simp [JrtTaskBenchmarkRecord.releasedBy, JrtTaskBenchmarkRecord.released,
      JrtTaskBenchmarkRecord.coalesced, hp]

theorem taskBenchmarkCoalescedLocked_meter :
    (taskBenchmarkCoalescedLocked k i).meter =
      Function.update k.meter i ((k.meter i).coalesce k.counter) :=
  meter_of_hook k i rfl rfl

theorem max_eq_ite (a b : UInt32) : (if a > b then a else b) = max a b := by
  show _ = if a ≤ b then b else a
  by_cases h : a ≤ b
  · rw [if_neg (UInt32.not_lt.mpr h), if_pos h]
  · rw [if_pos (UInt32.not_le.mp h), if_neg h]

theorem taskBenchmarkStartLocked_meter :
    (taskBenchmarkStartLocked k i).meter = Function.update k.meter i
      ((k.meter i).apply k.counter JrtTaskBenchmarkRecord.started) := by
  refine meter_of_hook k i rfl ?_
  simp only [taskBenchmarkStartLocked, max_eq_ite]
  congr 2
  funext r
  cases hp : r.releasePending <;> cases ha : r.activationActive <;>
    simp [JrtTaskBenchmarkRecord.started, hp, ha]

theorem taskBenchmarkCompleteLocked_meter :
    (taskBenchmarkCompleteLocked k i).meter = Function.update k.meter i
      ((k.meter i).apply k.counter JrtTaskBenchmarkRecord.completed) := by
  refine meter_of_hook k i rfl ?_
  simp only [taskBenchmarkCompleteLocked, max_eq_ite]
  congr 2
  funext r
  cases ha : r.activationActive <;> simp [JrtTaskBenchmarkRecord.completed, ha]

end Hooks

/-! ## Functions that leave every meter alone -/

/-- Between `k` and `k'` no meter moves. -/
def MeterFrame (k k' : Kernel) : Prop := k'.counter = k.counter ∧ k'.meter = k.meter

namespace MeterFrame

variable {k k₁ k₂ k₃ k' : Kernel}

theorem of_eq (htasks : k'.tasks = k.tasks) (hbenchmark : k'.benchmark = k.benchmark) :
    MeterFrame k k' := by
  refine ⟨by rw [Kernel.counter, Kernel.counter, hbenchmark], ?_⟩
  funext j
  rw [Kernel.meter, Kernel.meter, htasks, hbenchmark]

theorem refl (k : Kernel) : MeterFrame k k := ⟨rfl, rfl⟩

theorem trans (h₁ : MeterFrame k₁ k₂) (h₂ : MeterFrame k₂ k₃) : MeterFrame k₁ k₃ :=
  ⟨h₂.1.trans h₁.1, h₂.2.trans h₁.2⟩

end MeterFrame

/-- What a written record says of state and stack, the benchmark record
aside. -/
theorem setTask_meter (k : Kernel) (i : Nat) (t : Task) :
    (k.setTask i t).meter = Function.update k.meter i
      { state := t.state
        record := (k.meter i).record
        minimumSp := t.minimumSp
        highWaterWords := t.highWaterWords } := by
  funext j
  by_cases hj : j = i
  · subst hj
    rw [Function.update_self, Kernel.meter, Kernel.setTask_tasks_self]
    rfl
  · rw [Function.update_of_ne hj, Kernel.meter, Kernel.setTask_tasks_of_ne k hj]
    rfl

/-- A record is written whose state and stack usage stay. -/
theorem setTask_meterFrame {k : Kernel} {i : Nat} {t : Task} (hstate : t.state = (k.tasks i).state)
    (hsp : t.minimumSp = (k.tasks i).minimumSp)
    (hwords : t.highWaterWords = (k.tasks i).highWaterWords) :
    MeterFrame k (k.setTask i t) := by
  refine ⟨rfl, ?_⟩
  rw [setTask_meter, hstate, hsp, hwords]
  exact Function.update_eq_self i k.meter

theorem setPriority_meterFrame (k : Kernel) (task priority : Nat) :
    MeterFrame k (setPriority k task priority) :=
  setTask_meterFrame rfl rfl rfl

theorem Reprioritized.meterFrame {k k' : Kernel} (h : Reprioritized k k') : MeterFrame k k' := by
  induction h with
  | refl => exact .refl k
  | set task priority _ ih => exact ih.trans (setPriority_meterFrame _ task priority)

theorem setNotification_meterFrame (k : Kernel) (i : Nat) (value : UInt32) :
    MeterFrame k (k.setTask i ((k.tasks i).withNotification value)) :=
  setTask_meterFrame rfl rfl rfl

theorem countTimeout_meterFrame (k : Kernel) (waitKind : TaskWaitKind) :
    MeterFrame k (countTimeout k waitKind) := by
  cases waitKind <;> exact .of_eq rfl rfl

theorem jrtTaskNotifyTakeResume_meterFrame (k : Kernel) :
    MeterFrame k (jrtTaskNotifyTakeResume k).2.2 :=
  setNotification_meterFrame k k.currentTask 0

theorem jrtEventGroupWaitBitsResume_meterFrame (k : Kernel) (group : Ptr) (bits : UInt32) :
    MeterFrame k (jrtEventGroupWaitBitsResume k group bits).2 := by
  simp only [jrtEventGroupWaitBitsResume]
  split <;> exact .of_eq rfl rfl

/-! ## Functions that release -/

/-- Between `k` and `k'` waits and sleeps only end, each with one release. -/
structure Releases (k k' : Kernel) : Prop where
  counter : k'.counter = k.counter
  meter : ∀ j, k'.meter j = k.meter j ∨
    ((k.meter j).state = .blocked ∨ (k.meter j).state = .sleeping)
      ∧ k'.meter j = (k.meter j).release k.counter

namespace Releases

variable {k k₁ k₂ k₃ k' : Kernel}

theorem of_frame (h : MeterFrame k k') : Releases k k' :=
  ⟨h.1, fun j => Or.inl (congrFun h.2 j)⟩

theorem of_eq (htasks : k'.tasks = k.tasks) (hbenchmark : k'.benchmark = k.benchmark) :
    Releases k k' :=
  of_frame (.of_eq htasks hbenchmark)

theorem refl (k : Kernel) : Releases k k := of_frame (.refl k)

theorem trans (h₁ : Releases k₁ k₂) (h₂ : Releases k₂ k₃) : Releases k₁ k₃ := by
  refine ⟨h₂.counter.trans h₁.counter, fun j => ?_⟩
  rcases h₁.meter j with heq | ⟨hwaits, heq⟩
  · rw [← heq, ← h₁.counter]
    exact h₂.meter j
  · rcases h₂.meter j with heq' | ⟨hwaits', -⟩
    · exact Or.inr ⟨hwaits, heq'.trans heq⟩
    · -- A task that was just released waits for nothing.
      rw [heq] at hwaits'
      rcases hwaits' with h | h <;> cases h

theorem behind_eq (h : Releases k₁ k') (htasks : k₁.tasks = k.tasks)
    (hbenchmark : k₁.benchmark = k.benchmark) : Releases k k' :=
  (of_eq htasks hbenchmark).trans h

theorem of_update {i : Nat} (hcounter : k'.counter = k.counter)
    (hwaits : (k.meter i).state = .blocked ∨ (k.meter i).state = .sleeping)
    (hmeter : k'.meter = Function.update k.meter i ((k.meter i).release k.counter)) :
    Releases k k' := by
  refine ⟨hcounter, fun j => ?_⟩
  rw [hmeter]
  by_cases hj : j = i
  · subst hj
    rw [Function.update_self]
    exact Or.inr ⟨hwaits, rfl⟩
  · rw [Function.update_of_ne hj]
    exact Or.inl rfl

end Releases

theorem setState_meter {k k' : Kernel} {i : Nat} {m : Meter} {t : Task}
    (hmeter : k'.meter = Function.update k.meter i m) (hsp : t.minimumSp = m.minimumSp)
    (hwords : t.highWaterWords = m.highWaterWords) :
    (k'.setTask i t).meter = Function.update k.meter i (m.withState t.state) := by
  rw [setTask_meter, hmeter, Function.update_idem, Function.update_self, hsp, hwords]
  rfl

theorem taskWaitEnd_meter (k : Kernel) (task : Nat) (result : UInt32) (coalesced : Bool) :
    (taskWaitEnd k task result coalesced).meter = Function.update k.meter task
      (((k.meter task).apply k.counter (JrtTaskBenchmarkRecord.releasedBy coalesced)).withState
        .ready) :=
  setState_meter (taskBenchmarkReleaseLocked_meter k task coalesced) rfl rfl

theorem taskWaitEnd_releases {k : Kernel} {task : Nat} (result : UInt32)
    (hblocked : (k.tasks task).state = .blocked) :
    Releases k (taskWaitEnd k task result false) :=
  .of_update (taskBenchmarkReleaseLocked_counter k task false) (Or.inl hblocked)
    (taskWaitEnd_meter k task result false)

theorem wakeSelected_releases (k : Kernel) (object : WaitObject) (waitKind : TaskWaitKind) :
    Releases k ((wakeSelect k object waitKind).elim k fun s => taskWaitEnd k s 1 false) := by
  cases h : wakeSelect k object waitKind with
  | none => exact .refl k
  | some s => exact taskWaitEnd_releases 1 (wakeSelect_spec h).2.1.1

theorem taskTimerServiceWakeLocked_releases (k : Kernel) :
    Releases k (taskTimerServiceWakeLocked k) := by
  simp only [taskTimerServiceWakeLocked]
  split
  · next h => exact taskWaitEnd_releases 1 h.1
  · exact .refl k

theorem semaphoreGiveLocked_releases (k : Kernel) (semaphore : Ptr) :
    Releases k (semaphoreGiveLocked k semaphore) := by
  simp only [semaphoreGiveLocked, taskWake_eq]
  refine (wakeSelected_releases k (.ptr semaphore) .semaphore).trans ?_
  split
  · exact .refl _
  · exact .of_eq rfl rfl

theorem jrtMutexUnlock_releases (k : Kernel) (mutex : Ptr) (inIsr : Bool) :
    Releases k (jrtMutexUnlock k mutex inIsr).2 := by
  simp only [jrtMutexUnlock, taskWakeGetId_eq]
  split
  · exact .of_eq rfl rfl
  · split
    · exact .refl k
    · split
      · exact .of_eq rfl rfl
      · have hwake := wakeSelected_releases k (.ptr mutex) .mutex
        have hrestore : ∀ (k : Kernel) (task : Nat), Releases k (taskRestorePriority k task) :=
          fun k task => .of_frame (taskRestorePriority_reprioritized k task).meterFrame
        cases hs : wakeSelect k (.ptr mutex) .mutex with
        | none => exact (hrestore _ _).behind_eq rfl rfl
        | some s =>
            rw [hs] at hwake
            exact hwake.trans (((hrestore _ _).trans (hrestore _ _)).behind_eq rfl rfl)

theorem queueWakeReceiver_releases (k : Kernel) (queue : Ptr) :
    Releases k (queueWakeReceiver k queue) := by
  simp only [queueWakeReceiver, taskWake_eq]
  refine (wakeSelected_releases k (.ptr queue) .queueReceive).trans ?_
  split
  · exact .of_eq rfl rfl
  · exact .refl _

theorem queueWakeSender_releases (k : Kernel) (queue : Ptr) :
    Releases k (queueWakeSender k queue) := by
  simp only [queueWakeSender, taskWake_eq]
  refine (wakeSelected_releases k (.ptr queue) .queueSend).trans ?_
  split
  · exact .of_eq rfl rfl
  · exact .refl _

theorem jrtQueueSendFromIsr_releases (k : Kernel) (queue : Ptr) (source : Nat → UInt8)
    (inIsr : Bool) : Releases k (jrtQueueSendFromIsr k queue source inIsr).2 := by
  simp only [jrtQueueSendFromIsr]
  split
  · exact .of_eq rfl rfl
  · split
    · exact (queueWakeReceiver_releases _ queue).behind_eq rfl rfl
    · exact .of_eq rfl rfl

theorem setBitsStep_releases (group : Ptr) (k : Kernel) (index : Nat) :
    Releases k (setBitsStep group k index) := by
  simp only [setBitsStep]
  split
  · next h => exact taskWaitEnd_releases 1 h.1
  · exact .refl k

theorem eventGroupSetBitsCommon_releases {k k' : Kernel} {group : Ptr} {bits result : UInt32}
    {fromIsr inIsr : Bool}
    (h : eventGroupSetBitsCommon k group bits fromIsr inIsr = some (result, k')) :
    Releases k k' := by
  simp only [eventGroupSetBitsCommon] at h
  split at h
  · cases h
  · cases h
    exact (Scan.foldl_rel Releases.refl Releases.trans (setBitsStep_releases group) _ _).behind_eq
      rfl rfl

theorem jrtTimerSetCallback_releases (k : Kernel) (timer callback argument : Ptr) :
    Releases k (jrtTimerSetCallback k timer callback argument).2 := by
  simp only [jrtTimerSetCallback]
  split
  · exact .refl k
  · split
    · exact (taskTimerServiceWakeLocked_releases _).behind_eq rfl rfl
    · exact .of_eq rfl rfl

/-! ### The tick -/

theorem timerTickStep_releases (now : UInt32) (k : Kernel) (timer : Ptr) :
    Releases k (timerTickStep now k timer) := by
  have hexpire : Releases k (timerExpire k timer) := by
    simp only [timerExpire]
    split
    · exact (taskTimerServiceWakeLocked_releases _).behind_eq rfl rfl
    · exact .of_eq rfl rfl
  unfold timerTickStep
  split
  · exact hexpire.trans (.of_eq rfl rfl)
  · exact .refl k

theorem timerTickLoop_releases {now : UInt32} {fuel : Nat} {timer : Ptr} {k k' : Kernel}
    (h : timerTickLoop now fuel timer k = .ok k') : Releases k k' := by
  induction fuel generalizing timer k with
  | zero => cases h
  | succ fuel ih =>
      unfold timerTickLoop at h
      split at h
      · cases h
        exact .refl _
      · exact (timerTickStep_releases now k timer).trans (ih h)

theorem tickTask_releases (k : Kernel) (index : Nat) : Releases k (tickTask k index) := by
  simp only [tickTask]
  split
  · next hsleeps =>
      have hslept : MeterFrame k (k.setTask index ((k.tasks index).withSleepTicks
          ((k.tasks index).sleepTicks - 1))) := setTask_meterFrame rfl rfl rfl
      split
      · refine (Releases.of_frame hslept).trans (.of_update (i := index) ?_ (Or.inr ?_) ?_)
        · exact taskBenchmarkReleaseLocked_counter _ index false
        · rw [hslept.2]
          exact hsleeps.1
        · exact setState_meter (taskBenchmarkReleaseLocked_meter _ index false) rfl rfl
      · exact .of_frame hslept
  · split
    · next hexpired =>
        have hended := (taskWaitEnd_releases (k := k) 0 (waitExpired_iff.mp hexpired).1).trans
          (.of_frame (countTimeout_meterFrame _ (k.tasks index).waitKind))
        split
        · exact hended.trans (.of_frame (restorePriorityChain_reprioritized _ _).meterFrame)
        · exact hended
    · exact .refl k

theorem tickTasks_releases {k k' : Kernel} (h : tickTasks k = .ok k') : Releases k k' := by
  obtain ⟨k₁, htimer, rfl⟩ := tickTasksBody_cases (tickTasks_body h)
  have hadvance : Releases k (advanceTicks k) := .of_eq rfl rfl
  exact hadvance.trans ((timerTickLoop_releases htimer).trans
    (Scan.foldl_rel Releases.refl Releases.trans tickTask_releases _ _))

end JustRT
