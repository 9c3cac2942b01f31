import JustRT.Step

/-!
# The kernel behind `JRT_KernelInit`

`Booted` is everything later results use of a successful initialisation:
who waits, who is ready, which priorities, and that the objects of the
application are untouched. Every invariant of a run starts here, and
none of them opens the initialisation again. What it does to stacks and
to the memory protection unit is a matter of its own (`JustRT.Launch`,
`JustRT.Isolation`).

The sample system at the end is what witnesses run on: as many
application tasks as priorities are given for, on stacks that are apart.
-/

namespace JustRT

/-- The wait record of a task that waits for nothing. -/
def WaitView.fresh (state : TaskState) : WaitView :=
  { state
    waitObject := .null
    waitKind := .none
    waitStart := 0
    waitDeadline := 0
    waitForever := 0
    waitResult := 0
    eventWaitBits := 0
    eventWaitAll := 0
    eventClearOnExit := 0 }

/-- What initialisation leaves of the objects and lists. -/
@[simp] abbrev HeapFrame (k k' : Kernel) : Prop :=
  k'.gKernelTicks = k.gKernelTicks ∧ k'.semaphores = k.semaphores ∧ k'.mutexes = k.mutexes
    ∧ k'.mutexList = k.mutexList ∧ k'.queues = k.queues ∧ k'.eventGroups = k.eventGroups
    ∧ k'.timers = k.timers ∧ k'.timerList = k.timerList

theorem HeapFrame.trans {k₁ k₂ k₃ : Kernel} (h₁ : HeapFrame k₁ k₂) (h₂ : HeapFrame k₂ k₃) :
    HeapFrame k₁ k₃ := by
  simp_all

/-- The kernel a successful `JRT_KernelInit` on `k₀` leaves: task 0 is running,
the timer service is blocked on its wait object, and every other task is ready.
The objects are those of `k₀`, since the initialization writes none of them. -/
structure Booted (k₀ k : Kernel) : Prop where
  app_pos : 0 < k.applicationTaskCount
  taskCount_eq : k.taskCount = k.applicationTaskCount + 2
  taskCount_lt : k.taskCount < uint32Max
  current : k.gCurrentTaskIndex = 0
  currentTask : k.currentTask = 0
  initialized : k.kernelInitialized = true
  started : k.kernelStarted = false
  service : k.timerServiceTaskIndex = k.applicationTaskCount
  view_app : ∀ i < k.applicationTaskCount,
    k.view i = .fresh (if i = 0 then .running else .ready)
  view_service : (k.view k.applicationTaskCount).On .timerServiceWaitObject .timerService
  service_forever : (k.view k.applicationTaskCount).waitForever = 1
  view_idle : k.view (k.applicationTaskCount + 1) = .fresh .ready
  prio_eq : ∀ i < k.taskCount, k.prio i = k.basePrio i
  heap : HeapFrame k₀ k

section Prepare

variable (img : Image)

theorem prepareRecord_spec (k : Kernel) (index : Nat) (bottom top entry argument : Ptr)
    (priority : Nat) (name : String) (flags : UInt32) (base : Ptr) (size : UInt32) :
    let k' := prepareRecord img k index bottom top entry argument priority name flags base size
    HeapFrame k k' ∧ k'.taskCount = k.taskCount
      ∧ k'.applicationTaskCount = k.applicationTaskCount
      ∧ k'.timerServiceTaskIndex = k.timerServiceTaskIndex
      ∧ k'.view = Function.update k.view index (.fresh (k.view index).state)
      ∧ k'.prio = Function.update k.prio index priority
      ∧ k'.basePrio = Function.update k.basePrio index priority := by
  refine ⟨by simp [prepareRecord], rfl, rfl, rfl, ?_, ?_, ?_⟩
  · exact setTask_view _ _ _
  · exact setTask_prio _ _ _
  · exact setTask_basePrio _ _ _

/-- The frame and the writes of a prepare function: the record at `index`
gets the wait `v` and the priority `priority`. -/
def Prepares (k k' : Kernel) (index : Nat) (v : WaitView) (priority : Nat) : Prop :=
  HeapFrame k k' ∧ k'.taskCount = k.taskCount
    ∧ k'.applicationTaskCount = k.applicationTaskCount
    ∧ k'.view = Function.update k.view index v
    ∧ k'.prio = Function.update k.prio index priority
    ∧ k'.basePrio = Function.update k.basePrio index priority

/-- A prepared record whose state is then written. -/
theorem prepareRecord_withState (k : Kernel) (index : Nat) (bottom top entry argument : Ptr)
    (priority : Nat) (name : String) (flags : UInt32) (base : Ptr) (size : UInt32)
    (state : TaskState) :
    let k' := prepareRecord img k index bottom top entry argument priority name flags base size
    Prepares k (k'.setTask index ((k'.tasks index).withState state)) index (.fresh state)
      priority := by
  intro k'
  obtain ⟨hheap, hn, happ, -, hview, hprio, hbase⟩ :=
    prepareRecord_spec img k index bottom top entry argument priority name flags base size
  have hstate : PrioFrame k' (k'.setTask index ((k'.tasks index).withState state)) :=
    setTask_prioFrame rfl rfl
  refine ⟨?_, hn, happ, ?_, hstate.1.trans hprio, hstate.2.trans hbase⟩
  · simpa using hheap
  · rw [setTask_view, waitView_withState]
    have hi : (k'.tasks index).waitView = .fresh (k.view index).state := by
      have := congrFun hview index
      rwa [Function.update_self] at this
    rw [hi, hview, Function.update_idem]
    rfl

theorem prepareTask_spec (k : Kernel) (index : Nat) (d : JrtTaskDefinition) :
    Prepares k (prepareTask img k index d) index (.fresh .ready) d.priority :=
  prepareRecord_withState img k index _ _ _ _ _ _ _ _ _ .ready

theorem prepareIdleTask_spec (k : Kernel) :
    Prepares k (prepareIdleTask img k) (k.taskCount - 1) (.fresh .ready) 0 :=
  prepareRecord_withState img k _ _ _ _ _ _ _ _ _ _ .ready

theorem prepareTimerServiceTask_spec (k : Kernel) (index : Nat) :
    ∃ v, (v.On .timerServiceWaitObject .timerService ∧ v.waitForever = 1)
      ∧ Prepares k (prepareTimerServiceTask img k index) index v img.jrtTimerServicePriority
      ∧ (prepareTimerServiceTask img k index).timerServiceTaskIndex = index := by
  suffices h : ∀ k₁, Prepares k k₁ index (.fresh (k.view index).state)
      img.jrtTimerServicePriority → k₁.timerServiceTaskIndex = index →
      ∃ v, (v.On .timerServiceWaitObject .timerService ∧ v.waitForever = 1)
        ∧ Prepares k
          (taskWaitBegin k₁ index .timerServiceWaitObject .timerService jrtWaitForever) index v
          img.jrtTimerServicePriority
        ∧ (taskWaitBegin k₁ index .timerServiceWaitObject .timerService
            jrtWaitForever).timerServiceTaskIndex = index by
    obtain ⟨hheap, hn, happ, hservice, hview, hprio, hbase⟩ :=
      prepareRecord_spec img { k with timerServiceTaskIndex := index } index
        (img.timerServiceTaskStorage + 32)
        (img.timerServiceTaskStorage + 32 + img.jrtTimerServiceStackWords * 4)
        img.timerServiceBody 0 img.jrtTimerServicePriority "timer-service" 0 0 0
    exact h _ ⟨hheap, hn, happ, hview, hprio, hbase⟩ hservice
  intro k₁ ⟨hheap, hn, happ, hview, hprio, hbase⟩ hservice
  refine ⟨((k₁.tasks index).waitBegun .timerServiceWaitObject .timerService
    (taskWaitDeadline k₁ jrtWaitForever)).waitView, ⟨⟨rfl, rfl, rfl⟩, rfl⟩,
    ⟨by simpa using hheap, by simpa using hn, by simpa using happ, ?_, ?_, ?_⟩,
    by simpa using hservice⟩
  · rw [taskWaitBegin, taskWaitBeginUntil_view, hview, Function.update_idem]
  · rw [(taskWaitBegin_prioFrame _ _ _ _ _).1]
    exact hprio
  · rw [(taskWaitBegin_prioFrame _ _ _ _ _).2]
    exact hbase

/-- The first loop of the set-up prepares every task of the table. -/
theorem foldl_prepareTask_spec (tasks : Nat → JrtTaskDefinition) (l : List Nat) (k : Kernel) :
    let k' := l.foldl (fun k index => prepareTask img k index (tasks index)) k
    HeapFrame k k' ∧ k'.taskCount = k.taskCount
      ∧ k'.applicationTaskCount = k.applicationTaskCount
      ∧ ∀ i, i ∈ l ∨ (k.view i = .fresh .ready ∧ k.prio i = k.basePrio i) →
          k'.view i = .fresh .ready ∧ k'.prio i = k'.basePrio i := by
  induction l generalizing k with
  | nil => simp
  | cons a l ih =>
      intro k'
      obtain ⟨hheap, hn, happ, hview, hprio, hbase⟩ := prepareTask_spec img k a (tasks a)
      obtain ⟨hheap', hn', happ', hrest⟩ := ih (prepareTask img k a (tasks a))
      refine ⟨hheap.trans hheap', hn'.trans hn, happ'.trans happ, fun i hi => hrest i ?_⟩
      by_cases hia : i = a
      · refine Or.inr ?_
        rw [hview, hprio, hbase, hia]
        simp
      · rcases hi with hi | hi
        · exact Or.inl ((List.mem_cons.mp hi).resolve_left hia)
        · refine Or.inr ?_
          rw [hview, hprio, hbase]
          simpa [Function.update_of_ne hia] using hi

/-- The set-up behind its prepare functions: the first task is marked
`RUNNING` and the control variables are written. -/
theorem booted_of_prepared {k k₁ k₂ k₃ k' : Kernel} {taskCount p : Nat} {v : WaitView}
    (hpos : 0 < taskCount) (hlt : taskCount + 2 < uint32Max)
    (hheap : HeapFrame k k₁) (hn : k₁.taskCount = taskCount + 2)
    (happ : k₁.applicationTaskCount = taskCount)
    (htasks : ∀ i < taskCount, k₁.view i = .fresh .ready ∧ k₁.prio i = k₁.basePrio i)
    (hv : v.On .timerServiceWaitObject .timerService ∧ v.waitForever = 1)
    (hservice : Prepares k₁ k₂ taskCount v p) (hindex : k₂.timerServiceTaskIndex = taskCount)
    (hidle : Prepares k₂ k₃ (k₂.taskCount - 1) (.fresh .ready) 0)
    (hindex' : k₃.timerServiceTaskIndex = k₂.timerServiceTaskIndex)
    (hk' : k'.taskCount = k₃.taskCount ∧ k'.applicationTaskCount = k₃.applicationTaskCount
      ∧ k'.timerServiceTaskIndex = k₃.timerServiceTaskIndex ∧ HeapFrame k₃ k' ∧ PrioFrame k₃ k'
      ∧ k'.view = Function.update k₃.view 0 ((k₃.view 0).withState .running))
    (hcontrol : k'.gCurrentTaskIndex = 0 ∧ k'.currentTask = 0 ∧ k'.kernelInitialized = true
      ∧ k'.kernelStarted = false) : Booted k k' := by
  obtain ⟨hheap₂, hn₂, happ₂, hview₂, hprio₂, hbase₂⟩ := hservice
  obtain ⟨hheap₃, hn₃, happ₃, hview₃, hprio₃, hbase₃⟩ := hidle
  obtain ⟨hnk, happk, hindexk, hheapk, hpriok, hviewk⟩ := hk'
  obtain ⟨hcur, htask, hinit, hstarted⟩ := hcontrol
  have happk' : k'.applicationTaskCount = taskCount := by rw [happk, happ₃, happ₂, happ]
  have hidleIndex : k₂.taskCount - 1 = taskCount + 1 := by omega
  rw [hidleIndex] at hview₃ hprio₃ hbase₃
  have hview : ∀ i, i ≠ 0 → k'.view i = Function.update (Function.update k₁.view taskCount v)
      (taskCount + 1) (.fresh .ready) i := fun i hi => by
    rw [hviewk, Function.update_of_ne hi, hview₃, hview₂]
  have hview0 : k₃.view 0 = k₁.view 0 := by
    rw [hview₃, hview₂, Function.update_of_ne (by omega), Function.update_of_ne (by omega)]
  refine ⟨by omega, by omega, by omega, hcur, htask, hinit, hstarted, by omega, ?_, ?_, ?_, ?_, ?_,
    ((hheap.trans hheap₂).trans hheap₃).trans hheapk⟩
  · intro i hi
    rw [happk'] at hi
    by_cases h0 : i = 0
    · subst h0
      rw [hviewk, Function.update_self, hview0, (htasks 0 hi).1, if_pos rfl]
      rfl
    · rw [hview i h0, Function.update_of_ne (by omega), Function.update_of_ne (by omega),
        (htasks i hi).1, if_neg h0]
  · rw [happk', hview _ (by omega), Function.update_of_ne (by omega), Function.update_self]
    exact hv.1
  · rw [happk', hview _ (by omega), Function.update_of_ne (by omega), Function.update_self]
    exact hv.2
  · rw [happk', hview _ (by omega), Function.update_self]
  · intro i hi
    rw [hpriok.1, hpriok.2, hprio₃, hbase₃, hprio₂, hbase₂]
    by_cases hidle : i = taskCount + 1
    · simp [hidle]
    · by_cases hservice : i = taskCount
      · simp [hservice]
      · simp only [Function.update_of_ne hidle, Function.update_of_ne hservice]
        exact (htasks i (by omega)).2

theorem kernelSetUp_booted {k k' : Kernel} {tasks : Nat → JrtTaskDefinition} {taskCount : Nat}
    (hpos : 0 < taskCount) (hlt : taskCount + 2 < uint32Max)
    (h : kernelSetUp img k tasks taskCount = .ok k') : Booted k k' := by
  simp only [kernelSetUp, exec_bind_eq_ok] at h
  obtain ⟨mpu, -, h⟩ := h
  cases h
  obtain ⟨hheap, hn, happ, htasks⟩ := foldl_prepareTask_spec img tasks (List.range taskCount)
    { k with
      applicationTaskCount := taskCount
      taskCount := taskCount + jrtInternalTaskCount
      benchmark := taskBenchmarkInit k.benchmark img.cycleCounterAvailable img.jrtCoreClockHz
        img.jrtTickRateHz (taskCount + jrtInternalTaskCount)
        (fun i => (tasks i).benchmarkPeriodTicks) taskCount }
  obtain ⟨v, hv, hservice, hindex⟩ := prepareTimerServiceTask_spec img _ taskCount
  refine booted_of_prepared hpos hlt hheap hn happ
    (fun i hi => htasks i (Or.inl (List.mem_range.mpr hi))) hv hservice hindex
    (prepareIdleTask_spec img _) rfl ⟨rfl, rfl, rfl, by simp, ?_, ?_⟩ ⟨rfl, rfl, rfl, rfl⟩
  · exact setTask_prioFrame rfl rfl
  · exact setTask_view _ _ _

end Prepare

/-- `JRT_KernelInit` answers OK only behind its validation and its set-up. -/
theorem jrtKernelInit_cases {img : Image} {k k' : Kernel} {config : JrtKernelConfig}
    (h : jrtKernelInit img k (some config) = .ok (.ok, k')) :
    ∃ tasks, config.tasks = some tasks ∧ 0 < config.taskCount
      ∧ config.taskCount ≤ img.jrtMaxApplicationTasks
      ∧ firstFailure config.taskCount (validateDefinition img tasks) = .ok
      ∧ firstFailure config.taskCount (validatePrivateRegion img tasks config.taskCount) = .ok
      ∧ kernelSetUp img k tasks config.taskCount = .ok k' := by
  obtain ⟨tasks, taskCount⟩ := config
  cases tasks with
  | none => cases h
  | some tasks =>
      simp only [jrtKernelInit] at h
      split at h
      · cases h
      · next hpos =>
          split at h
          · cases h
          · next hle =>
              split at h
              · cases h
              · split at h
                · next hstatus => exact absurd (Prod.mk.inj (Except.ok.inj h)).1 hstatus
                · next hdefinitions =>
                    split at h
                    · cases h
                    · next hregions =>
                        rw [exec_bind_eq_ok] at h
                        obtain ⟨k₁, hsetUp, h⟩ := h
                        obtain ⟨-, rfl⟩ := Prod.mk.inj (Except.ok.inj h)
                        exact ⟨tasks, rfl, Nat.pos_of_ne_zero hpos, Nat.not_lt.mp hle,
                          not_not.mp hdefinitions, not_not.mp hregions, hsetUp⟩

theorem jrtKernelInit_booted {img : Image} {k k' : Kernel} {config : JrtKernelConfig}
    (h : jrtKernelInit img k (some config) = .ok (.ok, k')) : Booted k k' := by
  obtain ⟨tasks, -, hpos, hle, -, -, hsetUp⟩ := jrtKernelInit_cases h
  have hmax := img.maxApplicationTasks_le
  refine kernelSetUp_booted img hpos ?_ hsetUp
  unfold uint32Max at hmax ⊢
  omega

/-! ## A sample image

The concrete system the closed statements of this development run: an
image with small stacks and no memory protection unit, and zero-initialised
memory. -/

def Image.sample : Image where
  jrtMaxApplicationTasks := 7
  jrtMaxTaskPriority := 31
  jrtTimerServicePriority := 1
  jrtIdleStackWords := 18
  jrtTimerServiceStackWords := 18
  jrtMinimumTaskStackWords := 17
  jrtCoreClockHz := 120000000
  jrtTickRateHz := 1000
  cycleCounterAvailable := false
  idleTaskStorage := 0x20410000
  timerServiceTaskStorage := 0x20411000
  idleBody := 0x00400100
  timerServiceBody := 0x00400200
  taskExitTrap := 0x00400300
  sections :=
    { unprivilegedFunctionsStart := 0, unprivilegedFunctionsEnd := 0
      unprivilegedSvcStart := 0, unprivilegedSvcEnd := 0
      unprivilegedRodataStart := 0, unprivilegedRodataEnd := 0
      unprivilegedTaskDataStart := 0, unprivilegedTaskDataEnd := 0
      taskPrivateDataStart := 0, taskPrivateDataEnd := 0 }
  maxApplicationTasks_pos := by decide
  maxApplicationTasks_le := by decide
  timerServicePriority_pos := by decide
  timerServicePriority_le := by decide
  tickRateHz_pos := by decide

def Task.zero : Task :=
  { stackBottom := 0, stackTop := 0, sp := 0, state := .ready, sleepTicks := 0, runCount := 0
    minimumSp := 0, highWaterWords := 0, entry := 0, argument := 0, priority := 0
    basePriority := 0, name := "", flags := 0, privateDataBase := 0, privateDataSize := 0
    waitObject := .null, waitKind := .none, waitStart := 0, waitDeadline := 0, waitForever := 0
    waitResult := 0, notificationValue := 0, eventWaitBits := 0, eventWaitAll := 0
    eventClearOnExit := 0 }

def Diagnostics.zero : Diagnostics :=
  { gContextSwitches := 0, gReadyScanDepthMax := 0, gSchedPass1ItersTotal := 0
    gSchedPass2ItersTotal := 0, gSchedPass2ItersMax := 0, gWaitTimeoutSemaphore := 0
    gWaitTimeoutQueueSend := 0, gWaitTimeoutQueueReceive := 0, gWaitTimeoutMutex := 0
    gStackFault := 0, gStackFaultTask := 0, gStackFaultSp := 0, gStackHighWaterWords := 0
    gStackHighWaterTask := 0, gKernelInvariantActive := false, gKernelInvariantCode := .none
    gKernelInvariantTask := 0, gKernelInvariantObject := .null, gKernelInvariantAux := 0
    gKernelInvariantTick := 0
    gSyncMisuse := ⟨0, 0, 0, 0, 0, 0, 0, 0, 0⟩
    gIsrQueueSendAttempted := 0, gIsrQueueSendAccepted := 0, gIsrQueueSendDropped := 0
    gIsrQueueCountHighWater := 0 }

/-- Zero-initialised kernel variables and objects, at tick `ticks`. -/
def Kernel.zero (ticks : UInt32) : Kernel :=
  { tasks := fun _ => .zero, taskCount := 0, applicationTaskCount := 0, gCurrentTaskIndex := 0
    currentTask := 0, kernelInitialized := false, kernelStarted := false
    timerServiceTaskIndex := 0, gKernelTicks := ticks
    semaphores := fun _ => ⟨0⟩
    mutexes := fun _ => ⟨0, 0, 0, 0⟩
    mutexList := 0
    queues := fun _ => ⟨fun _ => 0, 0, 0, 0, 0, 0, 0, 0⟩
    eventGroups := fun _ => ⟨0⟩
    timers := fun _ => .created 0
    timerList := 0
    benchmark := ⟨fun _ => clearRecord, false, 0, 0, false, 0⟩
    mpu := ⟨false, 0, fun _ => (0, 0), 0, 0, 0, 0, 0⟩
    memory := fun _ => 0
    diag := .zero }

/-- Application tasks of the given priorities, each with 18 words of stack. -/
def JrtKernelConfig.sample (priorities : List Nat) : JrtKernelConfig where
  tasks := some fun i =>
    { entry := 0x00400000
      argument := 0
      stackBuffer := 0x20400020 + 0x1000 * UInt32.ofNat i
      stackWords := 18
      stackGuard := 0x20400000 + 0x1000 * UInt32.ofNat i
      priority := priorities.getD i 0
      name := "task"
      flags := 0
      privateDataBase := 0
      privateDataSize := 0
      benchmarkPeriodTicks := 0 }
  taskCount := priorities.length

/-- The function returned, and the test passes on its result. -/
def passes {ε α : Type} (x : Except ε α) (test : α → Bool) : Bool :=
  match x with
  | .ok result => test result
  | .error _ => false

theorem passes_eq_true {ε α : Type} {x : Except ε α} {test : α → Bool} :
    passes x test = true ↔ ∃ result, x = .ok result ∧ test result = true := by
  cases x with
  | ok result => simp [passes]
  | error halt => simp [passes]

def sampleBoot (priorities : List Nat) : Option Cfg :=
  match jrtKernelInit .sample (.zero 0) (some (.sample priorities)) with
  | .ok (.ok, k) => some (bootCfg k)
  | _ => none

/-- Start the sample system and take the actions. -/
def sampleRun (priorities : List Nat) (actions : List Action) :
    Option (List Transition × Cfg) :=
  (sampleBoot priorities).bind fun c => runActions c actions

theorem sampleBoot_boot {priorities : List Nat} {c : Cfg} (h : sampleBoot priorities = some c) :
    Boot .sample c := by
  unfold sampleBoot at h
  split at h
  · next hinit => cases h; exact ⟨_, _, _, hinit, rfl⟩
  · cases h

theorem sampleRun_run {priorities : List Nat} {actions : List Action} {tr : List Transition}
    {c : Cfg} (h : sampleRun priorities actions = some (tr, c)) :
    ∃ c₀, sampleBoot priorities = some c₀ ∧ Run c₀ tr c := by
  obtain ⟨c₀, hboot, hrun⟩ := Option.bind_eq_some_iff.mp h
  exact ⟨c₀, hboot, runActions_run hrun⟩

theorem sampleRun_reachable {priorities : List Nat} {actions : List Action}
    {tr : List Transition} {c : Cfg} (h : sampleRun priorities actions = some (tr, c)) :
    Reachable .sample c := by
  obtain ⟨c₀, hboot, hrun⟩ := sampleRun_run h
  exact ⟨c₀, tr, sampleBoot_boot hboot, hrun⟩

/-- The stack pointer task `i` of the sample system is switched out with. -/
def sampleSp (i : Nat) : Ptr := 0x20400024 + 0x1000 * UInt32.ofNat i

end JustRT
