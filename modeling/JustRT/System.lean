import JustRT.Init

/-!
# The running system

One core runs the tasks, the tick, the interrupt handlers and the context
switch. The kernel masks interrupts inside its critical sections and
nowhere else, so a call of a task is a sequence of *segments*: each ends
where a critical section, or an SVC handler, ends, and an interrupt may
land between any two. A program counter per task says which segment of
which call comes next; `step` runs one segment, one handler or one
context switch.

PendSV has the lowest priority, so a pended switch runs before any
segment of a task and after every other handler: `threadRuns` is false
while it is pending. A handler that preempts the PendSV handler before
its critical section is one that ran before PendSV was entered, followed
by a second switch.
-/

namespace JustRT

/-! ## Calls -/

/-- A call that may block, with the arguments its later segments read. -/
inductive WaitCall where
  | semaphoreTake (semaphore : Ptr) (timeoutTicks : UInt32) (deadline : TaskWaitDeadline)
  | mutexLock (mutex : Ptr) (timeoutTicks : UInt32) (deadline : TaskWaitDeadline)
  | queueSend (queue : Ptr) (timeoutTicks : UInt32) (deadline : TaskWaitDeadline)
  | queueReceive (queue : Ptr) (timeoutTicks : UInt32) (deadline : TaskWaitDeadline)
  | taskNotifyTake (value : Ptr) (timeoutTicks : UInt32)
  | eventGroupWaitBits (group : Ptr) (bits : UInt32) (waitAll clearOnExit : Bool)
      (timeoutTicks : UInt32)
  | timerServiceClaim
deriving Repr, DecidableEq

def WaitCall.object (task : Nat) : WaitCall → WaitObject
  | .semaphoreTake s _ _ => .ptr s
  | .mutexLock m _ _ => .ptr m
  | .queueSend q _ _ => .ptr q
  | .queueReceive q _ _ => .ptr q
  | .taskNotifyTake _ _ => .task task
  | .eventGroupWaitBits g _ _ _ _ => .ptr g
  | .timerServiceClaim => .timerServiceWaitObject

def WaitCall.kind : WaitCall → TaskWaitKind
  | .semaphoreTake .. => .semaphore
  | .mutexLock .. => .mutex
  | .queueSend .. => .queueSend
  | .queueReceive .. => .queueReceive
  | .taskNotifyTake .. => .notification
  | .eventGroupWaitBits .. => .eventGroup
  | .timerServiceClaim => .timerService

/-- A call of task code, or of a timer callback, into the kernel.
`callbackReturn` is the return of a callback into `timer_service_body`. -/
inductive Call where
  | taskYield
  | taskDelay (ticks : UInt32)
  | taskDelayUntil (previousWake : Option UInt32) (periodTicks : UInt32)
  | taskSuspend (taskId : Nat)
  | taskResume (taskId : Nat)
  | boardLedToggle
  | semaphoreCreateBinaryStatic (semaphore : Ptr) (initiallyAvailable : UInt32)
  | semaphoreTake (semaphore : Ptr) (timeoutTicks : UInt32)
  | semaphoreGive (semaphore : Ptr)
  | mutexCreateRecursiveStatic (mutex : Ptr)
  | mutexLock (mutex : Ptr) (timeoutTicks : UInt32)
  | mutexUnlock (mutex : Ptr)
  | queueCreateStatic (queue : Ptr) (storage : Nat → UInt8) (capacity itemSize : UInt32)
  | queueSend (queue : Ptr) (timeoutTicks : UInt32)
  | queueReceive (queue : Ptr) (timeoutTicks : UInt32)
  | taskNotify (taskId : Nat) (value : UInt32)
  | taskNotifyTake (value : Ptr) (timeoutTicks : UInt32)
  | eventGroupCreateStatic (group : Ptr)
  | eventGroupSetBits (group : Ptr) (bits : UInt32)
  | eventGroupWaitBits (group : Ptr) (bits : UInt32) (waitAll clearOnExit : Bool)
      (timeoutTicks : UInt32)
  | timerCreateStatic (timer : Ptr)
  | timerSetCallback (timer callback argument : Ptr)
  | timerStart (timer : Ptr) (delayTicks : UInt32)
  | timerStartPeriodic (timer : Ptr) (periodTicks : UInt32)
  | timerRestart (timer : Ptr)
  | timerStop (timer : Ptr)
  | timerTakeExpirations (timer : Ptr)
  | timerDispatch (timer : Ptr)
  | callbackReturn

inductive IsrCall where
  | semaphoreGiveFromIsr (semaphore : Ptr)
  | queueSendFromIsr (queue : Ptr) (source : Nat → UInt8)
  | taskNotifyFromIsr (taskId : Nat) (value : UInt32)
  | eventGroupSetBitsFromIsr (group : Ptr) (bits : UInt32)

/-! ## Program counters -/

/-- Where a task is.

- `user`: in its own code, or in a timer callback;
- `idle`: in `idle_body`, which calls nothing;
- `entered`: in a call, ahead of its critical section; `reserved` is the
  local of the queue loops;
- `yielding`: behind the critical section that blocked it, ahead of
  `arch_yield()`;
- `resumed`: behind `arch_yield()`;
- `requestSwitch`: behind a critical section, ahead of
  `arch_request_switch()` and the return of `result`;
- `delaying`: in `JRT_TaskDelayUntil`, behind its tick read. -/
inductive Pc where
  | user
  | idle
  | entered (call : WaitCall) (reserved : Bool)
  | yielding (call : WaitCall)
  | resumed (call : WaitCall)
  | requestSwitch (result : UInt32)
  | delaying (nextWake now : UInt32)
deriving Repr, DecidableEq

/-- What a call stores through its pointers, or goes on to call. -/
inductive Output where
  | item (bytes : List UInt8)
  | value (word : UInt32)
  | callbacks (callback argument : Ptr) (times : UInt32)
deriving Repr, DecidableEq

/-- What one segment of a task does: the new kernel state, where the task goes
on, whether it pended a switch, and what the call returned. A segment is as
much of a call as may pass for one step, whatever interrupts come;
`JustRT.Refinement` proves that of the instructions. -/
structure Segment where
  kernel : Kernel
  pc : Pc
  switch : Bool := false
  result : Option UInt32 := none
  output : Option Output := none

def Segment.ret (k : Kernel) (result : UInt32) : Segment :=
  { kernel := k, pc := .user, result := some result }

/-- A critical section of a blocking call, as a segment. -/
def Segment.ofFlow (call : WaitCall) : Flow × Kernel → Segment
  | (.returns result, k) => .ret k result
  | (.yields, k) => { kernel := k, pc := .yielding call }

/-! ## Segments -/

/-- The first segment of a call. The calls of semaphores, mutexes and queues
take their deadline here, ahead of their critical section, so ticks may pass in
between. -/
def enter (k : Kernel) : Call → Exec Segment
  | .taskYield => .ok { Segment.ret k 0 with switch := true }
  | .taskDelay ticks => .ok { Segment.ret (sleepCurrent k ticks) 0 with switch := true }
  | .taskDelayUntil none _ => .ok (.ret k 0)
  | .taskDelayUntil (some previousWake) periodTicks =>
      let nextWake := previousWake + periodTicks
      .ok { kernel := k, pc := .delaying nextWake k.gKernelTicks, output := some (.value nextWake) }
  | .taskSuspend taskId =>
      let r := kernelTaskSuspend k taskId
      .ok { Segment.ret r.2 r.1.toWord with switch := true }
  | .taskResume taskId =>
      let r := kernelTaskResume k taskId
      .ok { Segment.ret r.2 r.1.toWord with switch := true }
  | .boardLedToggle => .ok { Segment.ret k 0 with switch := true }
  | .semaphoreCreateBinaryStatic s available =>
      .ok (.ret (jrtSemaphoreCreateBinaryStatic k s available) 0)
  | .semaphoreTake s timeout =>
      .ok { kernel := k, pc := .entered (.semaphoreTake s timeout (taskWaitDeadline k timeout)) false }
  | .semaphoreGive s => .ok (.ret (jrtSemaphoreGive k s false) 0)
  | .mutexCreateRecursiveStatic m => do return .ret (← jrtMutexCreateRecursiveStatic k m) 0
  | .mutexLock m timeout =>
      .ok { kernel := k, pc := .entered (.mutexLock m timeout (taskWaitDeadline k timeout)) false }
  | .mutexUnlock m =>
      let r := jrtMutexUnlock k m false
      .ok (.ret r.2 r.1)
  | .queueCreateStatic q storage capacity itemSize =>
      .ok (.ret (jrtQueueCreateStatic k q storage capacity itemSize) 0)
  | .queueSend q timeout =>
      .ok { kernel := k, pc := .entered (.queueSend q timeout (taskWaitDeadline k timeout)) false }
  | .queueReceive q timeout =>
      .ok { kernel := k, pc := .entered (.queueReceive q timeout (taskWaitDeadline k timeout)) false }
  | .taskNotify taskId value =>
      match taskNotifyCommon k taskId value false false with
      | none => .ok (.ret k 0)
      | some k => .ok { kernel := k, pc := .requestSwitch 1 }
  | .taskNotifyTake value timeout =>
      .ok { kernel := k, pc := .entered (.taskNotifyTake value timeout) false }
  | .eventGroupCreateStatic g => .ok (.ret (jrtEventGroupCreateStatic k g) 0)
  | .eventGroupSetBits g bits =>
      match eventGroupSetBitsCommon k g bits false false with
      | none => .ok (.ret k 0)
      | some (result, k) => .ok { kernel := k, pc := .requestSwitch result }
  | .eventGroupWaitBits g bits waitAll clearOnExit timeout =>
      .ok { kernel := k, pc := .entered (.eventGroupWaitBits g bits waitAll clearOnExit timeout) false }
  | .timerCreateStatic t => do return .ret (← jrtTimerCreateStatic k t) 0
  | .timerSetCallback t callback argument =>
      match jrtTimerSetCallback k t callback argument with
      | (true, k) => .ok { kernel := k, pc := .requestSwitch 0 }
      | (false, k) => .ok (.ret k 0)
  | .timerStart t delay => do return .ret (← jrtTimerStart k t delay) 0
  | .timerStartPeriodic t period => do return .ret (← jrtTimerStartPeriodic k t period) 0
  | .timerRestart t => do return .ret (← jrtTimerRestart k t) 0
  | .timerStop t => .ok (.ret (jrtTimerStop k t) 0)
  | .timerTakeExpirations t =>
      let r := jrtTimerTakeExpirations k t
      .ok (.ret r.2 r.1)
  | .timerDispatch t =>
      let r := jrtTimerDispatch k t
      .ok { Segment.ret r.2 0 with output := some (.callbacks r.1.1 r.1.2.1 r.1.2.2) }
  | .callbackReturn => .ok { kernel := k, pc := .entered .timerServiceClaim false }

/-- The critical section of a blocking call. -/
def proceedEntered (k : Kernel) (source : Nat → UInt8) (reserved : Bool) :
    WaitCall → Exec Segment
  | .semaphoreTake s timeout deadline =>
      .ok (.ofFlow (.semaphoreTake s timeout deadline) (jrtSemaphoreTake k s timeout deadline false))
  | .mutexLock m timeout deadline =>
      .ok (.ofFlow (.mutexLock m timeout deadline) (jrtMutexLock k m timeout deadline false))
  | .queueSend q timeout deadline =>
      .ok (.ofFlow (.queueSend q timeout deadline)
        (jrtQueueSend k q source timeout deadline reserved false))
  | .queueReceive q timeout deadline =>
      let r := jrtQueueReceive k q timeout deadline reserved false
      .ok { Segment.ofFlow (.queueReceive q timeout deadline) (r.1, r.2.2) with
        output := r.2.1.map .item }
  | .taskNotifyTake value timeout =>
      let r := jrtTaskNotifyTake k value timeout false
      .ok { Segment.ofFlow (.taskNotifyTake value timeout) (r.1, r.2.2) with
        output := r.2.1.map .value }
  | .eventGroupWaitBits g bits waitAll clearOnExit timeout =>
      .ok (.ofFlow (.eventGroupWaitBits g bits waitAll clearOnExit timeout)
        (jrtEventGroupWaitBits k g bits waitAll clearOnExit timeout false))
  | .timerServiceClaim => do
      match ← kernelTimerServiceClaim k with
      | (some timer, k) =>
          let t := k.timers timer
          return { kernel := k, pc := .user, output := some (.callbacks t.callback t.argument 1) }
      | (none, k) => return { kernel := k, pc := .yielding .timerServiceClaim }

/-- A blocking call behind its yield. `wait_result` is read from
`current_task`, which is the caller. -/
def proceedResumed (k : Kernel) : WaitCall → Segment
  | .semaphoreTake _ _ _ => .ret k (k.tasks k.currentTask).waitResult
  | .mutexLock _ _ _ => .ret k (k.tasks k.currentTask).waitResult
  | .queueSend q timeout deadline =>
      if (k.tasks k.currentTask).waitResult = 0 then .ret k 0
      else { kernel := k, pc := .entered (.queueSend q timeout deadline) true }
  | .queueReceive q timeout deadline =>
      if (k.tasks k.currentTask).waitResult = 0 then .ret k 0
      else { kernel := k, pc := .entered (.queueReceive q timeout deadline) true }
  | .taskNotifyTake _ _ =>
      let r := jrtTaskNotifyTakeResume k
      { Segment.ret r.2.2 r.1 with output := some (.value r.2.1) }
  | .eventGroupWaitBits g bits _ _ _ =>
      let r := jrtEventGroupWaitBitsResume k g bits
      .ret r.2 r.1
  | .timerServiceClaim => { kernel := k, pc := .entered .timerServiceClaim false }

/-- The next segment of a task inside a kernel call. `source` is what the
caller's item buffer holds meanwhile. -/
def proceed (k : Kernel) (source : Nat → UInt8) : Pc → Option (Exec Segment)
  | .user | .idle => none
  | .entered call reserved => some (proceedEntered k source reserved call)
  | .yielding call => some (.ok { kernel := k, pc := .resumed call, switch := true })
  | .resumed call => some (.ok (proceedResumed k call))
  | .requestSwitch result => some (.ok { Segment.ret k result with switch := true })
  | .delaying nextWake now =>
      if signedNonneg (now - nextWake) then some (.ok (.ret k 0))
      else some (.ok { Segment.ret (sleepCurrent k (nextWake - now)) 0 with switch := true })

/-- A call from an interrupt handler: the new kernel state, the result, and
whether it pended a switch. -/
def isrCall (k : Kernel) : IsrCall → Kernel × UInt32 × Bool
  | .semaphoreGiveFromIsr s =>
      let r := jrtSemaphoreGiveFromIsr k s true
      (r.2, 0, r.1)
  | .queueSendFromIsr q source =>
      let r := jrtQueueSendFromIsr k q source true
      (r.2, r.1, r.1 != 0)
  | .taskNotifyFromIsr taskId value =>
      match taskNotifyCommon k taskId value true true with
      | none => (k, 0, false)
      | some k => (k, 1, true)
  | .eventGroupSetBitsFromIsr g bits =>
      match eventGroupSetBitsCommon k g bits true true with
      | none => (k, 0, false)
      | some (result, k) => (k, result, true)

/-! ## Configurations and steps -/

/-- The system: the kernel, where every task is, and whether PendSV is pending.
What tasks compute for themselves is not in it: a task in its own code may make
any call, so a theorem about runs is one about every application. -/
structure Cfg where
  kernel : Kernel
  pc : Nat → Pc
  pending : Bool

/-- What happens next. The tick, a handler or a switch may come between any two
segments, and an action that the state does not allow is no step. `store` is a
write of the running task into its stack, `cycles` the passing of time on the
cycle counter. -/
inductive Action where
  | start
  | call (call : Call)
  | proceed (source : Nat → UInt8)
  | tick
  | isr (call : IsrCall)
  | pendsv (currentSp : Ptr)
  | store (address : Ptr) (word : UInt32)
  | cycles (now : UInt32)

structure Observation where
  result : Option UInt32 := none
  output : Option Output := none
deriving Repr, DecidableEq

def Cfg.current (c : Cfg) : Nat := c.kernel.gCurrentTaskIndex

/-- Task code, or kernel code a task called, runs next. -/
def Cfg.threadRuns (c : Cfg) : Bool := c.kernel.kernelStarted && !c.pending

/-- The running task may call `call` from where it is: only the timer
service returns from a callback. -/
def Cfg.mayCall (c : Cfg) (call : Call) : Bool :=
  c.pc c.current == .user
    && match call with
      | .callbackReturn => c.current == c.kernel.timerServiceTaskIndex
      | _ => true

/-- The configuration behind a segment of the running task. -/
def Cfg.after (c : Cfg) (s : Segment) : Cfg :=
  { kernel := s.kernel
    pc := fun i => if i = c.current then s.pc else c.pc i
    pending := c.pending || s.switch }

/-- Run a segment of the running task. A kernel that halts or hangs takes
no further step. -/
def Cfg.commit (c : Cfg) : Exec Segment → Option (Cfg × Observation)
  | .ok s => some (c.after s, { result := s.result, output := s.output })
  | .error _ => none

/-- One step of the system, if it is possible. A kernel that halts or hangs
takes none, so a theorem about runs says nothing of it; when that can come
about is what `JustRT.Progress` is for. -/
def step (c : Cfg) : Action → Option (Cfg × Observation)
  | .start =>
      if c.kernel.kernelStarted then none
      else
        match jrtKernelStart c.kernel with
        | .ok k => some ({ c with kernel := k }, {})
        | .error _ => none
  | .call call =>
      if c.threadRuns && c.mayCall call then c.commit (enter c.kernel call) else none
  | .proceed source =>
      if c.threadRuns then
        match proceed c.kernel source (c.pc c.current) with
        | some segment => c.commit segment
        | none => none
      else none
  | .tick =>
      if c.kernel.kernelStarted then
        match tickTasks c.kernel with
        | .ok k => some ({ c with kernel := k, pending := true }, {})
        | .error _ => none
      else none
  | .isr call =>
      if c.kernel.kernelStarted then
        let r := isrCall c.kernel call
        some ({ c with kernel := r.1, pending := c.pending || r.2.2 }, { result := some r.2.1 })
      else none
  | .pendsv currentSp =>
      if c.kernel.kernelStarted && c.pending then
        match pendsvSwitch c.kernel currentSp with
        | .ok (_, k) => some ({ c with kernel := k, pending := false }, {})
        | .error _ => none
      else none
  | .store address word =>
      some ({ c with kernel := { c.kernel with
        memory := fun a => if a = address then word else c.kernel.memory a } }, {})
  | .cycles now =>
      some ({ c with kernel := { c.kernel with
        benchmark := { c.kernel.benchmark with dwtCyccnt := now } } }, {})

/-! ## Runs -/

/-- One step of a run, with everything there is to say about it. What a theorem
counts, as releases or tokens, it reads off the transitions; a configuration
holds nothing but the system. -/
structure Transition where
  pre : Cfg
  action : Action
  observation : Observation
  post : Cfg

/-- A run from `c`: its transitions in order, and where it ends. It grows at
its end, so an induction on it goes along time. -/
inductive Run (c : Cfg) : List Transition → Cfg → Prop where
  | nil : Run c [] c
  | snoc {tr : List Transition} {c₁ c₂ : Cfg} {a : Action} {o : Observation} :
      Run c tr c₁ → step c₁ a = some (c₂, o) → Run c (tr ++ [⟨c₁, a, o, c₂⟩]) c₂

/-- Where task `i` is before it has run. The timer service starts blocked
on its wait object, so its first segment is its next claim. -/
def initialPc (k : Kernel) (i : Nat) : Pc :=
  if i = k.taskCount - 1 then .idle
  else if i = k.timerServiceTaskIndex then .resumed .timerServiceClaim
  else .user

/-- The configuration behind a `JRT_KernelInit` that left the kernel `k`. -/
def bootCfg (k : Kernel) : Cfg :=
  { kernel := k, pc := initialPc k, pending := false }

/-- `c` is the result of a successful `JRT_KernelInit`, whatever the kernel
variables and the objects held before. -/
def Boot (img : Image) (c : Cfg) : Prop :=
  ∃ k₀ config k, jrtKernelInit img k₀ (some config) = .ok (.ok, k) ∧ c = bootCfg k

/-- A run of the system from some successful initialization leads to `c`. -/
def Reachable (img : Image) (c : Cfg) : Prop :=
  ∃ c₀ tr, Boot img c₀ ∧ Run c₀ tr c

end JustRT
