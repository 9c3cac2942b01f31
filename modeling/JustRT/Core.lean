import JustRT.Sections
import JustRT.Lib.Segments

/-!
# The core

The machine the code of `JustRT.Critical` runs on: tasks, nested interrupt
handlers and the context switch on one core, each step one instruction of
theirs. An interrupt is taken wherever interrupts are on, in thread mode and in
handlers alike; a supervisor call runs to its end, since `SVC` has the highest
priority; `PendSV` has the lowest and is taken in thread mode only. The
registers are those of the task the last `PendSV` returned to.
-/

namespace JustRT

open Interference

namespace Critical

/-! ## The remaining calls -/

def jrtSemaphoreCreateBinaryStatic (semaphore : Ptr) (initiallyAvailable : UInt32) :
    Code Unit := do
  let saved ← criticalEnter
  modifyKernel fun k => JustRT.jrtSemaphoreCreateBinaryStatic k semaphore initiallyAvailable
  criticalExit saved

def jrtMutexCreateRecursiveStatic (mutex : Ptr) : Code Unit := do
  let saved ← criticalEnter
  attemptKernel fun k => do
    let k ← JustRT.jrtMutexCreateRecursiveStatic k mutex
    return ((), k)
  criticalExit saved

def jrtQueueCreateStatic (queue : Ptr) (storage : Nat → UInt8) (capacity itemSize : UInt32) :
    Code Unit := do
  let saved ← criticalEnter
  modifyKernel fun k => JustRT.jrtQueueCreateStatic k queue storage capacity itemSize
  criticalExit saved

/-- `JRT_EventGroupCreateStatic`, one store with interrupts as they are. -/
def jrtEventGroupCreateStatic (group : Ptr) : Code Unit := do
  if group ≠ 0 then
    modifyKernel fun k => k.setEventGroup group { bits := 0 }
  else
    return ()

def jrtTimerCreateStatic (timer : Ptr) : Code Unit := do
  if timer = 0 then
    return ()
  else
    let saved ← criticalEnter
    attemptKernel fun k => do
      let k ← JustRT.jrtTimerCreateStatic k timer
      return ((), k)
    criticalExit saved

/-- `JRT_TimerDispatch` ahead of its loop: the callback, its argument, and how
often it is called. -/
def timerDispatchTake (timer : Ptr) : Code (Ptr × Ptr × UInt32) := do
  if timer = 0 then
    return (0, 0, 0)
  else
    let saved ← criticalEnter
    let k ← readKernel
    let t := k.timers timer
    modifyKernel fun k =>
      if t.callback ≠ 0 then k.setTimer timer ((k.timers timer).withExpirations 0) else k
    criticalExit saved
    if t.callback = 0 then
      return (0, 0, 0)
    else
      return (t.callback, t.argument, t.expirations)

theorem jrtTimerDispatch_eq (timer : Ptr) :
    jrtTimerDispatch timer = timerDispatchTake timer >>= fun r =>
      dispatchLoop r.1 r.2.1 r.2.2.toNat := by
  unfold jrtTimerDispatch timerDispatchTake
  by_cases htimer : timer = 0
  · rw [if_pos htimer, if_pos htimer]
    rfl
  · rw [if_neg htimer, if_neg htimer]
    simp only [Prog.andThen_assoc]
    congr 1; funext saved
    congr 1; funext k
    congr 1; funext _
    congr 1; funext _
    by_cases hcallback : (k.timers timer).callback = 0
    · rw [if_pos hcallback, if_pos hcallback]
      rfl
    · rw [if_neg hcallback, if_neg hcallback]
      rfl

/-- `timer_service_body` up to its next callback, with `fuel` turns left. -/
def timerServiceBody : Nat → Code (Ptr × Ptr)
  | 0 => .halt .hang
  | fuel + 1 => do
      match ← kernelTimerServiceClaim with
      | some r => return r
      | none => timerServiceBody fuel

end Critical

open Critical

/-! ## Calls and handlers -/

/-- What a task sees of its calls. -/
inductive Event where
  | call (call : Call)
  | output (output : Output)
  | result (result : UInt32)

/-- What a call gives back: its result, if it returns, and what it stored, or
goes on to call. -/
structure Return where
  result : Option UInt32
  output : Option Output

def Return.events (r : Return) : List Event :=
  r.output.toList.map .output ++ r.result.toList.map .result

/-- The code of a call with arguments in memory at `source`, and with `fuel`
turns of its loops; there is none for the supervisor calls. -/
def Call.code (source : Nat → UInt8) (fuel : Nat) : Call → Option (Code Return)
  | .taskYield | .taskDelay _ | .taskSuspend _ | .taskResume _ | .boardLedToggle => none
  | .taskDelayUntil previousWake periodTicks => some do
      let wake ← Critical.jrtTaskDelayUntil previousWake periodTicks
      return ⟨some 0, wake.map .value⟩
  | .semaphoreCreateBinaryStatic semaphore available => some do
      Critical.jrtSemaphoreCreateBinaryStatic semaphore available
      return ⟨some 0, none⟩
  | .semaphoreTake semaphore timeoutTicks => some do
      let r ← Critical.jrtSemaphoreTake semaphore timeoutTicks false
      return ⟨some r, none⟩
  | .semaphoreGive semaphore => some do
      Critical.jrtSemaphoreGive semaphore false
      return ⟨some 0, none⟩
  | .mutexCreateRecursiveStatic mutex => some do
      Critical.jrtMutexCreateRecursiveStatic mutex
      return ⟨some 0, none⟩
  | .mutexLock mutex timeoutTicks => some do
      let r ← Critical.jrtMutexLock mutex timeoutTicks false
      return ⟨some r, none⟩
  | .mutexUnlock mutex => some do
      let r ← Critical.jrtMutexUnlock mutex false
      return ⟨some r, none⟩
  | .queueCreateStatic queue storage capacity itemSize => some do
      Critical.jrtQueueCreateStatic queue storage capacity itemSize
      return ⟨some 0, none⟩
  | .queueSend queue timeoutTicks => some do
      let r ← Critical.jrtQueueSend queue source timeoutTicks false fuel
      return ⟨some r, none⟩
  | .queueReceive queue timeoutTicks => some do
      let r ← Critical.jrtQueueReceive queue timeoutTicks false fuel
      return ⟨some r.1, r.2.map .item⟩
  | .taskNotify taskId value => some do
      let r ← Critical.jrtTaskNotify taskId value false
      return ⟨some r, none⟩
  | .taskNotifyTake value timeoutTicks => some do
      let r ← Critical.jrtTaskNotifyTake value timeoutTicks false
      return ⟨some r.1, r.2.map .value⟩
  | .eventGroupCreateStatic group => some do
      Critical.jrtEventGroupCreateStatic group
      return ⟨some 0, none⟩
  | .eventGroupSetBits group bits => some do
      let r ← Critical.jrtEventGroupSetBits group bits false
      return ⟨some r, none⟩
  | .eventGroupWaitBits group bits waitAll clearOnExit timeoutTicks => some do
      let r ← Critical.jrtEventGroupWaitBits group bits waitAll clearOnExit timeoutTicks false
      return ⟨some r, none⟩
  | .timerCreateStatic timer => some do
      Critical.jrtTimerCreateStatic timer
      return ⟨some 0, none⟩
  | .timerSetCallback timer callback argument => some do
      Critical.jrtTimerSetCallback timer callback argument
      return ⟨some 0, none⟩
  | .timerStart timer delayTicks => some do
      Critical.jrtTimerStart timer delayTicks
      return ⟨some 0, none⟩
  | .timerStartPeriodic timer periodTicks => some do
      Critical.jrtTimerStartPeriodic timer periodTicks
      return ⟨some 0, none⟩
  | .timerRestart timer => some do
      Critical.jrtTimerRestart timer
      return ⟨some 0, none⟩
  | .timerStop timer => some do
      Critical.jrtTimerStop timer
      return ⟨some 0, none⟩
  | .timerTakeExpirations timer => some do
      let r ← Critical.jrtTimerTakeExpirations timer
      return ⟨some r, none⟩
  | .timerDispatch timer => some do
      let r ← timerDispatchTake timer
      return ⟨some 0, some (.callbacks r.1 r.2.1 r.2.2)⟩
  | .callbackReturn => some do
      let r ← timerServiceBody fuel
      return ⟨none, some (.callbacks r.1 r.2 1)⟩

/-- What interrupts the core: the tick, a handler that makes a call, or, behind
all others, the context switch. -/
inductive Exception where
  | sysTick
  | irq (call : IsrCall)
  | pendsv (currentSp : Ptr)

def Exception.code : Exception → Code Unit
  | .sysTick => do
      Critical.tickTasks
      archRequestSwitch
  | .irq (.semaphoreGiveFromIsr semaphore) => Critical.jrtSemaphoreGiveFromIsr semaphore true
  | .irq (.queueSendFromIsr queue source) =>
      forEffect (Critical.jrtQueueSendFromIsr queue source true)
  | .irq (.taskNotifyFromIsr taskId value) =>
      forEffect (Critical.jrtTaskNotifyFromIsr taskId value true)
  | .irq (.eventGroupSetBitsFromIsr group bits) =>
      forEffect (Critical.jrtEventGroupSetBitsFromIsr group bits true)
  | .pendsv currentSp => forEffect (Critical.pendsvSwitch currentSp)

def Exception.isSwitch : Exception → Bool
  | .pendsv _ => true
  | _ => false

/-! ## Supervisor calls -/

structure SvcCounters where
  gSvcInvalidService : UInt32
  gSvcInvalidContext : UInt32

/-- `svc_dispatch`: what is in the first word of the stacked frame behind it,
`r0` having been there, and the counters. -/
def svcDispatch (svcNumber : UInt8) (excReturn r0 : UInt32) (counters : SvcCounters) :
    Code (UInt32 × SvcCounters) := do
  if excReturn &&& 8 = 0 ∨ excReturn &&& 4 = 0 then
    return (JrtStatus.invalidContext.toWord,
      { counters with gSvcInvalidContext := counters.gSvcInvalidContext + 1 })
  else if svcNumber = 1 then
    archRequestSwitch
    return (r0, counters)
  else if svcNumber = 2 then
    Critical.sleepCurrent r0
    archRequestSwitch
    return (r0, counters)
  else if svcNumber = 3 then
    -- `board_led_toggle()` writes none of what is shared
    archRequestSwitch
    return (r0, counters)
  else if svcNumber = 4 then
    let status ← Critical.kernelTaskSuspend r0.toNat
    archRequestSwitch
    return (status.toWord, counters)
  else if svcNumber = 5 then
    let status ← Critical.kernelTaskResume r0.toNat
    archRequestSwitch
    return (status.toWord, counters)
  else
    return (r0, { counters with gSvcInvalidService := counters.gSvcInvalidService + 1 })

/-- Run a handler that nothing interrupts to its end: its result, whether it
has requested a switch, and what it leaves. -/
def runHandler {α : Type} : Code α → Mask → Shared → Option (α × Bool × Mask × Shared)
  | .done a, m, s => some (a, false, m, s)
  | .halt _, _, _ => none
  | .update f next, m, s => runHandler (next s) m (f s)
  | .setMask f next, m, s => runHandler (next m) (f m) s
  | .leave .archRequestSwitch next, m, s =>
      (runHandler next m s).map fun r => (r.1, true, r.2.2)
  | .leave _ _, _, _ => none

/-- The call the stub of a service makes, and what it returns of the first word
of the frame. -/
def svcStub (svcNumber : UInt8) (r0 : UInt32) : Option (Call × (UInt32 → UInt32)) :=
  if svcNumber = 1 then some (.taskYield, fun _ => 0)
  else if svcNumber = 2 then some (.taskDelay r0, fun _ => 0)
  else if svcNumber = 3 then some (.boardLedToggle, fun _ => 0)
  else if svcNumber = 4 then some (.taskSuspend r0.toNat, id)
  else if svcNumber = 5 then some (.taskResume r0.toNat, id)
  else none

/-- `EXC_RETURN` for a task: thread mode, on the process stack. -/
def taskExcReturn : UInt32 := 0xFFFFFFFD

/-! ## The machine -/

structure Handler where
  exception : Exception
  code : Code Unit

/-- The core. `threads` is what is left of the call a task is in, `handlers`
the active handlers, the running one first; `running` is the task whose
registers the core has, and `log` what each task has seen of its calls. -/
structure Core where
  shared : Shared
  mask : Mask
  threads : Nat → Option (Code Return)
  handlers : List Handler
  pending : Bool
  running : Nat
  svc : SvcCounters
  log : Nat → List Event

inductive CoreAction where
  | call (call : Call) (source : Nat → UInt8) (fuel : Nat)
  | svc (svcNumber : UInt8) (r0 : UInt32)
  | thread
  | exception (exception : Exception)
  | handler
  | store (address : Ptr) (word : UInt32)
  | cycles (now : UInt32)

namespace Core

/-- Task code runs next if interrupts are on. -/
def threadMode (c : Core) : Bool := c.handlers.isEmpty && !c.pending

/-- The running task is in its own code. -/
def inUser (c : Core) : Bool :=
  !c.mask.primask && c.threadMode && (c.threads c.running).isNone
    && c.running + 1 != c.shared.kernel.taskCount

/-- The running task may call `call`: only the timer service returns from a
callback. -/
def mayCall (c : Core) (call : Call) : Bool :=
  c.inUser
    && match call with
      | .callbackReturn => c.running == c.shared.kernel.timerServiceTaskIndex
      | _ => true

theorem inUser_iff {f : Core} : f.inUser = true ↔ f.mask.primask = false ∧ f.handlers = []
    ∧ f.pending = false ∧ f.threads f.running = none
    ∧ f.running + 1 ≠ f.shared.kernel.taskCount := by
  simp [Core.inUser, Core.threadMode, and_assoc]

theorem mayCall_iff {f : Core} {call : Call} : f.mayCall call = true ↔ f.inUser = true
    ∧ (call = .callbackReturn → f.running = f.shared.kernel.timerServiceTaskIndex) := by
  cases call <;> simp [Core.mayCall]

def resume (c : Core) (code : Option (Code Return)) (events : List Event) : Core :=
  { c with
    threads := fun i => if i = c.running then code else c.threads i
    log := fun i => if i = c.running then c.log i ++ events else c.log i }

@[simp] theorem resume_threads (c : Core) (code : Option (Code Return)) (events : List Event)
    (i : Nat) : (c.resume code events).threads i = if i = c.running then code else c.threads i :=
  rfl

@[simp] theorem resume_log (c : Core) (code : Option (Code Return)) (events : List Event)
    (i : Nat) :
    (c.resume code events).log i = if i = c.running then c.log i ++ events else c.log i := rfl

/-- Behind a change of the kernel by something else than kernel code. -/
def withKernel (c : Core) (kernel : Kernel) : Core :=
  { c with shared := { c.shared with kernel } }

/-- A supervisor call of the running task: the first word of its frame behind
it. -/
def trap (c : Core) (svcNumber : UInt8) (r0 : UInt32) : Option (UInt32 × Core) :=
  (runHandler (svcDispatch svcNumber taskExcReturn r0 c.svc) c.mask c.shared).map fun r =>
    (r.1.1, { c with
      svc := r.1.2
      pending := c.pending || r.2.1
      mask := r.2.2.1
      shared := r.2.2.2 })

def stepThread (c : Core) : Option Core :=
  match c.threads c.running with
  | none => none
  | some (.done r) => some (c.resume none r.events)
  | some (.leave .archYield next) => (c.trap 1 0).map fun r => r.2.resume (some next) []
  | some (.leave .archRequestSwitch next) => some { c.resume (some next) [] with pending := true }
  | some (.leave (.jrtTaskDelay ticks) next) =>
      (c.trap 2 ticks).map fun r => r.2.resume (some next) []
  | some code =>
      (code.advance c.mask c.shared).map fun r =>
        { c.resume (some r.1) [] with mask := r.2.1, shared := r.2.2 }

/-- The next instruction of the running handler. The end of `PendSV` goes back
to the task it has selected. -/
def stepHandler (c : Core) : Option Core :=
  match c.handlers with
  | [] => none
  | ⟨exception, .done _⟩ :: handlers =>
      some { c with
        handlers
        running :=
          match exception with
          | .pendsv _ => c.shared.kernel.gCurrentTaskIndex
          | _ => c.running }
  | ⟨exception, .leave .archRequestSwitch next⟩ :: handlers =>
      some { c with handlers := ⟨exception, next⟩ :: handlers, pending := true }
  | ⟨exception, code⟩ :: handlers =>
      (code.advance c.mask c.shared).map fun r =>
        { c with handlers := ⟨exception, r.1⟩ :: handlers, mask := r.2.1, shared := r.2.2 }

def accepts (c : Core) : Exception → Bool
  | .pendsv _ => !c.mask.primask && c.handlers.isEmpty && c.pending
  | _ => !c.mask.primask

/-- A handler begins. -/
def enter (c : Core) (exception : Exception) : Core :=
  { c with
    handlers := ⟨exception, exception.code⟩ :: c.handlers
    pending :=
      match exception with
      | .pendsv _ => false
      | _ => c.pending }

theorem accepts_iff {f : Core} {e : Exception} : f.accepts e = true ↔ f.mask.primask = false
    ∧ (e.isSwitch = true → f.handlers = [] ∧ f.pending = true) := by
  cases e with
  | sysTick => simp [Core.accepts, Exception.isSwitch]
  | irq call => simp [Core.accepts, Exception.isSwitch]
  | pendsv currentSp => simp [Core.accepts, Exception.isSwitch, and_assoc]

theorem enter_pending (f : Core) (e : Exception) :
    (f.enter e).pending = (!e.isSwitch && f.pending) := by
  cases e with
  | sysTick => rfl
  | irq call => rfl
  | pendsv currentSp => rfl

/-- One step of the core, if it is possible. -/
def step (c : Core) : CoreAction → Option Core
  | .call call source fuel =>
      if c.mayCall call then
        (call.code source fuel).map fun code => c.resume (some code) [.call call]
      else none
  | .svc svcNumber r0 =>
      if c.inUser then
        (c.trap svcNumber r0).map fun r =>
          r.2.resume none (match svcStub svcNumber r0 with
            | some stub => [.call stub.1, .result (stub.2 r.1)]
            | none => [])
      else none
  | .thread =>
      if c.handlers.isEmpty && (c.mask.primask || !c.pending) then c.stepThread else none
  | .exception exception => if c.accepts exception then some (c.enter exception) else none
  | .handler => c.stepHandler
  | .store address word =>
      if c.mask.primask then none
      else some (c.withKernel { c.shared.kernel with
        memory := fun a => if a = address then word else c.shared.kernel.memory a })
  | .cycles now =>
      if c.mask.primask then none
      else some (c.withKernel { c.shared.kernel with
        benchmark := { c.shared.kernel.benchmark with dwtCyccnt := now } })

/-- A run of the core. -/
inductive Run (c : Core) : Core → Prop where
  | nil : Run c c
  | snoc {c₁ c₂ : Core} {a : CoreAction} : Run c c₁ → c₁.step a = some c₂ → Run c c₂

/-- The core where the first task starts: every task is in its own code, but the
timer service, which is at the head of `timer_service_body`. -/
def started (s : Shared) (x : Mask) (counters : SvcCounters) (fuel : Nat) : Core where
  shared := s
  mask := x
  threads := fun i =>
    if i = s.kernel.timerServiceTaskIndex then Call.code (fun _ => 0) fuel .callbackReturn
    else none
  handlers := []
  pending := false
  running := s.kernel.gCurrentTaskIndex
  svc := counters
  log := fun _ => []

end Core

end JustRT
