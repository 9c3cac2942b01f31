import JustRT.Grant
import JustRT.Sleep
import JustRT.Lib.Stopwatch

/-!
# Timeouts are exact

A deadline is three words: the tick a call took it at, that tick plus the
timeout, and a flag for "forever". It is taken when the call is entered,
or in its critical section, and compared with the wrapping tick counter in
two other places. Along a run a stopwatch per task counts the ticks since
its last deadline without wrapping; `Timed` relates the two, and from it
follows in which tick a wait times out.

The code subtracts the start from both ends of its comparison, which is
what makes it immune to the phase of the counter; `After.reached_iff` is
that argument in the abstract. A section that comes too late for its
deadline gives up without blocking, and the law says so too. Delays are
counted down instead, and have a stopwatch of their own.
-/

namespace JustRT

/-! ## Deadlines -/

/-- The deadline is over: the test `task_block_until_locked` and
`tick_tasks` make. -/
def TaskWaitDeadline.Expired (d : TaskWaitDeadline) (now : UInt32) : Prop :=
  d.forever = 0 ∧ now - d.start ≥ d.tick - d.start

instance (d : TaskWaitDeadline) (now : UInt32) : Decidable (d.Expired now) :=
  inferInstanceAs (Decidable (_ ∧ _))

def WaitView.deadline (v : WaitView) : TaskWaitDeadline :=
  { start := v.waitStart
    tick := v.waitDeadline
    forever := v.waitForever }

/-- The timeout of a call. The timer service waits without one. -/
def WaitCall.timeout : WaitCall → UInt32
  | .semaphoreTake _ timeout _ | .mutexLock _ timeout _ | .queueSend _ timeout _
  | .queueReceive _ timeout _ | .taskNotifyTake _ timeout
  | .eventGroupWaitBits _ _ _ _ timeout => timeout
  | .timerServiceClaim => jrtWaitForever

/-- The deadline a call took when it was entered. -/
def WaitCall.entryDeadline : WaitCall → Option TaskWaitDeadline
  | .semaphoreTake _ _ deadline | .mutexLock _ _ deadline | .queueSend _ _ deadline
  | .queueReceive _ _ deadline => some deadline
  | _ => none

/-- The deadline a call blocks with: the one it took, or a new one. -/
def WaitCall.deadline (k : Kernel) (call : WaitCall) : TaskWaitDeadline :=
  call.entryDeadline.getD (taskWaitDeadline k call.timeout)

/-- The critical section of the call finds nothing to take and may wait: it
blocks, unless its deadline is over. -/
def WaitCall.WouldBlock (k : Kernel) (reserved : Bool) : WaitCall → Prop
  | .semaphoreTake s timeout _ => (k.semaphores s).available = 0 ∧ timeout ≠ 0
  | .mutexLock m timeout _ =>
      (k.mutexes m).locked ≠ 0 ∧ (k.mutexes m).owner ≠ k.gCurrentTaskIndex ∧ timeout ≠ 0
  | .queueSend q timeout _ => queueSendAccepts (k.queues q) reserved = false ∧ timeout ≠ 0
  | .queueReceive q timeout _ => queueReceiveAccepts (k.queues q) reserved = false ∧ timeout ≠ 0
  | .taskNotifyTake value timeout =>
      value ≠ 0 ∧ (k.tasks k.currentTask).notificationValue = 0 ∧ timeout ≠ 0
  | .eventGroupWaitBits g bits waitAll _ timeout =>
      g ≠ 0 ∧ bits ≠ 0 ∧ eventCondition (k.eventGroups g).bits bits (boolWord waitAll) = false
        ∧ timeout ≠ 0
  | .timerServiceClaim => ∃ k', kernelTimerServiceClaim k = .ok (none, k')

/-- How the critical section of a blocking call ends: served, or too late,
or with its task blocked until its deadline. -/
inductive SectionExit (k : Kernel) (reserved : Bool) (call : WaitCall) (s : Segment) : Prop where
  | served : ¬call.WouldBlock k reserved → s.pc = .user → SectionExit k reserved call s
  | late : call.WouldBlock k reserved → (call.deadline k).Expired k.gKernelTicks →
      s.pc = .user → s.result = some 0 → s.kernel.view = k.view → SectionExit k reserved call s
  | blocked {v : WaitView} : call.WouldBlock k reserved →
      ¬(call.deadline k).Expired k.gKernelTicks → s.pc = .yielding call →
      s.kernel.view = Function.update k.view k.currentTask v →
      v.On (call.object k.currentTask) call.kind → v.deadline = call.deadline k →
      SectionExit k reserved call s

theorem taskWaitDeadline_not_expired {k : Kernel} {timeout : UInt32} (h : timeout ≠ 0) :
    ¬(taskWaitDeadline k timeout).Expired k.gKernelTicks := by
  rintro ⟨-, hreached⟩
  have hpos := ((Stopwatch.After.refl k.gKernelTicks).reached_iff (by decide)).mp hreached
  exact h (UInt32.toNat_inj.mp (Nat.le_zero.mp hpos))

theorem taskBlockUntilLocked_eq (k : Kernel) (object : WaitObject) (waitKind : TaskWaitKind)
    (deadline : TaskWaitDeadline) :
    taskBlockUntilLocked k object waitKind deadline
      = if deadline.Expired k.gKernelTicks then (.returns 0, k)
        else (.yields, taskWaitBeginUntil k k.currentTask object waitKind deadline) := rfl

theorem waitExpired_iff_deadline {k : Kernel} {index : Nat} :
    waitExpired k index = true
      ↔ (k.view index).state = .blocked ∧ (k.view index).deadline.Expired k.gKernelTicks :=
  waitExpired_iff

/-- The last step of the calls that took their deadline at their entry. -/
theorem taskBlockUntilLocked_exit {k k₁ : Kernel} {reserved : Bool} {call : WaitCall}
    {deadline : TaskWaitDeadline} (hblock : call.WouldBlock k reserved)
    (hdeadline : call.entryDeadline = some deadline) (hview : k₁.view = k.view)
    (hcur : k₁.currentTask = k.currentTask) (hticks : k₁.gKernelTicks = k.gKernelTicks) :
    SectionExit k reserved call (.ofFlow call
      (taskBlockUntilLocked k₁ (call.object k.currentTask) call.kind deadline)) := by
  have hd : call.deadline k = deadline := by rw [WaitCall.deadline, hdeadline, Option.getD_some]
  by_cases hexpired : deadline.Expired k.gKernelTicks
  · rw [taskBlockUntilLocked_eq, hticks, if_pos hexpired]
    exact .late hblock (hd ▸ hexpired) rfl rfl hview
  · rw [taskBlockUntilLocked_eq, hticks, if_neg hexpired, hcur]
    have hbegun := taskWaitBeginUntil_view k₁ k.currentTask (call.object k.currentTask) call.kind
      deadline
    rw [hview] at hbegun
    exact .blocked hblock (hd ▸ hexpired) rfl hbegun ⟨rfl, rfl, rfl⟩ hd.symm

/-- What a segment hands out says nothing about how it ends. -/
theorem SectionExit.withOutput {k : Kernel} {reserved : Bool} {call : WaitCall} {s : Segment}
    (h : SectionExit k reserved call s) (output : Option Output) :
    SectionExit k reserved call { s with output := output } := by
  cases h with
  | served hnot hpc => exact .served hnot hpc
  | late hblock hexpired hpc hresult hview => exact .late hblock hexpired hpc hresult hview
  | blocked hblock hexpired hpc hview hon hdeadline =>
      exact .blocked hblock hexpired hpc hview hon hdeadline

section Sections

variable {k : Kernel} {reserved : Bool} {timeout : UInt32} {deadline : TaskWaitDeadline}

theorem jrtSemaphoreTake_sectionExit {sem : Ptr} :
    SectionExit k reserved (.semaphoreTake sem timeout deadline)
      (.ofFlow (.semaphoreTake sem timeout deadline)
        (jrtSemaphoreTake k sem timeout deadline false)) := by
  simp only [jrtSemaphoreTake, Bool.false_eq_true, if_false]
  split
  · next havailable => exact .served (fun hb => havailable hb.1) rfl
  · next havailable =>
      split
      · next hzero => exact .served (fun hb => hb.2 hzero) rfl
      · next hpos => exact taskBlockUntilLocked_exit ⟨not_not.mp havailable, hpos⟩ rfl rfl rfl rfl

theorem jrtMutexLock_sectionExit {m : Ptr} :
    SectionExit k reserved (.mutexLock m timeout deadline)
      (.ofFlow (.mutexLock m timeout deadline) (jrtMutexLock k m timeout deadline false)) := by
  simp only [jrtMutexLock, Bool.false_eq_true, if_false]
  split
  · next hfree => exact .served (fun hb => hb.1 hfree) rfl
  · next hlocked =>
      split
      · next hown => exact .served (fun hb => hb.2.1 hown) rfl
      · next hother =>
          split
          · next hzero => exact .served (fun hb => hb.2.2 hzero) rfl
          · next hpos =>
              exact taskBlockUntilLocked_exit ⟨hlocked, hother, hpos⟩ rfl
                (taskInheritPriority_view _ _ _) (by simp) (by simp)

theorem jrtQueueSend_sectionExit {q : Ptr} {source : Nat → UInt8} :
    SectionExit k reserved (.queueSend q timeout deadline)
      (.ofFlow (.queueSend q timeout deadline)
        (jrtQueueSend k q source timeout deadline reserved false)) := by
  simp only [jrtQueueSend, Bool.false_eq_true, if_false]
  split
  · next haccepts => exact .served (fun hb => by simp [hb.1] at haccepts) rfl
  · next hfull =>
      split
      · next hzero => exact .served (fun hb => hb.2 hzero) rfl
      · next hpos =>
          exact taskBlockUntilLocked_exit ⟨Bool.not_eq_true _ ▸ hfull, hpos⟩ rfl rfl rfl rfl

theorem jrtQueueReceive_sectionExit {q : Ptr} :
    SectionExit k reserved (.queueReceive q timeout deadline)
      (.ofFlow (.queueReceive q timeout deadline)
        ((jrtQueueReceive k q timeout deadline reserved false).1,
          (jrtQueueReceive k q timeout deadline reserved false).2.2)) := by
  simp only [jrtQueueReceive, Bool.false_eq_true, if_false]
  split
  · next haccepts => exact .served (fun hb => by simp [hb.1] at haccepts) rfl
  · next hempty =>
      split
      · next hzero => exact .served (fun hb => hb.2 hzero) rfl
      · next hpos =>
          exact taskBlockUntilLocked_exit ⟨Bool.not_eq_true _ ▸ hempty, hpos⟩ rfl (Eq.refl k.view)
            rfl rfl

/-- A take blocks with a deadline of its own, which is not over yet. -/
theorem jrtTaskNotifyTake_sectionExit {value : UInt32} :
    SectionExit k reserved (.taskNotifyTake value timeout)
      (.ofFlow (.taskNotifyTake value timeout) ((jrtTaskNotifyTake k value timeout false).1,
        (jrtTaskNotifyTake k value timeout false).2.2)) := by
  simp only [jrtTaskNotifyTake]
  split
  · next hnull => exact .served (fun hb => hb.1 (hnull.resolve_right (by simp))) rfl
  · next hvalue =>
      split
      · next hsome => exact .served (fun hb => hsome hb.2.1) rfl
      · next hnone =>
          split
          · next hzero => exact .served (fun hb => hb.2.2 hzero) rfl
          · next hpos =>
              have hblock : (WaitCall.taskNotifyTake value timeout).WouldBlock k reserved :=
                ⟨fun hv => hvalue (Or.inl hv), not_not.mp hnone, hpos⟩
              exact .blocked hblock (taskWaitDeadline_not_expired hpos) rfl
                (taskWaitBeginUntil_view _ _ _ _ _) ⟨rfl, rfl, rfl⟩ rfl

theorem jrtEventGroupWaitBits_sectionExit {g : Ptr} {bits : UInt32} {waitAll clear : Bool} :
    SectionExit k reserved (.eventGroupWaitBits g bits waitAll clear timeout)
      (.ofFlow (.eventGroupWaitBits g bits waitAll clear timeout)
        (jrtEventGroupWaitBits k g bits waitAll clear timeout false)) := by
  simp only [jrtEventGroupWaitBits]
  split
  · next hnull =>
      refine .served (fun hb => ?_) rfl
      rcases hnull with hg | hbits | hisr
      · exact hb.1 hg
      · exact hb.2.1 hbits
      · cases hisr
  · next hvalid =>
      split
      · next hcondition => exact .served (fun hb => by simp [hb.2.2.1] at hcondition) rfl
      · next hcondition =>
          split
          · next hzero => exact .served (fun hb => hb.2.2.2 hzero) rfl
          · next hpos =>
              have hblock : (WaitCall.eventGroupWaitBits g bits waitAll clear
                  timeout).WouldBlock k reserved :=
                ⟨fun hg => hvalid (Or.inl hg), fun hbits => hvalid (Or.inr (Or.inl hbits)),
                  Bool.not_eq_true _ ▸ hcondition, hpos⟩
              have hbegun := taskWaitBeginUntil_view
                (k.setTask k.currentTask ((k.tasks k.currentTask).withEventWait bits
                  (boolWord waitAll) (boolWord clear)))
                k.currentTask (.ptr g) .eventGroup (taskWaitDeadline k timeout)
              rw [setTask_view, Function.update_idem, Kernel.setTask_tasks_self] at hbegun
              exact .blocked hblock (taskWaitDeadline_not_expired hpos) rfl hbegun
                ⟨rfl, rfl, rfl⟩ rfl

/-- The timer service blocks forever where it finds nothing to claim. -/
theorem timerServiceClaim_sectionExit {source : Nat → UInt8} {s : Segment}
    (h : proceedEntered k source reserved .timerServiceClaim = .ok s) :
    SectionExit k reserved .timerServiceClaim s := by
  simp only [proceedEntered, exec_bind_eq_ok] at h
  obtain ⟨⟨claimed, k₁⟩, hclaim, h⟩ := h
  cases claimed with
  | some timer =>
      obtain rfl := Except.ok.inj h
      refine .served (fun hb => ?_) rfl
      obtain ⟨k₂, hnone⟩ := hb
      rw [hclaim] at hnone
      cases hnone
  | none =>
      obtain rfl := Except.ok.inj h
      have hk₁ : k₁ = taskTimerServiceBlockLocked k := by
        simp only [kernelTimerServiceClaim, exec_bind_eq_ok] at hclaim
        obtain ⟨found, -, hclaim⟩ := hclaim
        cases found with
        | none => exact (Prod.mk.inj (Except.ok.inj hclaim)).2.symm
        | some timer => cases hclaim
      rw [hk₁]
      exact .blocked ⟨k₁, hclaim⟩ (taskWaitDeadline_not_expired (by decide)) rfl
        (taskWaitBeginUntil_view _ _ _ _ _) ⟨rfl, rfl, rfl⟩ rfl

theorem proceedEntered_exit {source : Nat → UInt8} {call : WaitCall} {s : Segment}
    (h : proceedEntered k source reserved call = .ok s) : SectionExit k reserved call s := by
  cases call with
  | semaphoreTake =>
      obtain rfl := Except.ok.inj h
      exact jrtSemaphoreTake_sectionExit
  | mutexLock =>
      obtain rfl := Except.ok.inj h
      exact jrtMutexLock_sectionExit
  | queueSend =>
      obtain rfl := Except.ok.inj h
      exact jrtQueueSend_sectionExit
  | queueReceive =>
      obtain rfl := Except.ok.inj h
      exact jrtQueueReceive_sectionExit.withOutput _
  | taskNotifyTake =>
      obtain rfl := Except.ok.inj h
      exact jrtTaskNotifyTake_sectionExit.withOutput _
  | eventGroupWaitBits =>
      obtain rfl := Except.ok.inj h
      exact jrtEventGroupWaitBits_sectionExit
  | timerServiceClaim => exact timerServiceClaim_sectionExit h

end Sections

/-! ## Stopwatches along a run -/

/-- The timeout of the deadline a call takes when it is entered. -/
def Call.takesDeadline : Call → Option UInt32
  | .semaphoreTake _ timeout | .mutexLock _ timeout | .queueSend _ timeout
  | .queueReceive _ timeout => some timeout
  | _ => none

/-- The timeout of the deadline the action takes for the running task. -/
def Action.takesDeadline (c : Cfg) : Action → Option UInt32
  | .call made => made.takesDeadline
  | .proceed _ =>
      match c.pc c.current with
      | .entered w _ => if w.entryDeadline.isNone then some w.timeout else none
      | _ => none
  | _ => none

/-- What the action is to a stopwatch it does not set. -/
def Action.passing : Action → Stopwatch.Event UInt32
  | .tick => .tick
  | _ => .other

def Action.isTick : Action → Bool
  | .tick => true
  | _ => false

def ticksIn (tr : List Transition) : Nat := tr.countP fun x => x.action.isTick

/-- A stopwatch an action does not set counts the ticks. -/
theorem Action.passing_step (a : Action) (limit : UInt32) (elapsed : Nat) :
    Stopwatch.step (some (limit, elapsed)) a.passing = some (limit, elapsed + a.isTick.toNat) := by
  cases a <;> rfl

/-- What a step is to the stopwatch of task `t`, which its own actions set
as `sets` says. -/
def Transition.event (sets : Cfg → Action → Option UInt32) (t : Nat) (x : Transition) :
    Stopwatch.Event UInt32 :=
  if x.pre.current = t then (sets x.pre x.action).elim x.action.passing .set
  else x.action.passing

/-- The timeout of the deadline task `t` took last, and the ticks since. -/
def deadlineOf (t : Nat) (tr : List Transition) : Option (UInt32 × Nat) :=
  Stopwatch.reading (tr.map (Transition.event Action.takesDeadline t))

/-- The ticks task `t` was last delayed by, and the ticks since. -/
def delayOf (t : Nat) (tr : List Transition) : Option (UInt32 × Nat) :=
  Stopwatch.reading (tr.map (Transition.event Action.delay t))

theorem deadlineOf_append (t : Nat) (tr : List Transition) (x : Transition) :
    deadlineOf t (tr ++ [x])
      = Stopwatch.step (deadlineOf t tr) (x.event Action.takesDeadline t) := by
  rw [deadlineOf, List.map_append]
  exact Stopwatch.reading_append _ _

theorem delayOf_append (t : Nat) (tr : List Transition) (x : Transition) :
    delayOf t (tr ++ [x]) = Stopwatch.step (delayOf t tr) (x.event Action.delay t) := by
  rw [delayOf, List.map_append]
  exact Stopwatch.reading_append _ _

/-- The step runs a critical section in which its task would block. -/
def Transition.WouldBlock (x : Transition) : Prop :=
  ∃ source call reserved, x.action = .proceed source
    ∧ x.pre.pc x.pre.current = .entered call reserved ∧ call.WouldBlock x.pre.kernel reserved

/-- Fewer than `2 ^ 32` ticks pass between the entry of a call with a finite
timeout and each critical section in which it would block. -/
def Timely (tr : List Transition) : Prop :=
  ∀ tr₁ x tr₂, tr = tr₁ ++ x :: tr₂ → x.WouldBlock → ∀ timeout elapsed,
    deadlineOf x.pre.current (tr₁ ++ [x]) = some (timeout, elapsed) →
      timeout ≠ jrtWaitForever → elapsed < 2 ^ 32

theorem Timely.init {tr : List Transition} {x : Transition} (h : Timely (tr ++ [x])) :
    Timely tr := by
  intro tr₁ y tr₂ heq
  refine h tr₁ y (tr₂ ++ [x]) ?_
  rw [heq, List.append_assoc, List.cons_append]

theorem timely_of_length_lt {tr : List Transition} (h : tr.length < 2 ^ 32) : Timely tr := by
  intro tr₁ x tr₂ heq _ timeout elapsed hshown _
  have hle := Stopwatch.elapsed_le_length hshown
  rw [heq] at h
  simp only [List.length_map, List.length_append, List.length_cons, List.length_nil] at hle h
  omega

/-- The deadline `d` was taken for the timeout `r.1`, `r.2` ticks ago. The
number of ticks is natural and does not wrap where the tick counter does. -/
structure Taken (now : UInt32) (r : UInt32 × Nat) (d : TaskWaitDeadline) : Prop where
  after : Stopwatch.After d.start now r.2
  tick : d.tick = d.start + r.1
  forever : d.forever = if r.1 = jrtWaitForever then 1 else 0

section Taken

variable {now : UInt32} {r : UInt32 × Nat} {d : TaskWaitDeadline} {k : Kernel}

theorem taken_taskWaitDeadline (k : Kernel) (timeout : UInt32) :
    Taken k.gKernelTicks (timeout, 0) (taskWaitDeadline k timeout) :=
  ⟨.refl _, rfl, rfl⟩

theorem Taken.passTick (h : Taken now r d) : Taken (now + 1) (r.1, r.2 + 1) d :=
  ⟨h.after.tick, h.tick, h.forever⟩

/-- The deadline is over exactly if its timeout is finite and has elapsed. -/
theorem Taken.expired_iff (h : Taken now r d) (hlt : r.1 ≠ jrtWaitForever → r.2 < 2 ^ 32) :
    d.Expired now ↔ r.1 ≠ jrtWaitForever ∧ r.1.toNat ≤ r.2 := by
  rw [TaskWaitDeadline.Expired, h.forever, h.tick]
  by_cases hforever : r.1 = jrtWaitForever
  · simp [hforever]
  · rw [if_neg hforever, h.after.reached_iff (hlt hforever)]
    simp [hforever]

end Taken

/-- What task `t` knows of its last deadline: the call it is in holds it, and a
wait whose timeout is finite has not reached it. The timer service waits
forever. `shown` is kept beside the run: the timeout, and the ticks since the
deadline was taken. -/
structure Timed (t : Nat) (c : Cfg) (shown : Option (UInt32 × Nat)) : Prop where
  held : ∀ call d, (c.pc t).waitCall = some call → call.entryDeadline = some d →
    ∃ r, shown = some r ∧ r.1 = call.timeout ∧ Taken c.kernel.gKernelTicks r d
  blocked : (c.kernel.view t).state = .blocked → (c.kernel.view t).waitKind ≠ .timerService →
    ∃ r, shown = some r ∧ Taken c.kernel.gKernelTicks r (c.kernel.view t).deadline
      ∧ (r.1 ≠ jrtWaitForever → r.2 < r.1.toNat)
  service : (c.kernel.view t).state = .blocked → (c.kernel.view t).waitKind = .timerService →
    (c.kernel.view t).waitForever ≠ 0

/-! ## One step -/

section Step

variable {c c' : Cfg} {t : Nat} {shown : Option (UInt32 × Nat)}

/-- Steps that leave the task where it is and begin no wait of it. -/
theorem Timed.of_others (h : Timed t c shown) (hpc : c'.pc t = c.pc t)
    (hticks : c'.kernel.gKernelTicks = c.kernel.gKernelTicks)
    (hview : (c'.kernel.view t).state = .blocked → c'.kernel.view t = c.kernel.view t) :
    Timed t c' shown := by
  refine ⟨?_, ?_, ?_⟩
  · rw [hpc, hticks]
    exact h.held
  · intro hb
    have hkept := hview hb
    rw [hkept] at hb ⊢
    rw [hticks]
    exact h.blocked hb
  · intro hb
    have hkept := hview hb
    rw [hkept] at hb ⊢
    exact h.service hb

/-- A state is written that blocks and unblocks nobody. -/
theorem view_eq_of_restated {v v' : WaitView} {state : TaskState} (hv : v' = v.withState state)
    (hblocked : state = .blocked ↔ v.state = .blocked) (hb : v'.state = .blocked) : v' = v := by
  subst hv
  have hold : v.state = .blocked := hblocked.mp hb
  have hnew : state = .blocked := hb
  rw [hnew, ← hold]
  rfl

/-- A call that takes a deadline when it is entered goes on with it. -/
theorem enter_deadline {k : Kernel} {made : Call} {s : Segment} (h : enter k made = .ok s)
    {call : WaitCall} {d : TaskWaitDeadline} (hcall : s.pc.waitCall = some call)
    (hd : call.entryDeadline = some d) :
    made.takesDeadline = some call.timeout ∧ d = taskWaitDeadline k call.timeout := by
  cases made with
  | semaphoreTake | mutexLock | queueSend | queueReceive =>
      obtain rfl := Except.ok.inj h
      obtain rfl := Option.some.inj hcall
      exact ⟨rfl, (Option.some.inj hd).symm⟩
  | taskNotifyTake | eventGroupWaitBits | callbackReturn =>
      obtain rfl := Except.ok.inj h
      obtain rfl := Option.some.inj hcall
      cases hd
  | taskDelayUntil previousWake =>
      cases previousWake <;> obtain rfl := Except.ok.inj h <;> cases hcall
  | mutexCreateRecursiveStatic | timerCreateStatic | timerStart | timerStartPeriodic
  | timerRestart =>
      simp only [enter, exec_bind_eq_ok] at h
      obtain ⟨k', -, h⟩ := h
      obtain rfl := Except.ok.inj h
      cases hcall
  | taskNotify | eventGroupSetBits | timerSetCallback =>
      simp only [enter] at h
      split at h <;> obtain rfl := Except.ok.inj h <;> cases hcall
  | _ =>
      obtain rfl := Except.ok.inj h
      cases hcall

/-- The deadline a critical section compares with, and the stopwatch behind
that section. -/
theorem Timed.deadline (h : Timed c.current c shown) {call : WaitCall} {reserved : Bool}
    (hpc : c.pc c.current = .entered call reserved) (source : Nat → UInt8) (o : Observation)
    (c' : Cfg) :
    ∃ r, Stopwatch.step shown
        (Transition.event Action.takesDeadline c.current ⟨c, .proceed source, o, c'⟩) = some r
      ∧ r.1 = call.timeout ∧ Taken c.kernel.gKernelTicks r (call.deadline c.kernel) := by
  have hevent : Transition.event Action.takesDeadline c.current ⟨c, .proceed source, o, c'⟩
      = if call.entryDeadline.isNone then .set call.timeout else .other := by
    simp only [Transition.event, if_true, Action.takesDeadline, hpc]
    split <;> rfl
  cases hd : call.entryDeadline with
  | some d =>
      obtain ⟨r, hshown, htimeout, htaken⟩ := h.held call d (by rw [hpc]; rfl) hd
      refine ⟨r, ?_, htimeout, ?_⟩
      · rw [hevent, hd]
        exact hshown
      · rw [WaitCall.deadline, hd]
        exact htaken
  | none =>
      refine ⟨(call.timeout, 0), ?_, rfl, ?_⟩
      · rw [hevent, hd]
        rfl
      · rw [WaitCall.deadline, hd]
        exact taken_taskWaitDeadline _ _

/-- A segment of another task leaves the task's stopwatch alone. -/
theorem ThreadSegment.event_of_ne {a : Action} {s : Segment} {o : Observation}
    {sets : Cfg → Action → Option UInt32} (hseg : ThreadSegment c a s) (ht : t ≠ c.current) :
    Transition.event sets t ⟨c, a, o, c'⟩ = .other := by
  rw [Transition.event, if_neg fun h => ht h.symm]
  cases hseg <;> rfl

/-- A task that is not blocked has to know the deadline of its call only. -/
theorem Timed.of_not_blocked (hnot : (c.kernel.view t).state ≠ .blocked)
    (hheld : ∀ call d, (c.pc t).waitCall = some call → call.entryDeadline = some d →
      ∃ r, shown = some r ∧ r.1 = call.timeout ∧ Taken c.kernel.gKernelTicks r d) :
    Timed t c shown :=
  ⟨hheld, fun hb => absurd hb hnot, fun hb => absurd hb hnot⟩

section Segment

variable {a : Action} {s : Segment} {o : Observation}

/-- Behind a segment that ends at no yield its task is not blocked. -/
theorem Sched.after_not_blocked (hs : Sched c) (hp : c.pending = false) (hseg : ThreadSegment c a s)
    (hyielding : ∀ w, s.pc ≠ .yielding w) (hresumed : ∀ w, s.pc ≠ .resumed w) :
    ((c.after s).kernel.view c.current).state ≠ .blocked := by
  intro hb
  have hlt : c.current < (c.after s).kernel.taskCount := by
    rw [show (c.after s).kernel.taskCount = c.kernel.taskCount from hseg.frame.1]
    exact hs.current_lt
  obtain ⟨w, hw | hw⟩ := (hs.after_segment hp hseg).blocked _ hlt hb
  · exact hyielding w ((Sched.after_pc_current s).symm.trans hw)
  · exact hresumed w ((Sched.after_pc_current s).symm.trans hw)

/-- A segment that ends inside no waiting call leaves nothing to show. -/
theorem Timed.of_no_call (hs : Sched c) (hp : c.pending = false) (hseg : ThreadSegment c a s)
    (hnone : s.pc.waitCall = none) : Timed c.current (c.after s) shown := by
  refine .of_not_blocked (hs.after_not_blocked hp hseg ?_ ?_) fun call d hcall => ?_
  · intro w hw
    rw [hw] at hnone
    cases hnone
  · intro w hw
    rw [hw] at hnone
    cases hnone
  · rw [Sched.after_pc_current, hnone] at hcall
    cases hcall

/-- The entry of a call takes the deadline the call goes on with. -/
theorem Timed.after_call {made : Call} (hs : Sched c) (hp : c.pending = false)
    (hseg : ThreadSegment c (.call made) s) (he : enter c.kernel made = .ok s) :
    Timed c.current (c.after s) (Stopwatch.step shown
      (Transition.event Action.takesDeadline c.current ⟨c, .call made, o, c.after s⟩)) := by
  refine .of_not_blocked (hs.after_not_blocked hp hseg (fun w => (enter_pc he w).1)
    fun w => (enter_pc he w).2.1) fun call d hcall hd => ?_
  rw [Sched.after_pc_current] at hcall
  obtain ⟨htakes, rfl⟩ := enter_deadline he hcall hd
  refine ⟨(call.timeout, 0), ?_, rfl, ?_⟩
  · simp only [Transition.event, if_true, Action.takesDeadline, htakes]
    rfl
  · have hticks : (c.after s).kernel.gKernelTicks = c.kernel.gKernelTicks :=
      hseg.frame.2.2.2.2.2.2.2.1
    rw [hticks]
    exact taken_taskWaitDeadline _ _

/-- A critical section: served, too late, or with the stopwatch short of the
timeout the task blocks for. -/
theorem Timed.after_entered (h : Timed c.current c shown) (hs : Sched c) (hp : c.pending = false)
    {call : WaitCall} {reserved : Bool} {source : Nat → UInt8}
    (hpc : c.pc c.current = .entered call reserved)
    (he : proceedEntered c.kernel source reserved call = .ok s)
    (hlt : (⟨c, .proceed source, o, c.after s⟩ : Transition).WouldBlock → ∀ r,
      Stopwatch.step shown (Transition.event Action.takesDeadline c.current
          ⟨c, .proceed source, o, c.after s⟩) = some r →
        r.1 ≠ jrtWaitForever → r.2 < 2 ^ 32) :
    Timed c.current (c.after s) (Stopwatch.step shown
      (Transition.event Action.takesDeadline c.current ⟨c, .proceed source, o, c.after s⟩)) := by
  have hseg : ThreadSegment c (.proceed source) s := .entered hpc he
  obtain ⟨r, hshown, htimeout, htaken⟩ := h.deadline hpc source o (c.after s)
  cases proceedEntered_exit he with
  | served _ hu => exact .of_no_call hs hp hseg (by rw [hu]; rfl)
  | late _ _ hu => exact .of_no_call hs hp hseg (by rw [hu]; rfl)
  | @blocked v hblock hexpired hyield hview hon hd =>
      have hlt' := hlt ⟨source, call, reserved, rfl, hpc, hblock⟩ r hshown
      have hticks : (c.after s).kernel.gKernelTicks = c.kernel.gKernelTicks :=
        hseg.frame.2.2.2.2.2.2.2.1
      rw [hs.currentTask] at hview hon
      have hself : (c.after s).kernel.view c.current = v := by
        show s.kernel.view c.current = v
        rw [hview, Function.update_self]
      rw [← hticks] at htaken hexpired
      refine ⟨fun call' d hcall' hd' => ?_, fun _ _ => ?_, fun _ hkind => ?_⟩
      · rw [Sched.after_pc_current, hyield] at hcall'
        obtain rfl := Option.some.inj hcall'
        rw [WaitCall.deadline, hd', Option.getD_some] at htaken
        exact ⟨r, hshown, htimeout, htaken⟩
      · refine ⟨r, hshown, ?_, fun hforever => ?_⟩
        · rw [hself, hd]
          exact htaken
        · by_contra hge
          exact hexpired ((htaken.expired_iff hlt').mpr ⟨hforever, Nat.not_lt.mp hge⟩)
      · rw [hself] at hkind ⊢
        rw [hon.2.2] at hkind
        have hcall : call = .timerServiceClaim := by
          cases call <;> first | rfl | cases hkind
        subst hcall
        have hforever : v.waitForever = 1 := congrArg TaskWaitDeadline.forever hd
        rw [hforever]
        decide

/-- A task that comes back from its yield keeps the deadline of its call. -/
theorem Timed.after_resumed (h : Timed c.current c shown) (hs : Sched c) (hp : c.pending = false)
    {call : WaitCall} (hpc : c.pc c.current = .resumed call)
    (hseg : ThreadSegment c a (proceedResumed c.kernel call)) :
    Timed c.current (c.after (proceedResumed c.kernel call)) shown := by
  obtain ⟨-, hyield, hresume⟩ := proceedResumed_view c.kernel call
  refine .of_not_blocked (hs.after_not_blocked hp hseg hyield hresume) fun call' d hcall' hd => ?_
  have hticks : (c.after (proceedResumed c.kernel call)).kernel.gKernelTicks
      = c.kernel.gKernelTicks := hseg.frame.2.2.2.2.2.2.2.1
  rw [Sched.after_pc_current] at hcall'
  rw [hticks]
  refine h.held call' d ?_ hd
  rw [hpc]
  cases hentered : (proceedResumed c.kernel call).pc with
  | entered w reserved =>
      rw [hentered] at hcall'
      rw [← hcall', proceedResumed_entered hentered]
      rfl
  | yielding w => exact absurd hentered (hyield w)
  | resumed w => exact absurd hentered (hresume w)
  | user | idle | requestSwitch | delaying =>
      rw [hentered] at hcall'
      cases hcall'

theorem Timed.after_segment (h : Timed c.current c shown) (hs : Sched c) (hp : c.pending = false)
    (hseg : ThreadSegment c a s)
    (hlt : (⟨c, a, o, c.after s⟩ : Transition).WouldBlock → ∀ r,
      Stopwatch.step shown
          (Transition.event Action.takesDeadline c.current ⟨c, a, o, c.after s⟩) = some r →
        r.1 ≠ jrtWaitForever → r.2 < 2 ^ 32) :
    Timed c.current (c.after s) (Stopwatch.step shown
      (Transition.event Action.takesDeadline c.current ⟨c, a, o, c.after s⟩)) := by
  -- Past its critical section a call sets no stopwatch.
  have hother : ∀ {source : Nat → UInt8} {call : WaitCall} {s' : Segment},
      c.pc c.current = .yielding call ∨ c.pc c.current = .resumed call →
        Transition.event Action.takesDeadline c.current ⟨c, .proceed source, o, c.after s'⟩
          = .other := by
    rintro source call s' (hc | hc) <;>
      simp [Transition.event, Action.takesDeadline, hc, Action.passing]
  have hkept := hseg
  cases hseg with
  | call _ _ he => exact .after_call hs hp hkept he
  | entered hc he => exact h.after_entered hs hp hc he hlt
  | @yielding call source hc =>
      rw [hother (Or.inl hc)]
      refine ⟨fun call' d hcall' hd => ?_, h.blocked, h.service⟩
      rw [Sched.after_pc_current] at hcall'
      exact h.held call' d (by rw [hc]; exact hcall') hd
  | @resumed call source hc =>
      rw [hother (Or.inr hc)]
      exact h.after_resumed hs hp hc hkept
  | requestSwitch | inTime | delayed => exact .of_no_call hs hp hkept rfl

end Segment

/-- What a step that is no tick makes of the record of a task, if it is not
the task's own: it may end its wait with 1, or write a state that blocks
and unblocks nobody. -/
theorem StepCases.view_others (hs : Sched c) {a : Action} {o : Observation}
    (h : StepCases c a c' o) (ha : a ≠ .tick)
    (hown : ∀ s, ThreadSegment c a s → t ≠ c.current) :
    Woken (fun _ r => r = 1) (c.kernel.view t) (c'.kernel.view t)
      ∨ ∃ state, c'.kernel.view t = (c.kernel.view t).withState state
        ∧ (state = .blocked ↔ (c.kernel.view t).state = .blocked) := by
  cases h with
  | start _ hk =>
      obtain rfl := jrtKernelStart_spec hk
      exact Or.inl .kept
  | @thread a s _ _ hseg =>
      refine (hseg.view_others hs (hown s hseg)).imp_left fun hw => hw.mono ?_
      exact fun _ _ hR => Action.wakes_result hR
  | tick => exact absurd rfl ha
  | isr => exact Or.inl ((isrCall_wakes c.kernel _ t).mono fun _ _ hR => IsrCall.wakes_result hR)
  | pendsv _ _ hk => exact Or.inr (hs.switched_view hk t)
  | store => exact Or.inl .kept
  | cycles => exact Or.inl .kept

/-- A step that is no tick leaves a blocked task blocked, or ends its wait
with 1. -/
theorem StepCases.blocked_view (hs : Sched c) {a : Action} {o : Observation}
    (h : StepCases c a c' o) (ha : a ≠ .tick) (hb : (c.kernel.view t).state = .blocked) :
    c'.kernel.view t = c.kernel.view t ∨ c'.kernel.view t = (c.kernel.view t).ended 1 := by
  have hothers : (∀ s, ThreadSegment c a s → t ≠ c.current) →
      c'.kernel.view t = c.kernel.view t ∨ c'.kernel.view t = (c.kernel.view t).ended 1 := by
    intro hown
    rcases h.view_others hs ha hown with hw | ⟨state, hstate, hblocked⟩
    · generalize c'.kernel.view t = v' at hw
      cases hw with
      | kept => exact Or.inl rfl
      | ended _ hr => exact Or.inr (by rw [hr])
      | awoken hsleep =>
          rw [hb] at hsleep
          cases hsleep
    · refine Or.inl (view_eq_of_restated hstate hblocked ?_)
      rw [hstate]
      exact hblocked.mpr hb
  cases h with
  | @thread a s _ hp hseg =>
      by_cases ht : t = c.current
      · subst ht
        rcases hseg.effect with ⟨-, hnot⟩ | ⟨w, -, rfl⟩
        · have hrun := hs.current_running hp hnot
          rw [hb] at hrun
          cases hrun
        · exact Or.inl rfl
      · exact hothers fun _ _ => ht
  | tick => exact absurd rfl ha
  | start | isr | pendsv | store | cycles =>
      refine hothers fun s hseg => ?_
      cases hseg

/-- A wait the step has no reason to end stays as it is. -/
theorem StepCases.wait_kept (hs : Sched c) {a : Action} {o : Observation}
    (h : StepCases c a c' o) (ha : a ≠ .tick) (hb : (c.kernel.view t).state = .blocked)
    (hno : ∀ r, ¬a.wakes c (c.kernel.view t) r)
    (hisr : ∀ call, a = .isr call → ∀ r, ¬call.wakes (c.kernel.view t) r) :
    c'.kernel.view t = c.kernel.view t := by
  have hwoken : ∀ {R : WaitView → UInt32 → Prop} {v : WaitView}, Woken R (c.kernel.view t) v →
      (∀ r, ¬R (c.kernel.view t) r) → v = c.kernel.view t := by
    intro R v hw hnone
    cases hw with
    | kept => rfl
    | ended _ hr => exact absurd hr (hnone _)
    | awoken hsleep =>
        rw [hb] at hsleep
        cases hsleep
  have hrestated : ∀ {v : WaitView}, (∃ state, v = (c.kernel.view t).withState state
      ∧ (state = .blocked ↔ (c.kernel.view t).state = .blocked)) → v = c.kernel.view t := by
    rintro v ⟨state, hstate, hblocked⟩
    refine view_eq_of_restated hstate hblocked ?_
    rw [hstate]
    exact hblocked.mpr hb
  cases h with
  | start _ hk =>
      obtain rfl := jrtKernelStart_spec hk
      rfl
  | @thread a s _ hp hseg =>
      by_cases ht : t = c.current
      · subst ht
        rcases hseg.effect with ⟨-, hnot⟩ | ⟨w, -, rfl⟩
        · have hrun := hs.current_running hp hnot
          rw [hb] at hrun
          cases hrun
        · rfl
      · rcases hseg.view_others hs ht with hw | hstate
        · exact hwoken hw hno
        · exact hrestated hstate
  | tick => exact absurd rfl ha
  | isr => exact hwoken (isrCall_wakes c.kernel _ t) (hisr _ rfl)
  | pendsv _ _ hk => exact hrestated (hs.switched_view hk t)
  | store | cycles => rfl

/-! ### Ticks -/

theorem StepCases.ticks {a : Action} {o : Observation} (h : StepCases c a c' o) :
    c'.kernel.gKernelTicks = c.kernel.gKernelTicks + .ofNat a.isTick.toNat := by
  have hother : ∀ b : Action, b.isTick = false → c'.kernel.gKernelTicks = c.kernel.gKernelTicks →
      c'.kernel.gKernelTicks = c.kernel.gKernelTicks + .ofNat b.isTick.toNat := by
    intro b hb hticks
    rw [hb, hticks]
    exact (UInt32.add_zero _).symm
  cases h with
  | start _ hk =>
      obtain rfl := jrtKernelStart_spec hk
      exact hother .start rfl rfl
  | @thread a s _ _ hseg =>
      refine hother a ?_ hseg.frame.2.2.2.2.2.2.2.1
      cases hseg <;> rfl
  | tick _ hk => exact (tickTasks_frame hk).2.2.2.2.2.2.2.1
  | @isr call _ =>
      exact hother (.isr call) rfl (isrCall_frame c.kernel call).2.2.2.2.2.2.2.1
  | @pendsv currentSp sp k _ _ hk =>
      obtain ⟨-, -, hframe, -⟩ := pendsvSwitch_cases hk
      exact hother (.pendsv currentSp) rfl hframe.2.2.2.2.2.1
  | store | cycles => exact (UInt32.add_zero _).symm


/-- A tick ends exactly the waits whose deadline is over. -/
theorem tickTasks_blocked {k k' : Kernel} (h : tickTasks k = .ok k') (ht : t < k.taskCount)
    (hb : (k.view t).state = .blocked) (hkind : (k.view t).waitKind ≠ .timerService) :
    k'.view t = if (k.view t).deadline.Expired (k.gKernelTicks + 1) then (k.view t).ended 0
      else k.view t := by
  obtain ⟨k₁, hticks, -, hw, -, hvisit⟩ := tickTasks_visit h ht
  have hkept : k₁.view t = k.view t := by
    generalize k₁.view t = v' at hw
    cases hw with
    | kept => rfl
    | ended _ hr => exact absurd hr.2.1 hkind
    | awoken hsleep =>
        rw [hb] at hsleep
        cases hsleep
  have hnot : ¬((k₁.view t).state = .sleeping ∧ (k₁.tasks t).sleepTicks > 0) := by
    rw [hkept, hb]
    simp
  rw [hvisit, tickTask_view, Function.update_self, if_neg hnot, hkept]
  refine if_congr ?_ rfl rfl
  rw [waitExpired_iff_deadline, hkept, hticks]
  exact and_iff_right hb

/-- A tick ends a wait without a deadline only for the timer service, which
it gives work. -/
theorem tickTasks_forever {k k' : Kernel} (h : tickTasks k = .ok k') (ht : t < k.taskCount)
    (hb : (k.view t).state = .blocked) (hforever : (k.view t).waitForever ≠ 0) :
    k'.view t = k.view t ∨ k'.view t = (k.view t).ended 1 := by
  obtain ⟨k₁, -, -, hw, -, hvisit⟩ := tickTasks_visit h ht
  have hkept : k₁.view t = k.view t ∨ k₁.view t = (k.view t).ended 1 := by
    generalize k₁.view t = v' at hw
    cases hw with
    | kept => exact Or.inl rfl
    | ended _ hr => exact Or.inr (by rw [hr.2.2])
    | awoken hsleep =>
        rw [hb] at hsleep
        cases hsleep
  have hnot : ¬((k₁.view t).state = .sleeping ∧ (k₁.tasks t).sleepTicks > 0) := by
    rcases hkept with hv | hv <;> rw [hv] <;> simp [hb]
  have hexpired : ¬waitExpired k₁ t = true := by
    rw [waitExpired_iff]
    rintro ⟨hb₁, hzero, -⟩
    rcases hkept with hv | hv
    · exact hforever (hv ▸ hzero)
    · rw [hv] at hb₁
      cases hb₁
  rw [hvisit, tickTask_view, Function.update_self, if_neg hnot, if_neg hexpired]
  exact hkept

/-- A tick moves every stopwatch, and ends the wait whose deadline it reaches. -/
theorem Timed.tick (h : Timed t c shown) (ht : t < c.kernel.taskCount) {k : Kernel}
    (hk : tickTasks c.kernel = .ok k) (o : Observation) :
    Timed t { c with kernel := k, pending := true } (Stopwatch.step shown
      (Transition.event Action.takesDeadline t
        ⟨c, .tick, o, { c with kernel := k, pending := true }⟩)) := by
  have hticks : k.gKernelTicks = c.kernel.gKernelTicks + 1 :=
    (tickTasks_frame hk).2.2.2.2.2.2.2.1
  have hevent : Transition.event Action.takesDeadline t
      ⟨c, .tick, o, { c with kernel := k, pending := true }⟩ = .tick := by
    rw [Transition.event]
    split <;> rfl
  rw [hevent]
  refine ⟨fun call d hcall hd => ?_, fun hb hkind => ?_, fun hb hkind => ?_⟩
  · obtain ⟨r, rfl, htimeout, htaken⟩ := h.held call d hcall hd
    refine ⟨(r.1, r.2 + 1), rfl, htimeout, ?_⟩
    show Taken k.gKernelTicks _ d
    rw [hticks]
    exact htaken.passTick
  · change (k.view t).state = .blocked at hb
    change (k.view t).waitKind ≠ .timerService at hkind
    have hold := (tickTasks_wakes hk t).eq_of_blocked hb
    have hview := tickTasks_blocked hk ht (hold ▸ hb) (hold ▸ hkind)
    obtain ⟨r, rfl, htaken, hbound⟩ := h.blocked (hold ▸ hb) (hold ▸ hkind)
    refine ⟨(r.1, r.2 + 1), rfl, ?_, fun hforever => ?_⟩
    · show Taken k.gKernelTicks _ (k.view t).deadline
      rw [hticks, hold]
      exact htaken.passTick
    · have hlt32 := r.1.toNat_lt
      have hr := hbound hforever
      by_contra hge
      have hexpired : (c.kernel.view t).deadline.Expired (c.kernel.gKernelTicks + 1) :=
        (htaken.passTick.expired_iff fun _ => by show r.2 + 1 < 2 ^ 32; omega).mpr
          ⟨hforever, Nat.not_lt.mp hge⟩
      rw [if_pos hexpired] at hview
      rw [hview] at hb
      cases hb
  · change (k.view t).state = .blocked at hb
    change (k.view t).waitKind = .timerService at hkind
    show (k.view t).waitForever ≠ 0
    have hold := (tickTasks_wakes hk t).eq_of_blocked hb
    rw [hold] at hb hkind ⊢
    exact h.service hb hkind

theorem Timed.step (h : Timed t c shown) (hs : Sched c) (ht : t < c.kernel.taskCount) {a : Action}
    {o : Observation} (hstep : StepCases c a c' o)
    (hlt : (⟨c, a, o, c'⟩ : Transition).WouldBlock → t = c.current → ∀ r,
      Stopwatch.step shown (Transition.event Action.takesDeadline t ⟨c, a, o, c'⟩) = some r →
        r.1 ≠ jrtWaitForever → r.2 < 2 ^ 32) :
    Timed t c' (Stopwatch.step shown
      (Transition.event Action.takesDeadline t ⟨c, a, o, c'⟩)) := by
  -- Steps of others block nobody, and are nothing to the stopwatch.
  have hothers : a ≠ .tick → (∀ s, ThreadSegment c a s → t ≠ c.current) → c'.pc t = c.pc t →
      c'.kernel.gKernelTicks = c.kernel.gKernelTicks → Timed t c' shown := by
    intro ha hown hpc hticks
    refine h.of_others hpc hticks fun hb => ?_
    rcases hstep.view_others hs ha hown with hw | ⟨state, hstate, hblocked⟩
    · exact hw.eq_of_blocked hb
    · exact view_eq_of_restated hstate hblocked hb
  cases hstep with
  | @thread a s _ hp hseg =>
      by_cases htc : t = c.current
      · subst htc
        exact h.after_segment hs hp hseg fun hb r => hlt hb rfl r
      · rw [hseg.event_of_ne htc]
        have ha : a ≠ .tick := by
          rintro rfl
          cases hseg
        exact hothers ha (fun _ _ => htc) (Sched.after_pc_of_ne s htc)
          hseg.frame.2.2.2.2.2.2.2.1
  | tick _ hk => exact h.tick ht hk _
  | @isr call _ =>
      have hframe := isrCall_frame c.kernel call
      rw [Transition.event]
      split <;> exact hothers nofun (fun _ hseg => nomatch hseg) rfl hframe.2.2.2.2.2.2.2.1
  | pendsv _ _ hk =>
      obtain ⟨-, -, hframe, -⟩ := pendsvSwitch_cases hk
      rw [Transition.event]
      split <;> exact hothers nofun (fun _ hseg => nomatch hseg) rfl hframe.2.2.2.2.2.1
  | start _ hk =>
      obtain rfl := jrtKernelStart_spec hk
      rw [Transition.event]
      split <;> exact hothers nofun (fun _ hseg => nomatch hseg) rfl rfl
  | store | cycles =>
      rw [Transition.event]
      split <;> exact hothers nofun (fun _ hseg => nomatch hseg) rfl rfl

/-- What a task's stopwatch for delays says of its sleep. -/
def Slept (t : Nat) (c : Cfg) (shown : Option (UInt32 × Nat)) : Prop :=
  ∀ m, c.kernel.sleep t = some m →
    ∃ n elapsed, shown = some (n, elapsed) ∧ elapsed + m.toNat = n.toNat ∧ m ≠ 0

theorem Slept.step (h : Slept t c shown) (hs : Sched c) (ht : t < c.kernel.taskCount) {a : Action}
    {o : Observation} (hstep : StepCases c a c' o) :
    Slept t c' (Stopwatch.step shown (Transition.event Action.delay t ⟨c, a, o, c'⟩)) := by
  intro m hm
  by_cases ha : a = .tick
  · subst ha
    have hevent : Transition.event Action.delay t ⟨c, .tick, o, c'⟩ = .tick := by
      rw [Transition.event]
      split <;> rfl
    rw [hevent]
    cases hstep with
    | thread _ _ hseg => cases hseg
    | @tick k _ hk =>
        change k.sleep t = some m at hm
        rw [tickTasks_sleep hk ht] at hm
        obtain ⟨m₀, hsleep, hticked⟩ := Option.bind_eq_some_iff.mp hm
        obtain ⟨n, elapsed, rfl, hsum, hpos⟩ := h m₀ hsleep
        rw [sleepTicked_of_ne_zero hpos] at hticked
        by_cases hone : m₀ = 1
        · rw [if_pos hone] at hticked
          cases hticked
        · rw [if_neg hone] at hticked
          obtain rfl := Option.some.inj hticked
          refine ⟨n, elapsed + 1, rfl, ?_, fun hzero => hone (sub_one_eq_zero_iff.mp hzero)⟩
          have hne : m₀.toNat ≠ 0 := fun hzero => hpos (UInt32.toNat_inj.mp hzero)
          have hle : 1 ≤ m₀ := UInt32.le_iff_toNat_le.mpr (Nat.pos_of_ne_zero hne)
          rw [UInt32.toNat_sub_of_le _ _ hle]
          change elapsed + 1 + (m₀.toNat - 1) = n.toNat
          omega
  · have hpassing : a.passing = .other := by
      cases a <;> first | rfl | exact absurd rfl ha
    rw [hstep.sleep hs ha] at hm
    rw [Transition.event, hpassing]
    by_cases htc : c.current = t
    · rw [if_pos htc]
      cases hdelay : a.delay c with
      | none =>
          rw [hdelay] at hm
          exact h m hm
      | some n =>
          rw [hdelay, Kernel.delayed, htc, Function.update_self] at hm
          by_cases hn : n = 0
          · rw [if_pos hn] at hm
            cases hm
          · rw [if_neg hn] at hm
            obtain rfl := Option.some.inj hm
            exact ⟨n, 0, rfl, Nat.zero_add _, hn⟩
    · rw [if_neg htc]
      refine h m ?_
      rw [← hm]
      cases a.delay c with
      | none => rfl
      | some n => exact (Function.update_of_ne (Ne.symm htc) _ _).symm

end Step

/-! ## Runs -/

/-- The tick counter behind a run, modulo `2 ^ 32`. -/
theorem Run.ticks {c c' : Cfg} {tr : List Transition} (hrun : Run c tr c') :
    c'.kernel.gKernelTicks = c.kernel.gKernelTicks + .ofNat (ticksIn tr) := by
  induction hrun with
  | nil => exact (UInt32.add_zero _).symm
  | snoc _ hstep ih =>
      rw [(step_cases hstep).ticks, ih, ticksIn, ticksIn, countP_snoc, UInt32.ofNat_add,
        UInt32.add_assoc]

/-- Behind `JRT_KernelInit` every task but the timer service can run. -/
theorem Booted.view_state {k₀ k : Kernel} (h : Booted k₀ k) {i : Nat} (hi : i < k.taskCount) :
    i = k.applicationTaskCount ∨ (k.view i).state = .running ∨ (k.view i).state = .ready := by
  have hn := h.taskCount_eq
  by_cases happ : i < k.applicationTaskCount
  · rw [h.view_app i happ]
    split
    · exact Or.inr (Or.inl rfl)
    · exact Or.inr (Or.inr rfl)
  · by_cases hservice : i = k.applicationTaskCount
    · exact Or.inl hservice
    · have hidle : i = k.applicationTaskCount + 1 := by omega
      rw [hidle, h.view_idle]
      exact Or.inr (Or.inr rfl)

theorem Timed.boot {img : Image} {c : Cfg} (h : Boot img c) {t : Nat}
    (ht : t < c.kernel.taskCount) : Timed t c none := by
  obtain ⟨k₀, config, k, hinit, rfl⟩ := h
  have hb := jrtKernelInit_booted hinit
  have hservice : (k.view t).state = .blocked → t = k.applicationTaskCount := fun hblocked => by
    rcases hb.view_state ht with hi | hi | hi
    · exact hi
    · rw [hi] at hblocked
      cases hblocked
    · rw [hi] at hblocked
      cases hblocked
  refine ⟨fun call d hcall hd => ?_, fun hblocked hkind => ?_, fun hblocked _ => ?_⟩
  · change (initialPc k t).waitCall = some call at hcall
    unfold initialPc at hcall
    split at hcall
    · cases hcall
    · split at hcall
      · obtain rfl := Option.some.inj hcall
        cases hd
      · cases hcall
  · change (k.view t).waitKind ≠ .timerService at hkind
    rw [hservice hblocked] at hkind
    exact absurd hb.view_service.2.2 hkind
  · show (k.view t).waitForever ≠ 0
    rw [hservice hblocked, hb.service_forever]
    decide

theorem Run.timed {img : Image} {c₀ c : Cfg} {tr : List Transition} (hboot : Boot img c₀)
    (hrun : Run c₀ tr c) (htimely : Timely tr) {t : Nat} (ht : t < c.kernel.taskCount) :
    Timed t c (deadlineOf t tr) := by
  induction hrun with
  | nil => exact .boot hboot ht
  | @snoc tr c₁ c₂ a o hrun hs ih =>
      have hstep := step_cases hs
      rw [hstep.taskCount] at ht
      have hsched : Sched c₁ := Reachable.sched ⟨c₀, tr, hboot, hrun⟩
      rw [deadlineOf_append]
      refine (ih htimely.init ht).step hsched ht hstep fun hblock htc r hr hforever => ?_
      subst htc
      rw [← deadlineOf_append] at hr
      exact htimely tr _ [] rfl hblock r.1 r.2 hr hforever

theorem Slept.boot {img : Image} {c : Cfg} (h : Boot img c) {t : Nat}
    (ht : t < c.kernel.taskCount) (shown : Option (UInt32 × Nat)) : Slept t c shown := by
  obtain ⟨k₀, config, k, hinit, rfl⟩ := h
  have hb := jrtKernelInit_booted hinit
  intro m hm
  have hsleeping : (k.view t).state = .sleeping := (sleep_eq_some_iff.mp hm).1
  rcases hb.view_state ht with hi | hi | hi
  · rw [hi, hb.view_service.1] at hsleeping
    cases hsleeping
  · rw [hi] at hsleeping
    cases hsleeping
  · rw [hi] at hsleeping
    cases hsleeping

theorem Run.slept {img : Image} {c₀ c : Cfg} {tr : List Transition} (hboot : Boot img c₀)
    (hrun : Run c₀ tr c) {t : Nat} (ht : t < c.kernel.taskCount) : Slept t c (delayOf t tr) := by
  induction hrun with
  | nil => exact .boot hboot ht _
  | @snoc tr c₁ c₂ a o hrun hs ih =>
      have hstep := step_cases hs
      rw [hstep.taskCount] at ht
      rw [delayOf_append]
      exact (ih ht).step (Reachable.sched ⟨c₀, tr, hboot, hrun⟩) ht hstep

/-! ## The timeout theorem -/

/-- The wait of task `t` has timed out. -/
def Kernel.TimedOut (k : Kernel) (t : Nat) : Prop :=
  (k.tasks t).state = .ready ∧ (k.tasks t).waitResult = 0

/-- The wait of task `t` was ended by another. -/
def Kernel.WokenUp (k : Kernel) (t : Nat) : Prop :=
  (k.tasks t).state = .ready ∧ (k.tasks t).waitResult = 1

/-- A step of a run, seen from task `t`, with `tr` behind it. -/
structure TimeoutLaw (tr : List Transition) (t : Nat) (x : Transition) : Prop where
  /-- A blocked task's finite timeout has not elapsed; it times out in the
  tick in which it does, and in no other step. -/
  blocked : (x.pre.kernel.tasks t).state = .blocked →
    (x.pre.kernel.tasks t).waitKind ≠ .timerService →
    ∃ timeout elapsed, deadlineOf t tr = some (timeout, elapsed)
      ∧ (timeout ≠ jrtWaitForever → elapsed < timeout.toNat)
      ∧ (x.post.kernel.TimedOut t
        ↔ x.action = .tick ∧ timeout ≠ jrtWaitForever ∧ elapsed + 1 = timeout.toNat)
      ∧ (x.post.kernel.TimedOut t ∨ x.post.kernel.WokenUp t
        ∨ (x.post.kernel.tasks t).state = .blocked)
  /-- The timer service, which waits forever, is never timed out. -/
  service : (x.pre.kernel.tasks t).state = .blocked →
    (x.pre.kernel.tasks t).waitKind = .timerService →
    x.post.kernel.WokenUp t ∨ (x.post.kernel.tasks t).state = .blocked
  /-- A wait that begins blocks exactly if its timeout has not elapsed, and
  returns 0 otherwise. -/
  begins : t = x.pre.current → ∀ source call reserved, x.action = .proceed source →
    x.pre.pc t = .entered call reserved → call.WouldBlock x.pre.kernel reserved →
    ∃ elapsed, deadlineOf t (tr ++ [x]) = some (call.timeout, elapsed)
      ∧ ((x.post.kernel.tasks t).state = .blocked
        ↔ call.timeout = jrtWaitForever ∨ elapsed < call.timeout.toNat)
      ∧ ((x.post.kernel.tasks t).state ≠ .blocked →
        x.observation.result = some 0 ∧ (x.post.kernel.tasks t).state = .running)
  /-- A delay of at least one tick puts its task to sleep. -/
  delayed : t = x.pre.current → ∀ n, x.action.delay x.pre = some n → n ≠ 0 →
    (x.post.kernel.tasks t).state = .sleeping
  /-- A sleeping task becomes `READY` in the tick in which its delay has
  elapsed, and sleeps on in every other step. -/
  sleeping : (x.pre.kernel.tasks t).state = .sleeping →
    ∃ n elapsed, delayOf t tr = some (n, elapsed) ∧ elapsed < n.toNat
      ∧ ((x.post.kernel.tasks t).state = .ready ↔ x.action = .tick ∧ elapsed + 1 = n.toNat)
      ∧ ((x.post.kernel.tasks t).state = .ready ∨ (x.post.kernel.tasks t).state = .sleeping)

section Law

variable {c c' : Cfg} {t : Nat} {a : Action} {o : Observation}

theorem timedOut_of_ended {k : Kernel} {v : WaitView} (h : k.view t = v.ended 0) :
    k.TimedOut t := by
  change (k.view t).state = .ready ∧ (k.view t).waitResult = 0
  rw [h]
  exact ⟨rfl, rfl⟩

theorem wokenUp_of_ended {k : Kernel} {v : WaitView} (h : k.view t = v.ended 1) :
    k.WokenUp t := by
  change (k.view t).state = .ready ∧ (k.view t).waitResult = 1
  rw [h]
  exact ⟨rfl, rfl⟩

theorem Kernel.WokenUp.not_timedOut {k : Kernel} (h : k.WokenUp t) : ¬k.TimedOut t := by
  rintro ⟨-, hzero⟩
  rw [h.2] at hzero
  cases hzero

theorem not_timedOut_of_blocked {k : Kernel} (h : (k.tasks t).state = .blocked) :
    ¬k.TimedOut t := by
  rintro ⟨hready, -⟩
  rw [h] at hready
  cases hready

theorem Timed.law {shown : Option (UInt32 × Nat)} (h : Timed t c shown) (hs : Sched c)
    (ht : t < c.kernel.taskCount) (hstep : StepCases c a c' o)
    (hb : (c.kernel.view t).state = .blocked) (hkind : (c.kernel.view t).waitKind ≠ .timerService) :
    ∃ timeout elapsed, shown = some (timeout, elapsed)
      ∧ (timeout ≠ jrtWaitForever → elapsed < timeout.toNat)
      ∧ (c'.kernel.TimedOut t
        ↔ a = .tick ∧ timeout ≠ jrtWaitForever ∧ elapsed + 1 = timeout.toNat)
      ∧ (c'.kernel.TimedOut t ∨ c'.kernel.WokenUp t ∨ (c'.kernel.tasks t).state = .blocked) := by
  obtain ⟨⟨timeout, elapsed⟩, hshown, htaken, hbound⟩ := h.blocked hb hkind
  refine ⟨timeout, elapsed, hshown, hbound, ?_⟩
  by_cases ha : a = .tick
  · subst ha
    cases hstep with
    | thread _ _ hseg => cases hseg
    | @tick k _ hk =>
        show (k.TimedOut t ↔ _) ∧ (k.TimedOut t ∨ k.WokenUp t ∨ (k.view t).state = .blocked)
        have hview := tickTasks_blocked hk ht hb hkind
        have hexpired : (c.kernel.view t).deadline.Expired (c.kernel.gKernelTicks + 1)
            ↔ timeout ≠ jrtWaitForever ∧ elapsed + 1 = timeout.toNat := by
          rw [htaken.passTick.expired_iff]
          · refine and_congr_right fun hforever => ?_
            have hbefore : elapsed < timeout.toNat := hbound hforever
            change timeout.toNat ≤ elapsed + 1 ↔ elapsed + 1 = timeout.toNat
            omega
          · intro hforever
            have hbefore : elapsed < timeout.toNat := hbound hforever
            have hlt := timeout.toNat_lt
            change elapsed + 1 < 2 ^ 32
            omega
        by_cases hover : (c.kernel.view t).deadline.Expired (c.kernel.gKernelTicks + 1)
        · rw [if_pos hover] at hview
          have hout : k.TimedOut t := timedOut_of_ended hview
          exact ⟨iff_of_true hout ⟨rfl, hexpired.mp hover⟩, Or.inl hout⟩
        · rw [if_neg hover] at hview
          rw [← hview] at hb
          have hnot : ¬k.TimedOut t := not_timedOut_of_blocked hb
          exact ⟨iff_of_false hnot fun hand => hover (hexpired.mpr hand.2), Or.inr (Or.inr hb)⟩
  · have hfalse : ¬(a = .tick ∧ timeout ≠ jrtWaitForever ∧ elapsed + 1 = timeout.toNat) :=
      fun hand => ha hand.1
    rcases hstep.blocked_view hs ha hb with hview | hview
    · rw [← hview] at hb
      exact ⟨iff_of_false (not_timedOut_of_blocked hb) hfalse, Or.inr (Or.inr hb)⟩
    · have hwoken : c'.kernel.WokenUp t := wokenUp_of_ended hview
      exact ⟨iff_of_false hwoken.not_timedOut hfalse, Or.inr (Or.inl hwoken)⟩

theorem Timed.service_law {shown : Option (UInt32 × Nat)} (h : Timed t c shown) (hs : Sched c)
    (ht : t < c.kernel.taskCount) (hstep : StepCases c a c' o)
    (hb : (c.kernel.view t).state = .blocked) (hkind : (c.kernel.view t).waitKind = .timerService) :
    c'.kernel.WokenUp t ∨ (c'.kernel.tasks t).state = .blocked := by
  have hview : c'.kernel.view t = c.kernel.view t
      ∨ c'.kernel.view t = (c.kernel.view t).ended 1 := by
    by_cases ha : a = .tick
    · subst ha
      cases hstep with
      | thread _ _ hseg => cases hseg
      | tick _ hk => exact tickTasks_forever hk ht hb (h.service hb hkind)
    · exact hstep.blocked_view hs ha hb
  rcases hview with hview | hview
  · rw [← hview] at hb
    exact Or.inr hb
  · exact Or.inl (wokenUp_of_ended hview)

/-- A critical section that finds nothing to take. -/
theorem Timed.begins_law {shown : Option (UInt32 × Nat)} (h : Timed c.current c shown)
    (hs : Sched c) {source : Nat → UInt8} {call : WaitCall} {reserved : Bool}
    (hstep : StepCases c (.proceed source) c' o) (hpc : c.pc c.current = .entered call reserved)
    (hblock : call.WouldBlock c.kernel reserved)
    (hlt : ∀ r, Stopwatch.step shown (Transition.event Action.takesDeadline c.current
      ⟨c, .proceed source, o, c'⟩) = some r → r.1 ≠ jrtWaitForever → r.2 < 2 ^ 32) :
    ∃ elapsed, Stopwatch.step shown (Transition.event Action.takesDeadline c.current
        ⟨c, .proceed source, o, c'⟩) = some (call.timeout, elapsed)
      ∧ ((c'.kernel.tasks c.current).state = .blocked
        ↔ call.timeout = jrtWaitForever ∨ elapsed < call.timeout.toNat)
      ∧ ((c'.kernel.tasks c.current).state ≠ .blocked →
        o.result = some 0 ∧ (c'.kernel.tasks c.current).state = .running) := by
  obtain ⟨⟨timeout, elapsed⟩, hshown, rfl, htaken⟩ := h.deadline hpc source o c'
  refine ⟨elapsed, hshown, ?_⟩
  have hexpired := htaken.expired_iff (hlt _ hshown)
  cases hstep with
  | @thread _ s _ hp hseg =>
      have hrun := hs.current_running hp (by simp [hpc])
      show ((s.kernel.view c.current).state = .blocked ↔ _)
        ∧ ((s.kernel.view c.current).state ≠ .blocked →
          s.result = some 0 ∧ (s.kernel.view c.current).state = .running)
      cases proceedEntered_exit (hseg.of_entered hpc) with
      | served hnot => exact absurd hblock hnot
      | late _ hover hu hresult hview =>
          rw [hview, hrun]
          obtain ⟨hfinite, hle⟩ := hexpired.mp hover
          refine ⟨iff_of_false (by decide) ?_, fun _ => ⟨hresult, rfl⟩⟩
          rintro (hforever | hbefore)
          · exact hfinite hforever
          · exact absurd hle (Nat.not_le.mpr hbefore)
      | blocked _ hover _ hview hon _ =>
          rw [hs.currentTask] at hview hon
          rw [hview, Function.update_self, hon.1]
          refine ⟨iff_of_true rfl ?_, fun hnot => absurd rfl hnot⟩
          by_cases hforever : call.timeout = jrtWaitForever
          · exact Or.inl hforever
          · refine Or.inr (Nat.not_le.mp fun hle => hover (hexpired.mpr ⟨hforever, hle⟩))

theorem StepCases.current_awake (hs : Sched c) (hstep : StepCases c a c' o) {n : UInt32}
    (hdelay : a.delay c = some n) : (c.kernel.view c.current).state ≠ .sleeping := by
  cases hstep with
  | thread _ hp _ =>
      rcases hs.thread hp with hrun | ⟨hblocked, -⟩
      · simp [hrun]
      · simp [hblocked]
  | _ => cases hdelay

theorem StepCases.delayed_law (hs : Sched c) (hstep : StepCases c a c' o) {n : UInt32}
    (hdelay : a.delay c = some n) (hn : n ≠ 0) :
    (c'.kernel.tasks c.current).state = .sleeping := by
  have ha : a ≠ .tick := by
    rintro rfl
    cases hdelay
  have hsleep := hstep.sleep hs ha
  rw [hdelay] at hsleep
  have hself : c'.kernel.sleep c.current = some n := by
    rw [hsleep, Kernel.delayed, Function.update_self, if_neg hn]
  exact (sleep_eq_some_iff.mp hself).1

theorem Slept.law {shown : Option (UInt32 × Nat)} (h : Slept t c shown) (hs : Sched c)
    (ht : t < c.kernel.taskCount) (hstep : StepCases c a c' o)
    (hsleeping : (c.kernel.view t).state = .sleeping) :
    ∃ n elapsed, shown = some (n, elapsed) ∧ elapsed < n.toNat
      ∧ ((c'.kernel.tasks t).state = .ready ↔ a = .tick ∧ elapsed + 1 = n.toNat)
      ∧ ((c'.kernel.tasks t).state = .ready ∨ (c'.kernel.tasks t).state = .sleeping) := by
  have hsleep : c.kernel.sleep t = some (c.kernel.tasks t).sleepTicks :=
    sleep_eq_some_iff.mpr ⟨hsleeping, rfl⟩
  obtain ⟨n, elapsed, hshown, hsum, hpos⟩ := h _ hsleep
  generalize (c.kernel.tasks t).sleepTicks = m at hsleep hsum hpos
  have hne : m.toNat ≠ 0 := fun hzero => hpos (UInt32.toNat_inj.mp hzero)
  refine ⟨n, elapsed, hshown, by omega, ?_⟩
  have hstays : ∀ m', c'.kernel.sleep t = some m' → (c'.kernel.tasks t).state = .sleeping :=
    fun m' hm' => (sleep_eq_some_iff.mp hm').1
  by_cases ha : a = .tick
  · subst ha
    have hlast : m = 1 ↔ elapsed + 1 = n.toNat := by
      rw [← UInt32.toNat_inj]
      change m.toNat = 1 ↔ _
      omega
    cases hstep with
    | thread _ _ hseg => cases hseg
    | @tick k _ hk =>
        have hticked := tickTasks_sleep hk ht
        rw [hsleep, Option.bind_some, sleepTicked_of_ne_zero hpos] at hticked
        by_cases hone : m = 1
        · have hready : (k.view t).state = .ready := tickTasks_awakes hk ht (hone ▸ hsleep)
          exact ⟨iff_of_true hready ⟨rfl, hlast.mp hone⟩, Or.inl hready⟩
        · rw [if_neg hone] at hticked
          have hstill := hstays _ hticked
          refine ⟨iff_of_false ?_ fun hand => hone (hlast.mpr hand.2), Or.inr hstill⟩
          rw [hstill]
          decide
  · have hkept := hstep.sleep hs ha
    have hself : c'.kernel.sleep t = some m := by
      rw [hkept]
      cases hdelay : a.delay c with
      | none => exact hsleep
      | some n =>
          have htc : t ≠ c.current := by
            rintro rfl
            exact hstep.current_awake hs hdelay hsleeping
          exact (Function.update_of_ne htc _ _).trans hsleep
    have hstill := hstays m hself
    refine ⟨iff_of_false ?_ fun hand => ha hand.1, Or.inr hstill⟩
    rw [hstill]
    decide

end Law

/-- In every run every step keeps to the law of timeouts, for every task,
whatever the tick counter held at the start. -/
theorem timeouts_exact {img : Image} {c₀ c c' : Cfg} {tr : List Transition} {a : Action}
    {o : Observation} (hboot : Boot img c₀) (hrun : Run c₀ tr c) (hstep : step c a = some (c', o))
    (htimely : Timely (tr ++ [⟨c, a, o, c'⟩])) (t : Nat) (ht : t < c.kernel.taskCount) :
    TimeoutLaw tr t ⟨c, a, o, c'⟩ := by
  have hs : Sched c := Reachable.sched ⟨c₀, tr, hboot, hrun⟩
  have htimed := hrun.timed hboot htimely.init ht
  have hcases := step_cases hstep
  refine ⟨fun hb hkind => htimed.law hs ht hcases hb hkind,
    fun hb hkind => htimed.service_law hs ht hcases hb hkind, ?_, ?_,
    fun hsleeping => (hrun.slept hboot ht).law hs ht hcases hsleeping⟩
  · rintro rfl source call reserved rfl hpc hblock
    rw [deadlineOf_append]
    refine htimed.begins_law hs hcases hpc hblock fun r hr hforever => ?_
    rw [← deadlineOf_append] at hr
    exact htimely tr _ [] rfl ⟨source, call, reserved, rfl, hpc, hblock⟩ r.1 r.2 hr hforever
  · rintro rfl n hdelay hn
    exact hcases.delayed_law hs hdelay hn

/-- A run in which the first task takes a semaphore with a timeout of 2 at
the last tick before the counter wraps, and one tick passes. -/
def wrappingActions : List Action :=
  [.start, .call (.semaphoreTake 8 2), .proceed fun _ => 0, .proceed fun _ => 0,
    .pendsv (sampleSp 0), .tick]

theorem timeouts_exact_sample : ∃ k tr c c' o,
    jrtKernelInit .sample (.zero 0xFFFFFFFF) (some (.sample [2, 1])) = .ok (.ok, k)
      ∧ runActions (bootCfg k) wrappingActions = some (tr, c) ∧ step c .tick = some (c', o)
      ∧ c'.kernel.TimedOut 0 ∧ TimeoutLaw tr 0 ⟨c, .tick, o, c'⟩ := by
  have hinit : passes (jrtKernelInit .sample (.zero 0xFFFFFFFF) (some (.sample [2, 1])))
      (fun r => r.1 == .ok && (runActions (bootCfg r.2) wrappingActions).any fun s =>
        0 < s.2.kernel.taskCount && (step s.2 .tick).any fun s' =>
          (s'.1.kernel.tasks 0).state == .ready && (s'.1.kernel.tasks 0).waitResult == 0)
      = true := by decide +kernel
  obtain ⟨⟨status, k⟩, hk, htest⟩ := passes_eq_true.mp hinit
  rw [Bool.and_eq_true, beq_iff_eq] at htest
  obtain ⟨rfl, hruns⟩ := htest
  obtain ⟨⟨tr, c⟩, hactions, hlast⟩ := (Option.any_eq_true _ _).mp hruns
  rw [Bool.and_eq_true] at hlast
  obtain ⟨⟨c', o⟩, htick, hout⟩ := (Option.any_eq_true _ _).mp hlast.2
  rw [Bool.and_eq_true, beq_iff_eq, beq_iff_eq] at hout
  have hlength : (tr ++ [(⟨c, .tick, o, c'⟩ : Transition)]).length < 2 ^ 32 := by
    have hmap := congrArg List.length (runActions_actions hactions)
    rw [List.length_map] at hmap
    rw [List.length_append, hmap, List.length_singleton]
    decide
  exact ⟨k, tr, c, c', o, hk, hactions, htick, hout,
    timeouts_exact ⟨_, _, _, hk, rfl⟩ (runActions_run hactions) htick
      (timely_of_length_lt hlength) 0 (of_decide_eq_true hlast.1)⟩

end JustRT
