import JustRT.Balance
import JustRT.Mutex

/-!
# Balanced priorities over whole runs

`Cfg.Accounts` says of a configuration and the action ahead when the step
keeps the priorities balanced: the critical section of a lock must not leave
a boost without a waiter, and where waits end, somebody who still waits must
account for every priority on a cycle of waits.
-/

namespace JustRT

open Relation Inheritance

/-! ## Steps that leave every priority alone -/

theorem EnterCases.prioFrame {k k' : Kernel} {call : Call} (h : EnterCases k call k')
    (hunlock : ∀ m, call ≠ .mutexUnlock m) : PrioFrame k k' := by
  cases h with
  | taskDelay ticks => simp
  | taskSuspend taskId => simp
  | taskResume taskId => simp
  | semaphoreGive semaphore => simp
  | mutexUnlock mutex => exact absurd rfl (hunlock mutex)
  | notifyFails => exact .refl k
  | taskNotify hsome => exact taskNotifyCommon_prioFrame hsome
  | setBitsFails => exact .refl k
  | eventGroupSetBits hsome => exact eventGroupSetBitsCommon_prioFrame hsome
  | timerSetCallback timer callback argument =>
      exact jrtTimerSetCallback_prioFrame k timer callback argument
  | spares _ hrecords => exact prio_eq_of_tasks_eq hrecords.1

theorem proceedEntered_prioFrame {k : Kernel} {source : Nat → UInt8} {reserved : Bool}
    {call : WaitCall} {s : Segment} (h : proceedEntered k source reserved call = .ok s)
    (hlock : ∀ m timeout deadline, call ≠ .mutexLock m timeout deadline) :
    PrioFrame k s.kernel := by
  cases call with
  | mutexLock m timeout deadline => exact absurd rfl (hlock m timeout deadline)
  | timerServiceClaim =>
      simp only [proceedEntered, exec_bind_eq_ok] at h
      obtain ⟨⟨claimed, k'⟩, hclaim, h⟩ := h
      have hkept := kernelTimerServiceClaim_prioFrame hclaim
      cases claimed <;> obtain rfl := Except.ok.inj h <;> exact hkept
  | _ =>
      obtain rfl := Except.ok.inj h
      simp

theorem proceedResumed_prioFrame (k : Kernel) (call : WaitCall) :
    PrioFrame k (proceedResumed k call).kernel := by
  cases call with
  | queueSend q timeout deadline =>
      simp only [proceedResumed]
      split <;> exact .refl k
  | queueReceive q timeout deadline =>
      simp only [proceedResumed]
      split <;> exact .refl k
  | taskNotifyTake value timeout => exact jrtTaskNotifyTakeResume_prioFrame k
  | eventGroupWaitBits g bits waitAll clear timeout =>
      exact jrtEventGroupWaitBitsResume_prioFrame k g bits
  | _ => exact .refl k

theorem isrCall_prioFrame (k : Kernel) (call : IsrCall) : PrioFrame k (isrCall k call).1 := by
  cases call with
  | semaphoreGiveFromIsr s => exact semaphoreGiveLocked_prioFrame k s
  | queueSendFromIsr q source => exact jrtQueueSendFromIsr_prioFrame k q source true
  | taskNotifyFromIsr task value =>
      simp only [isrCall]
      split
      · exact .refl k
      · next hsome => exact taskNotifyCommon_prioFrame hsome
  | eventGroupSetBitsFromIsr g bits =>
      simp only [isrCall]
      split
      · exact .refl k
      · next hsome => exact eventGroupSetBitsCommon_prioFrame hsome

section Steps

variable {c c' : Cfg} {a : Action} {o : Observation}

/-- Only a tick, an unlock and the critical section of a lock write
priorities. -/
theorem StepCases.prioFrame (hstep : StepCases c a c' o) (htick : a ≠ .tick)
    (hunlock : ∀ m, a ≠ .call (.mutexUnlock m))
    (hlock : ∀ source m timeout deadline r, a = .proceed source →
      c.pc c.current ≠ .entered (.mutexLock m timeout deadline) r) :
    PrioFrame c.kernel c'.kernel := by
  cases hstep with
  | start _ hk =>
      obtain rfl := jrtKernelStart_spec hk
      exact .refl _
  | thread _ _ hseg =>
      cases hseg with
      | call _ _ h => exact (enter_cases h).prioFrame fun m hm => hunlock m (by rw [hm])
      | @entered call r source s hpc h =>
          refine proceedEntered_prioFrame h fun m timeout deadline hcall => ?_
          exact hlock source m timeout deadline r rfl (hcall ▸ hpc)
      | resumed => exact proceedResumed_prioFrame _ _
      | yielding | requestSwitch | inTime => exact .refl _
      | delayed => exact sleepCurrent_prioFrame _ _
  | tick => exact absurd rfl htick
  | isr => exact isrCall_prioFrame _ _
  | pendsv _ _ hk =>
      obtain ⟨-, -, -, hkept, -⟩ := pendsvSwitch_cases hk
      exact hkept
  | store | cycles => exact ⟨rfl, rfl⟩

end Steps

/-! ## Waits for mutexes -/

section Waits

variable {c c' : Cfg} {a : Action} {o : Observation} {u t : Nat}

/-- The waits of a scheduled system, by the mutex waited for. -/
theorem waitsFor_iff (hs : Sched c) : c.kernel.WaitsFor u t
    ↔ u < c.kernel.taskCount ∧ t < c.kernel.taskCount ∧ ∃ m, m ≠ 0
      ∧ c.kernel.WaitsAt (mutexPlace m) u ∧ (c.kernel.mutexes m).locked ≠ 0
      ∧ (c.kernel.mutexes m).owner = t := by
  constructor
  · rintro ⟨hu, ht, hwaits⟩
    obtain ⟨hblocked, hlocked, howner⟩ := waitsForOwner_iff.mp hwaits
    simp only [blockedOnMutex, Bool.and_eq_true, beq_iff_eq, bne_iff_ne] at hblocked
    obtain ⟨⟨hstate, hkind⟩, hobject⟩ := hblocked
    obtain ⟨call, hwithin⟩ := hs.blocked u hu hstate
    have hon := (hs.waiting u call hwithin).on hstate
    have hplace := hon.2.2
    rw [view_waitKind, hkind] at hplace
    cases call with
    | mutexLock m timeout deadline =>
        have hptr : (c.kernel.tasks u).waitObject = .ptr m := hon.2.1
        rw [blockingMutex, hptr] at hlocked howner
        refine ⟨hu, ht, m, fun hm => hobject ?_, hon, hlocked, howner⟩
        rw [hptr, hm]
        rfl
    | _ => cases hplace
  · rintro ⟨hu, ht, m, hm, ⟨hstate, hobject, hkind⟩, hlocked, howner⟩
    have hptr : (c.kernel.tasks u).waitObject = .ptr m := hobject
    refine ⟨hu, ht, waitsForOwner_iff.mpr ⟨?_, ?_, ?_⟩⟩
    · simp only [blockedOnMutex, Bool.and_eq_true, beq_iff_eq, bne_iff_ne]
      exact ⟨⟨hstate, hkind⟩, fun hnull => hm (WaitObject.ptr.inj (hptr.symm.trans hnull))⟩
    · rw [blockingMutex, hptr]
      exact hlocked
    · rw [blockingMutex, hptr]
      exact howner

theorem waitsAt_mutexPlace_unique {k : Kernel} {m m' : Ptr}
    (h : k.WaitsAt (mutexPlace m) u) (h' : k.WaitsAt (mutexPlace m') u) : m = m' :=
  WaitObject.ptr.inj (h.2.1.symm.trans h'.2.1)

/-- A step that neither creates nor locks nor unlocks a mutex, and is no tick,
changes no wait for a mutex. -/
theorem StepCases.waitsFor (hs : Sched c) (hstep : StepCases c a c' o) (htick : a ≠ .tick)
    (hcreate : ∀ m, a.createsMutex m = false) (hunlock : ∀ m, a ≠ .call (.mutexUnlock m))
    (hlock : ∀ source m timeout deadline r, a = .proceed source →
      c.pc c.current ≠ .entered (.mutexLock m timeout deadline) r) :
    c'.kernel.WaitsFor = c.kernel.WaitsFor := by
  have hwaits : ∀ m u, c'.kernel.WaitsAt (mutexPlace m) u ↔ c.kernel.WaitsAt (mutexPlace m) u := by
    intro m u
    constructor
    · intro hon
      rcases hstep.waitsAt hs hon with hold | ⟨source, w, r, ha, -, hpc, hat⟩
      · exact hold
      · obtain ⟨timeout, deadline, rfl⟩ := waitsAt_mutexPlace_iff.mp hat
        exact absurd hpc (hlock source m timeout deadline r ha)
    · intro hon
      rw [Kernel.WaitsAt, hstep.mutexWait_kept hs htick (hunlock m) hon]
      exact hon
  funext u t
  rw [waitsFor_iff hs, waitsFor_iff (hs.step hstep), hstep.taskCount]
  refine propext (and_congr_right fun _ => and_congr_right fun _ => exists_congr fun m => ?_)
  obtain ⟨next, hrecord⟩ := step_mutex hstep m
  rw [onMutex_other (hcreate m) (hunlock m) fun source => hlock source m] at hrecord
  rw [hwaits, hrecord]
  exact Iff.rfl

end Waits

/-! ## When a step keeps the balance -/

/-- The waits of the tasks that still wait. -/
def Kernel.WaitsOn (k : Kernel) (still : Nat → Prop) (u t : Nat) : Prop :=
  k.WaitsFor u t ∧ still u

/-- The priority of task `i` is its own base priority or that of a task that
still waits for it, directly or through others. -/
def Kernel.Accounted (k : Kernel) (still : Nat → Prop) (i : Nat) : Prop :=
  ∃ j, ReflTransGen (k.WaitsOn still) j i ∧ k.basePrio j = k.prio i

/-- The wait of task `u` outlasts the next tick. -/
def Kernel.Outlasts (k : Kernel) (u : Nat) : Prop :=
  ¬(k.view u).deadline.Expired (k.gKernelTicks + 1)

/-- The critical section of a lock boosts nobody on behalf of a caller that
does not wait then, and passes no waiter over that is stronger. -/
structure Kernel.LockAccounted (k : Kernel) (m : Ptr) (timeout : UInt32)
    (deadline : TaskWaitDeadline) : Prop where
  acquired : (k.mutexes m).locked = 0 → m ≠ 0 → ∀ u < k.taskCount,
    k.WaitsAt (mutexPlace m) u → k.prio u ≤ k.prio k.gCurrentTaskIndex
  boosted : (k.mutexes m).locked ≠ 0 → (k.mutexes m).owner ≠ k.gCurrentTaskIndex →
    timeout ≠ 0 → m = 0 ∨ deadline.Expired k.gKernelTicks →
    ∀ i < k.taskCount, ReflTransGen k.WaitsFor (k.mutexes m).owner i →
      k.prio k.gCurrentTaskIndex ≤ k.prio i

/-- Base priorities account for the priorities behind the step. Three steps can
fail this: a tick while tasks that go on waiting wait for one another in a
circle, the creation anew of a locked mutex, and a lock that boosts for a
caller that does not wait or takes the mutex ahead of stronger waiters. -/
def Cfg.Accounts (c : Cfg) : Action → Prop
  | .tick => ∀ i < c.kernel.taskCount, TransGen (c.kernel.WaitsOn c.kernel.Outlasts) i i →
      c.kernel.Accounted c.kernel.Outlasts i
  | .call (.mutexCreateRecursiveStatic m) => (c.kernel.mutexes m).locked ≠ 0 →
      ∀ i < c.kernel.taskCount, ReflTransGen c.kernel.WaitsFor (c.kernel.mutexes m).owner i →
        c.kernel.Accounted (fun u => ¬c.kernel.WaitsAt (mutexPlace m) u) i
  | .proceed _ => ∀ m timeout deadline r,
      c.pc c.current = .entered (.mutexLock m timeout deadline) r →
        c.kernel.LockAccounted m timeout deadline
  | _ => True

section Accounts

variable {c c' : Cfg} {o : Observation} {m : Ptr} {timeout : UInt32}
  {deadline : TaskWaitDeadline} {r : Bool}

/-- The running task of a critical section waits for nobody. -/
theorem not_waitsFor_current (hs : Sched c) (hcur : ∀ p, ¬c.kernel.WaitsAt p c.current) (t : Nat) :
    ¬c.kernel.WaitsFor c.current t := by
  intro hwaits
  obtain ⟨-, -, m, -, hon, -⟩ := (waitsFor_iff hs).mp hwaits
  exact hcur _ hon

theorem tick_balanced_iff (hstep : StepCases c .tick c' o) (hbalanced : c.kernel.Balanced) :
    c'.kernel.Balanced ↔ c.Accounts .tick := by
  cases hstep with
  | thread _ _ hseg => cases hseg
  | @tick k _ hk =>
      have hwaits : k.WaitsFor = c.kernel.WaitsOn c.kernel.Outlasts := by
        funext u t
        exact propext (tickTasks_waitsFor_iff hk)
      rw [tickTasks_balanced_iff hk hbalanced, hwaits]
      exact Iff.rfl

/-- The mutex becomes that of the running task, which nobody waits for until
then. -/
theorem acquired_balanced_iff (hs : Sched c) (hs' : Sched c') (hfree : (c.kernel.mutexes m).locked = 0)
    (hcur : ∀ p, ¬c.kernel.WaitsAt p c.current)
    (hkernel : c'.kernel = c.kernel.setMutex m ((c.kernel.mutexes m).lockedBy c.current))
    (hbalanced : c.kernel.Balanced) :
    c'.kernel.Balanced ↔ (m ≠ 0 → ∀ u < c.kernel.taskCount, c.kernel.WaitsAt (mutexPlace m) u →
      c.kernel.prio u ≤ c.kernel.prio c.current) := by
  have hwaits : ∀ u t, c'.kernel.WaitsFor u t ↔ c.kernel.WaitsFor u t
      ∨ (u < c.kernel.taskCount ∧ m ≠ 0 ∧ c.kernel.WaitsAt (mutexPlace m) u ∧ t = c.current) := by
    intro u t
    rw [waitsFor_iff hs, waitsFor_iff hs', hkernel]
    simp only [setMutex_mutexes]
    constructor
    · rintro ⟨hu, ht, m', hm', hon, hlocked, howner⟩
      by_cases heq : m' = m
      · subst heq
        rw [if_pos rfl] at howner
        exact Or.inr ⟨hu, hm', hon, howner.symm⟩
      · rw [if_neg heq] at hlocked howner
        exact Or.inl ⟨hu, ht, m', hm', hon, hlocked, howner⟩
    · rintro (⟨hu, ht, m', hm', hon, hlocked, howner⟩ | ⟨hu, hm, hon, rfl⟩)
      · have hne : m' ≠ m := fun heq => hlocked (heq ▸ hfree)
        exact ⟨hu, ht, m', hm', hon, by rwa [if_neg hne], by rwa [if_neg hne]⟩
      · refine ⟨hu, hs.current_lt, m, hm, hon, ?_, ?_⟩
        · rw [if_pos rfl]
          simp [JrtMutex.lockedBy]
        · rw [if_pos rfl]
          rfl
  have hcount : c'.kernel.taskCount = c.kernel.taskCount := by rw [hkernel]; simp
  have hprio : PrioFrame c.kernel c'.kernel := by rw [hkernel]; exact setMutex_prioFrame _ _ _
  constructor
  · intro hafter hm u hu hon
    have hedge : c'.kernel.WaitsFor u c.current := (hwaits u _).mpr (Or.inr ⟨hu, hm, hon, rfl⟩)
    have hle := (hafter _ hedge.2.1).le (hafter u hedge.1) (.single hedge)
    rwa [hprio.1] at hle
  · intro hweak i hi
    rw [hcount] at hi
    rw [hprio.1, hprio.2]
    have hsink := not_waitsFor_current hs hcur
    have hsink' : ∀ t, ¬c'.kernel.WaitsFor c.current t := fun t h => by
      rcases (hwaits _ t).mp h with hold | ⟨-, -, hon, -⟩
      · exact hsink t hold
      · exact hcur _ hon
    refine balancedAt_of_rewired (S := c.kernel.table) (T := {c.current}) hbalanced
      (fun u t h _ => Nat.lt_of_lt_of_eq h.1 hcount) (fun u t h hu => absurd (hu ▸ h) (hsink t))
      (fun u t h hu => hsink' t (hu ▸ h)) (fun u t ht => ?_) (fun _ _ => rfl) ?_ hi
    · exact (hwaits u t).trans (or_iff_left fun hnew => ht hnew.2.2.2)
    · rintro x hx rfl
      have hlocal := hbalanced.settled c.current hx
      constructor
      · rcases hlocal.1 with hbase | ⟨j, hj, hvalue⟩
        · exact Or.inl hbase
        · exact Or.inr ⟨j, (hwaits j _).mpr (Or.inl hj), hvalue⟩
      · rintro p (rfl | ⟨j, hj, rfl⟩)
        · exact hlocal.covers.base_le
        · rcases (hwaits j _).mp hj with hold | ⟨hu, hm, hon, -⟩
          · exact hlocal.covers.le hold
          · exact hweak hm j hu hon

/-- Waits stay as they are where no record changes hands. -/
theorem waitsFor_of_records {k k' : Kernel} (hview : k'.view = k.view)
    (hcount : k'.taskCount = k.taskCount)
    (hrecords : ∀ a, (k'.mutexes a).locked = (k.mutexes a).locked
      ∧ (k'.mutexes a).owner = (k.mutexes a).owner) : k'.WaitsFor = k.WaitsFor := by
  have hblocking : ∀ u, (blockingMutex k' u).locked = (blockingMutex k u).locked
      ∧ (blockingMutex k' u).owner = (blockingMutex k u).owner := by
    intro u
    rw [blockingMutex, blockingMutex, ← view_waitObject, ← view_waitObject, hview]
    exact hrecords _
  funext u t
  rw [Kernel.WaitsFor, Kernel.WaitsFor, hcount, waitsForOwner_iff, waitsForOwner_iff,
    blockedOnMutex_congr hview, (hblocking u).1, (hblocking u).2]

theorem setRecursion_waitsFor (k : Kernel) (m : Ptr) (recursion : UInt32) :
    (k.setMutex m ((k.mutexes m).withRecursion recursion)).WaitsFor = k.WaitsFor := by
  refine waitsFor_of_records rfl (by simp) fun a => ?_
  rw [setMutex_mutexes]
  split
  · next heq =>
      rw [heq]
      exact ⟨rfl, rfl⟩
  · exact ⟨rfl, rfl⟩

/-- The waits behind the beginning of one: at a mutex of another task. -/
theorem waitBegun_waitsFor (k : Kernel) (m : Ptr) (task : Nat) (deadline : TaskWaitDeadline)
    (htask : task < k.taskCount) (hidle : ∀ t, ¬k.WaitsFor task t)
    (hlocked : (k.mutexes m).locked ≠ 0) (u t : Nat) :
    (taskWaitBeginUntil k task (.ptr m) .mutex deadline).WaitsFor u t
      ↔ k.WaitsFor u t ∨ (u = task ∧ m ≠ 0 ∧ (k.mutexes m).owner = t ∧ t < k.taskCount) := by
  have hview := taskWaitBeginUntil_view k task (.ptr m) .mutex deadline
  have hmutexes : (taskWaitBeginUntil k task (.ptr m) .mutex deadline).mutexes = k.mutexes := by
    simp
  have hcount : (taskWaitBeginUntil k task (.ptr m) .mutex deadline).taskCount = k.taskCount := by
    simp
  by_cases hu : u = task
  · subst hu
    have hself : (taskWaitBeginUntil k u (.ptr m) .mutex deadline).view u
        = ((k.tasks u).waitBegun (.ptr m) .mutex deadline).waitView := by
      rw [hview, Function.update_self]
    have hobject : ((taskWaitBeginUntil k u (.ptr m) .mutex deadline).tasks u).waitObject
        = .ptr m := congrArg WaitView.waitObject hself
    have hstate : ((taskWaitBeginUntil k u (.ptr m) .mutex deadline).tasks u).state
        = .blocked := congrArg WaitView.state hself
    have hkind : ((taskWaitBeginUntil k u (.ptr m) .mutex deadline).tasks u).waitKind
        = .mutex := congrArg WaitView.waitKind hself
    have hnull : WaitObject.ptr m ≠ .null ↔ m ≠ 0 := by simp [WaitObject.null]
    rw [Kernel.WaitsFor, waitsForOwner_iff, blockedOnMutex, blockingMutex, hobject, hstate, hkind,
      hmutexes, hcount]
    simp only [hidle, false_or, beq_self_eq_true, Bool.true_and, bne_iff_ne, hnull, true_and,
      WaitObject.mutexPtr]
    constructor
    · rintro ⟨-, ht, hm, -, howner⟩
      exact ⟨hm, howner, ht⟩
    · rintro ⟨hm, howner, ht⟩
      exact ⟨htask, ht, hm, hlocked, howner⟩
  · have hsame : (taskWaitBeginUntil k task (.ptr m) .mutex deadline).view u = k.view u := by
      rw [hview, Function.update_of_ne hu]
    rw [waitsFor_iff_of_view hsame hmutexes hcount]
    exact (or_iff_left fun hnew => hu hnew.1).symm

theorem boosted_waitsFor (k : Kernel) (owner p : Nat) :
    (taskInheritPriority k owner p).WaitsFor = k.WaitsFor
      ∧ (taskInheritPriority k owner p).taskCount = k.taskCount
      ∧ (taskInheritPriority k owner p).basePrio = k.basePrio :=
  have h := taskInheritPriority_reprioritized k owner p
  ⟨h.kept Kernel.WaitsFor setPriority_waitsFor, h.frame.1,
    h.kept Kernel.basePrio setPriority_basePrio⟩

/-- A boost ahead of a wait: along the new edge it is on the caller's behalf,
and without one it has to change nothing. -/
theorem blocked_balanced_iff {k' : Kernel} (hs : Sched c) (hsink : ∀ t, ¬c.kernel.WaitsFor c.current t)
    (hlocked : (c.kernel.mutexes m).locked ≠ 0)
    (hkernel : k' = taskWaitBeginUntil (taskInheritPriority c.kernel (c.kernel.mutexes m).owner
      (c.kernel.prio c.current)) c.current (.ptr m) .mutex deadline)
    (hbalanced : c.kernel.Balanced) :
    k'.Balanced ↔ m = 0 → ∀ i < c.kernel.taskCount,
      ReflTransGen c.kernel.WaitsFor (c.kernel.mutexes m).owner i →
        c.kernel.prio c.current ≤ c.kernel.prio i := by
  obtain ⟨hwaits, hcount, hbase⟩ := boosted_waitsFor c.kernel (c.kernel.mutexes m).owner
    (c.kernel.prio c.current)
  have hbegun := taskWaitBeginUntil_prioFrame
    (taskInheritPriority c.kernel (c.kernel.mutexes m).owner (c.kernel.prio c.current))
    c.current (.ptr m) .mutex deadline
  have hraised : ∀ i < c.kernel.taskCount,
      (ReflTransGen c.kernel.WaitsFor (c.kernel.mutexes m).owner i →
        k'.prio i = max (c.kernel.prio i) (c.kernel.prio c.current))
      ∧ (¬ReflTransGen c.kernel.WaitsFor (c.kernel.mutexes m).owner i →
        k'.prio i = c.kernel.prio i) := by
    intro i hi
    rw [hkernel, hbegun.1]
    exact taskInheritPriority_prio hi
  have hbase' : k'.basePrio = c.kernel.basePrio := by rw [hkernel, hbegun.2, hbase]
  have hcount' : k'.taskCount = c.kernel.taskCount := by
    rw [hkernel]
    simp
  have hedges := waitBegun_waitsFor (taskInheritPriority c.kernel (c.kernel.mutexes m).owner
      (c.kernel.prio c.current)) m c.current deadline
    (by rw [hcount]; exact hs.current_lt) (by rw [hwaits]; exact hsink) (by simpa using hlocked)
  have howned : ((taskInheritPriority c.kernel (c.kernel.mutexes m).owner
      (c.kernel.prio c.current)).mutexes m).owner = (c.kernel.mutexes m).owner := by
    simp
  rw [hwaits, hcount, ← hkernel, howned] at hedges
  -- Without an edge to the caller the boost is on nobody's behalf.
  have hnone : (∀ t, ¬(m ≠ 0 ∧ (c.kernel.mutexes m).owner = t ∧ t < c.kernel.taskCount)) →
      (k'.Balanced ↔ ∀ i < c.kernel.taskCount,
        ReflTransGen c.kernel.WaitsFor (c.kernel.mutexes m).owner i →
          c.kernel.prio c.current ≤ c.kernel.prio i) := by
    intro hno
    refine raised_balanced_iff hbalanced hcount' ?_ hbase' hraised
    funext u t
    exact propext ((hedges u t).trans (or_iff_left fun hnew => hno t hnew.2))
  by_cases hm : m = 0
  · rw [hnone fun _ h => h.1 hm]
    exact ⟨fun h _ => h, fun h => h hm⟩
  · refine iff_of_true ?_ fun heq => absurd heq hm
    by_cases ho : (c.kernel.mutexes m).owner < c.kernel.taskCount
    · refine linked_balanced hbalanced hcount' hs.current_lt (fun u t => ?_) hbase' hraised
      rw [hedges]
      refine or_congr_right (and_congr_right fun _ => ⟨fun h => h.2.1.symm, ?_⟩)
      rintro rfl
      exact ⟨hm, rfl, ho⟩
    · refine (hnone fun t h => ho (h.2.1 ▸ h.2.2)).mpr fun i hi hreach => ?_
      rcases hreach.cases_head with rfl | ⟨b, hedge, -⟩
      · exact absurd hi ho
      · exact absurd hedge.1 ho

theorem lock_balanced_iff (hs : Sched c) (hs' : Sched c')
    (hpc : c.pc c.current = .entered (.mutexLock m timeout deadline) r)
    (hkernel : c'.kernel = (jrtMutexLock c.kernel m timeout deadline false).2)
    (hbalanced : c.kernel.Balanced) :
    c'.kernel.Balanced ↔ c.kernel.LockAccounted m timeout deadline := by
  have hcur : ∀ p, ¬c.kernel.WaitsAt p c.current := fun _ => not_waitsAt_of_entered hs hpc
  have hsink := not_waitsFor_current hs hcur
  have hcurrent : c.kernel.prio c.kernel.currentTask = c.kernel.prio c.current := by
    rw [hs.currentTask]
  have hexit := jrtMutexLock_exit c.kernel m timeout deadline
  generalize hresult : jrtMutexLock c.kernel m timeout deadline false = result at hexit hkernel
  cases hexit with
  | acquired hfree =>
      rw [acquired_balanced_iff hs hs' hfree hcur hkernel hbalanced]
      exact ⟨fun h => ⟨fun _ => h, fun hlocked => absurd hfree hlocked⟩, fun h => h.acquired hfree⟩
  | reentered hlocked howner =>
      refine iff_of_true ?_ ⟨fun hfree => absurd hfree hlocked, fun _ hne => absurd howner hne⟩
      rw [hkernel]
      exact hbalanced.of_same (by simp) (setRecursion_waitsFor _ _ _) (setMutex_prioFrame _ _ _)
  | polled hlocked _ hzero =>
      refine iff_of_true ?_ ⟨fun hfree => absurd hfree hlocked, fun _ _ hne => absurd hzero hne⟩
      rw [hkernel]
      exact hbalanced
  | abandoned hlocked howner htimeout hexpired =>
      obtain ⟨hwaits, hcount, hbase⟩ := boosted_waitsFor c.kernel (c.kernel.mutexes m).owner
        (c.kernel.prio c.kernel.currentTask)
      rw [hkernel, raised_balanced_iff hbalanced hcount hwaits hbase
        fun i hi => taskInheritPriority_prio hi, hcurrent]
      exact ⟨fun h => ⟨fun hfree => absurd hfree hlocked, fun _ _ _ _ => h⟩,
        fun h => h.boosted hlocked howner htimeout (Or.inr hexpired)⟩
  | blocked hlocked howner htimeout hlive =>
      rw [hcurrent, hs.currentTask] at hkernel
      rw [blocked_balanced_iff hs hsink hlocked hkernel hbalanced]
      refine ⟨fun h => ⟨fun hfree => absurd hfree hlocked, fun _ _ _ hwhy => ?_⟩, fun h hm => ?_⟩
      · exact h (hwhy.resolve_right hlive)
      · exact h.boosted hlocked howner htimeout (Or.inl hm)

/-- Task `u` waits for task `t` once the mutex has passed from the running task
to `w`. -/
def Kernel.WaitsOnceHanded (k : Kernel) (m : Ptr) (w u t : Nat) : Prop :=
  k.WaitsFor u t ∧ ¬k.WaitsAt (mutexPlace m) u
    ∨ t = w ∧ u ≠ w ∧ k.WaitsFor u k.gCurrentTaskIndex ∧ k.WaitsAt (mutexPlace m) u

/-- How an unlock leaves the waits and the priorities. -/
inductive UnlockStep (c : Cfg) (m : Ptr) (c' : Cfg) : Prop where
  | kept : ¬c.kernel.FinalUnlock m → c'.kernel.view = c.kernel.view →
      c'.kernel.WaitsFor = c.kernel.WaitsFor → PrioFrame c.kernel c'.kernel → UnlockStep c m c'
  | released : c.kernel.FinalUnlock m → c.kernel.selected (mutexPlace m) = none →
      c'.kernel.view = c.kernel.view → c'.kernel.WaitsFor = c.kernel.WaitsFor →
      Restored c.kernel [c.current] c'.kernel → UnlockStep c m c'
  | handed {w : Nat} : c.kernel.FinalUnlock m → c.kernel.selected (mutexPlace m) = some w →
      c'.kernel.view = Function.update c.kernel.view w ((c.kernel.view w).ended 1) →
      c'.kernel.WaitsFor = c.kernel.WaitsOnceHanded m w →
      Restored c.kernel [c.current, w] c'.kernel → UnlockStep c m c'

/-- Nobody waits for the mutex whose record is written. -/
theorem released_waitsFor {r : JrtMutex} (hs : Sched c) (hs' : Sched c')
    (hcount : c'.kernel.taskCount = c.kernel.taskCount) (hview : c'.kernel.view = c.kernel.view)
    (hmutexes : c'.kernel.mutexes = (c.kernel.setMutex m r).mutexes)
    (hnobody : ∀ u < c.kernel.taskCount, ¬c.kernel.WaitsAt (mutexPlace m) u) :
    c'.kernel.WaitsFor = c.kernel.WaitsFor := by
  funext u t
  have hon : ∀ p, c'.kernel.WaitsAt p u ↔ c.kernel.WaitsAt p u := fun p => by
    rw [Kernel.WaitsAt, Kernel.WaitsAt, hview]
  rw [waitsFor_iff hs, waitsFor_iff hs', hcount, hmutexes]
  refine propext (and_congr_right fun hu => and_congr_right fun _ => exists_congr fun m' => ?_)
  rw [hon]
  refine and_congr_right fun _ => and_congr_right fun hat => ?_
  have hne : m' ≠ m := fun heq => hnobody u hu (heq ▸ hat)
  rw [setMutex_mutexes, if_neg hne]

/-- One of the waiters gets the mutex, and the others wait for it. -/
theorem handed_waitsFor {w : Nat} (hs : Sched c) (hs' : Sched c')
    (hcount : c'.kernel.taskCount = c.kernel.taskCount)
    (hview : c'.kernel.view = Function.update c.kernel.view w ((c.kernel.view w).ended 1))
    (hmutexes : c'.kernel.mutexes
      = (c.kernel.setMutex m ((c.kernel.mutexes m).lockedBy w)).mutexes)
    (hw : w < c.kernel.taskCount) (hon : c.kernel.WaitsAt (mutexPlace m) w)
    (hfinal : c.kernel.FinalUnlock m) :
    c'.kernel.WaitsFor = c.kernel.WaitsOnceHanded m w := by
  funext u t
  have hother : ∀ p, c'.kernel.WaitsAt p u ↔ c.kernel.WaitsAt p u ∧ u ≠ w := by
    intro p
    rw [Kernel.WaitsAt, hview]
    by_cases hu : u = w
    · subst hu
      rw [Function.update_self]
      exact iff_of_false (fun h => by cases h.1) fun h => h.2 rfl
    · rw [Function.update_of_ne hu]
      exact (and_iff_left hu).symm
  rw [Kernel.WaitsOnceHanded, waitsFor_iff hs, waitsFor_iff hs, waitsFor_iff hs', hcount, hmutexes]
  refine propext ⟨?_, ?_⟩
  · rintro ⟨hu, ht, m', hm', hat, hlocked, howner⟩
    obtain ⟨hold, hne⟩ := (hother _).mp hat
    rw [setMutex_mutexes] at hlocked howner
    by_cases hm : m' = m
    · subst hm
      rw [if_pos rfl] at howner
      exact Or.inr ⟨howner.symm, hne, ⟨hu, hs.current_lt, m', hm', hold, hfinal.locked,
        hfinal.owner⟩, hold⟩
    · rw [if_neg hm] at hlocked howner
      exact Or.inl ⟨⟨hu, ht, m', hm', hold, hlocked, howner⟩,
        fun hatm => hm (waitsAt_mutexPlace_unique hold hatm)⟩
  · rintro (⟨⟨hu, ht, m', hm', hold, hlocked, howner⟩, hnot⟩ | ⟨rfl, hne, ⟨hu, -, m', hm', hold,
      -⟩, hatm⟩)
    · have hm : m' ≠ m := fun heq => hnot (heq ▸ hold)
      have hne : u ≠ w := fun heq => hnot (heq ▸ hon)
      refine ⟨hu, ht, m', hm', (hother _).mpr ⟨hold, hne⟩, ?_⟩
      rw [setMutex_mutexes, if_neg hm]
      exact ⟨hlocked, howner⟩
    · obtain rfl := waitsAt_mutexPlace_unique hold hatm
      refine ⟨hu, hw, m', hm', (hother _).mpr ⟨hold, hne⟩, ?_⟩
      rw [setMutex_mutexes, if_pos rfl]
      exact ⟨by simp [JrtMutex.lockedBy], rfl⟩

theorem StepCases.unlockStep (hs : Sched c)
    (hstep : StepCases c (.call (.mutexUnlock m)) c' o) : UnlockStep c m c' := by
  have hs' : Sched c' := hs.step hstep
  obtain ⟨hpc, hpost, -⟩ := hstep.unlock
  have hkernel : c'.kernel = (jrtMutexUnlock c.kernel m false).2 := by rw [hpost]
  have hcur : ∀ p, ¬c.kernel.WaitsAt p c.current := fun _ =>
    not_waitsAt_of_user hs hs.current_lt hpc
  have hsink := not_waitsFor_current hs hcur
  have hexit := jrtMutexUnlock_exit c.kernel m
  rw [← hkernel] at hexit
  generalize hafter : c'.kernel = k at hexit
  cases hexit with
  | refused hnot => exact .kept hnot (by rw [hafter]) (by rw [hafter]) (by rw [hafter]; exact .refl _)
  | nested hnot =>
      refine .kept hnot (by rw [hafter]; rfl) ?_ (by rw [hafter]; exact setMutex_prioFrame _ _ _)
      rw [hafter]
      exact setRecursion_waitsFor _ _ _
  | released hfinal hnone =>
      have hview : c'.kernel.view = c.kernel.view := by rw [hafter]; simp
      have hmutexes : c'.kernel.mutexes
          = (c.kernel.setMutex m (c.kernel.mutexes m).unlocked).mutexes := by
        rw [hafter]
        simp
      have hsame := released_waitsFor hs hs' hstep.taskCount hview hmutexes
        (wakeSelect_eq_none_iff.mp hnone)
      have hwaits : (c.kernel.setMutex m (c.kernel.mutexes m).unlocked).WaitsFor
          = c.kernel.WaitsFor := by
        rw [← hsame]
        exact waitsFor_congr hview.symm hmutexes.symm (by rw [hafter]; simp)
      refine .released hfinal hnone hview hsame ?_
      rw [hafter]
      refine foldl_restored (setMutex_prioFrame _ _ _) (fun x hx => ?_) (fun x hx t => ?_)
      · rw [List.mem_singleton.mp hx]
        exact hs.current_lt
      · rw [hwaits, List.mem_singleton.mp hx]
        exact hsink t
  | @handed w hfinal hselect =>
      obtain ⟨hw, hon, -⟩ := wakeSelect_spec hselect
      have hcw : c.current ≠ w := fun heq => hcur (mutexPlace m) (heq.symm ▸ hon)
      have hview : c'.kernel.view
          = Function.update c.kernel.view w ((c.kernel.view w).ended 1) := by
        rw [hafter, ← taskWaitEnd_view c.kernel w 1 false]
        simp
      have hmutexes : c'.kernel.mutexes
          = (c.kernel.setMutex m ((c.kernel.mutexes m).lockedBy w)).mutexes := by
        rw [hafter]
        simp [Kernel.setMutex]
      have hrewired := handed_waitsFor hs hs' hstep.taskCount hview hmutexes hw hon hfinal
      have hwaits : ((taskWaitEnd c.kernel w 1 false).setMutex m
          ((c.kernel.mutexes m).lockedBy w)).WaitsFor = c'.kernel.WaitsFor := by
        refine waitsFor_congr ?_ ?_ (by rw [hafter]; simp)
        · rw [hafter]
          simp
        · rw [hafter]
          simp
      refine .handed hfinal hselect hview hrewired ?_
      rw [hafter]
      refine foldl_restored ?_ (fun x hx => ?_) (fun x hx t => ?_)
      · exact (taskWaitEnd_prioFrame _ _ _ _).trans (setMutex_prioFrame _ _ _)
      · rcases List.mem_pair.mp hx with rfl | rfl
        · simpa using hs.current_lt
        · simpa using hw
      · rw [hwaits, hrewired]
        rcases List.mem_pair.mp hx with rfl | rfl
        · exact not_or.mpr ⟨fun h => hsink t h.1, fun h => hsink _ h.2.2.1⟩
        · exact not_or.mpr ⟨fun h => h.2 hon, fun h => h.2.1 rfl⟩

/-- An unlock, by the owner or not, and whether or not somebody waits. -/
theorem unlock_balanced (hs : Sched c) (hstep : StepCases c (.call (.mutexUnlock m)) c' o)
    (hbalanced : c.kernel.Balanced) : c'.kernel.Balanced := by
  have hsink := not_waitsFor_current hs fun _ =>
    not_waitsAt_of_user hs hs.current_lt hstep.unlock.1
  cases hstep.unlockStep hs with
  | kept _ _ hwaits hprio => exact hbalanced.of_same hstep.taskCount hwaits hprio
  | released _ _ _ hwaits hrestored =>
      refine hbalanced.rewired hrestored hstep.taskCount (fun u t h hu => ?_) (fun x hx t => ?_)
        fun u t _ => by rw [hwaits]
      · rw [List.mem_singleton.mp hu] at h
        exact absurd h (hsink t)
      · rw [hwaits, List.mem_singleton.mp hx]
        exact hsink t
  | @handed w hfinal hselect _ hrewired hrestored =>
      obtain ⟨-, hon, -⟩ := wakeSelect_spec hselect
      -- Whoever waits at the mutex waits for the running task.
      have hwaiter : ∀ u t, c.kernel.WaitsFor u t → c.kernel.WaitsAt (mutexPlace m) u →
          t = c.current := by
        intro u t h hat
        obtain ⟨-, -, m', -, hat', -, howner⟩ := (waitsFor_iff hs).mp h
        rw [waitsAt_mutexPlace_unique hat' hat] at howner
        exact howner.symm.trans hfinal.owner
      refine hbalanced.rewired hrestored hstep.taskCount (fun u t h hu => ?_) (fun x hx t => ?_)
        fun u t ht => ?_
      · rcases List.mem_pair.mp hu with rfl | rfl
        · exact absurd h (hsink t)
        · exact List.mem_pair.mpr (Or.inl (hwaiter _ _ h hon))
      · rw [hrewired]
        rcases List.mem_pair.mp hx with rfl | rfl
        · exact not_or.mpr ⟨fun h => hsink t h.1, fun h => hsink _ h.2.2.1⟩
        · exact not_or.mpr ⟨fun h => h.2 hon, fun h => h.2.1 rfl⟩
      · have hnot := not_or.mp (mt List.mem_pair.mpr ht)
        rw [hrewired, Kernel.WaitsOnceHanded, or_iff_left fun h => hnot.2 h.1]
        exact and_iff_left_of_imp fun h hat => hnot.1 (hwaiter u t h hat)

/-- The waits for the mutex end where it is created anew: its owner is none,
and its tasks wait on. -/
theorem created_waitsFor (hs : Sched c) (hs' : Sched c')
    (hstep : StepCases c (.call (.mutexCreateRecursiveStatic m)) c' o) (u t : Nat) :
    c'.kernel.WaitsFor u t
      ↔ c.kernel.WaitsOn (fun u => ¬c.kernel.WaitsAt (mutexPlace m) u) u t := by
  have hcount := hstep.taskCount
  have hon : ∀ p u, c'.kernel.WaitsAt p u ↔ c.kernel.WaitsAt p u := by
    have hview : c'.kernel.view = c.kernel.view := by
      cases hstep with
      | thread _ _ hseg =>
          exact view_eq_of_tasks_eq (jrtMutexCreateRecursiveStatic_frame
            (segment_createsMutex hseg)).2
    intro p u
    rw [Kernel.WaitsAt, Kernel.WaitsAt, hview]
  have hrecord : ∀ m', m' ≠ m → (c'.kernel.mutexes m').locked = (c.kernel.mutexes m').locked
      ∧ (c'.kernel.mutexes m').owner = (c.kernel.mutexes m').owner := by
    intro m' hne
    obtain ⟨next, hrecord⟩ := step_mutex hstep m'
    simp only [Action.onMutex, Call.onMutex, if_neg hne] at hrecord
    rw [hrecord]
    exact ⟨rfl, rfl⟩
  have hfree : (c'.kernel.mutexes m).locked = 0 := by
    obtain ⟨next, hrecord⟩ := step_mutex hstep m
    simp only [Action.onMutex, Call.onMutex, if_true] at hrecord
    rw [hrecord]
    rfl
  rw [Kernel.WaitsOn, waitsFor_iff hs, waitsFor_iff hs', hcount]
  constructor
  · rintro ⟨hu, ht, m', hm', hat, hlocked, howner⟩
    have hne : m' ≠ m := fun heq => hlocked (heq ▸ hfree)
    obtain ⟨hl, ho⟩ := hrecord m' hne
    refine ⟨⟨hu, ht, m', hm', (hon _ u).mp hat, hl ▸ hlocked, ho ▸ howner⟩, fun hatm => hne ?_⟩
    exact waitsAt_mutexPlace_unique ((hon _ u).mp hat) hatm
  · rintro ⟨⟨hu, ht, m', hm', hat, hlocked, howner⟩, hnot⟩
    have hne : m' ≠ m := fun heq => hnot (heq ▸ hat)
    obtain ⟨hl, ho⟩ := hrecord m' hne
    exact ⟨hu, ht, m', hm', (hon _ u).mpr hat, hl.symm ▸ hlocked, ho.trans howner⟩

/-- A creation ends the waits for the mutex if it was locked. -/
theorem create_balanced_iff (hs : Sched c) (hs' : Sched c')
    (hstep : StepCases c (.call (.mutexCreateRecursiveStatic m)) c' o)
    (hbalanced : c.kernel.Balanced) :
    c'.kernel.Balanced ↔ c.Accounts (.call (.mutexCreateRecursiveStatic m)) := by
  have hprio : PrioFrame c.kernel c'.kernel :=
    hstep.prioFrame (fun h => nomatch h) (fun _ h => nomatch h) fun _ _ _ _ _ h => nomatch h
  have hcount := hstep.taskCount
  have hwaits := created_waitsFor hs hs' hstep
  have hgraph : c'.kernel.WaitsFor
      = c.kernel.WaitsOn fun u => ¬c.kernel.WaitsAt (mutexPlace m) u := by
    funext u t
    exact propext (hwaits u t)
  constructor
  · intro hafter _ i hi _
    obtain ⟨j, hj, hbase⟩ := (hafter i (hcount ▸ hi)).1
    rw [hgraph] at hj
    exact ⟨j, hj, by rw [← hprio.1, ← hprio.2, hbase]⟩
  · intro haccounts i hi
    rw [hcount] at hi
    rw [hprio.1, hprio.2]
    by_cases hchain : (c.kernel.mutexes m).locked ≠ 0
        ∧ ReflTransGen c.kernel.WaitsFor (c.kernel.mutexes m).owner i
    · refine (hbalanced i hi).of_subgraph (fun u t h => ((hwaits u t).mp h).1) ?_
      rw [hgraph]
      exact haccounts hchain.1 i hi hchain.2
    · -- No wait that ends is on a path to the task.
      have hends : ∀ u t, c.kernel.WaitsFor u t → c.kernel.WaitsAt (mutexPlace m) u →
          (c.kernel.mutexes m).locked ≠ 0 ∧ t = (c.kernel.mutexes m).owner := by
        intro u t h hat
        obtain ⟨-, -, m', -, hat', hlocked, howner⟩ := (waitsFor_iff hs).mp h
        obtain rfl := waitsAt_mutexPlace_unique hat' hat
        exact ⟨hlocked, howner.symm⟩
      refine (hbalanced i hi).congr rfl fun j => ⟨fun hj => ?_, fun hj => ?_⟩
      · exact ReflTransGen.mono (fun u t h => ((hwaits u t).mp h).1) _ _ hj
      · refine reaches_off (S := {x | (c.kernel.mutexes m).locked ≠ 0
            ∧ ReflTransGen c.kernel.WaitsFor (c.kernel.mutexes m).owner x})
          (fun u t h ht hu => ht ⟨hu.1, hu.2.tail h⟩) (fun u t ht h => ?_) hj hchain
        refine (hwaits u t).mpr ⟨h, fun hat => ht ?_⟩
        obtain ⟨hlocked, rfl⟩ := hends u t h hat
        exact ⟨hlocked, .refl⟩

/-- Every step keeps the balance exactly if base priorities account for the
priorities behind it. -/
theorem StepCases.balanced_iff {a : Action} (hs : Sched c) (hstep : StepCases c a c' o)
    (hbalanced : c.kernel.Balanced) : c'.kernel.Balanced ↔ c.Accounts a := by
  have hs' : Sched c' := hs.step hstep
  by_cases htick : a = .tick
  · subst htick
    exact tick_balanced_iff hstep hbalanced
  by_cases hunlock : ∃ m, a = .call (.mutexUnlock m)
  · obtain ⟨m, rfl⟩ := hunlock
    exact iff_of_true (unlock_balanced hs hstep hbalanced) trivial
  by_cases hcreate : ∃ m, a = .call (.mutexCreateRecursiveStatic m)
  · obtain ⟨m, rfl⟩ := hcreate
    exact create_balanced_iff hs hs' hstep hbalanced
  by_cases hlock : ∃ source m timeout deadline r, a = .proceed source
      ∧ c.pc c.current = .entered (.mutexLock m timeout deadline) r
  · obtain ⟨source, m, timeout, deadline, r, rfl, hpc⟩ := hlock
    rw [lock_balanced_iff hs hs' hpc (hstep.lock hpc).2 hbalanced]
    constructor
    · intro h m' timeout' deadline' r' hpc'
      obtain ⟨hcall, -⟩ := Pc.entered.inj (hpc.symm.trans hpc')
      obtain ⟨rfl, rfl, rfl⟩ := WaitCall.mutexLock.inj hcall
      exact h
    · exact fun h => h m timeout deadline r hpc
  -- No other step touches a priority or a wait for a mutex.
  have hnolock : ∀ source m timeout deadline r, a = .proceed source →
      c.pc c.current ≠ .entered (.mutexLock m timeout deadline) r :=
    fun source m timeout deadline r ha hpc => hlock ⟨source, m, timeout, deadline, r, ha, hpc⟩
  have hnounlock : ∀ m, a ≠ .call (.mutexUnlock m) := fun m ha => hunlock ⟨m, ha⟩
  have hnocreate : ∀ m, a.createsMutex m = false := by
    intro m
    cases a with
    | call made =>
        cases made with
        | mutexCreateRecursiveStatic b => exact absurd ⟨b, rfl⟩ hcreate
        | _ => rfl
    | _ => rfl
  refine iff_of_true ?_ ?_
  · exact hbalanced.of_same hstep.taskCount
      (hstep.waitsFor hs htick hnocreate hnounlock hnolock)
      (hstep.prioFrame htick hnounlock hnolock)
  · cases a with
    | tick => exact absurd rfl htick
    | call made =>
        cases made with
        | mutexCreateRecursiveStatic b => exact absurd ⟨b, rfl⟩ hcreate
        | _ => trivial
    | proceed source =>
        intro m timeout deadline r hpc
        exact absurd hpc (hnolock source m timeout deadline r rfl)
    | _ => trivial

end Accounts

/-! ## Runs -/

/-- Behind `JRT_KernelInit` nobody waits for a mutex, and every task has its
base priority. -/
theorem Boot.balanced {img : Image} {c : Cfg} (h : Boot img c) : c.kernel.Balanced := by
  obtain ⟨k₀, config, k, hinit, rfl⟩ := h
  have hbooted := jrtKernelInit_booted hinit
  refine balanced_of_no_waits (fun u t hwaits => ?_) hbooted.prio_eq
  have hblocked : (k.view u).state = .blocked := by
    by_contra hstate
    exact not_waitsFor_of_state hstate hwaits
  rcases hbooted.view_state hwaits.1 with rfl | hrunning | hready
  · refine not_waitsFor_of_kind ?_ hwaits
    change (k.view _).waitKind ≠ .mutex
    rw [hbooted.view_service.2.2]
    decide
  · rw [hrunning] at hblocked
    cases hblocked
  · rw [hready] at hblocked
    cases hblocked

/-- The steps up to the first one that base priorities do not account for, and
no others, leave the priorities balanced. -/
theorem Run.balanced_iff {img : Image} {c₀ c : Cfg} {tr : List Transition} (hboot : Boot img c₀)
    (hrun : Run c₀ tr c) :
    ((∀ x ∈ tr, x.pre.Accounts x.action) ↔ ∀ x ∈ tr, x.post.kernel.Balanced)
      ∧ ((∀ x ∈ tr, x.post.kernel.Balanced) → c.kernel.Balanced) := by
  have hs : Sched c₀ := Reachable.sched ⟨c₀, [], hboot, .nil⟩
  exact hrun.kept_iff Sched (fun c => c.kernel.Balanced) Cfg.Accounts
    (fun hs hstep => hs.step hstep) (fun hs hstep hbalanced => hstep.balanced_iff hs hbalanced) hs
    hboot.balanced

/-- The steps that move a priority or a wait for a mutex, as far as the kernel
means them to keep the balance: a lock that takes the mutex from no stronger
waiter, takes it again or blocks, an unlock by the owner, and a tick. -/
inductive Cfg.Inherits (c : Cfg) : Action → Prop where
  | acquires {source : Nat → UInt8} {m : Ptr} {timeout : UInt32} {deadline : TaskWaitDeadline}
      {r : Bool} : c.pc c.current = .entered (.mutexLock m timeout deadline) r →
      (c.kernel.mutexes m).locked = 0 →
      (∀ u < c.kernel.taskCount, c.kernel.WaitsAt (mutexPlace m) u →
        c.kernel.prio u ≤ c.kernel.prio c.current) → c.Inherits (.proceed source)
  | reenters {source : Nat → UInt8} {m : Ptr} {timeout : UInt32} {deadline : TaskWaitDeadline}
      {r : Bool} : c.pc c.current = .entered (.mutexLock m timeout deadline) r →
      (c.kernel.mutexes m).locked ≠ 0 → (c.kernel.mutexes m).owner = c.current →
      c.Inherits (.proceed source)
  | blocks {source : Nat → UInt8} {m : Ptr} {timeout : UInt32} {deadline : TaskWaitDeadline}
      {r : Bool} : c.pc c.current = .entered (.mutexLock m timeout deadline) r → m ≠ 0 →
      (c.kernel.mutexes m).locked ≠ 0 → (c.kernel.mutexes m).owner ≠ c.current →
      ¬deadline.Expired c.kernel.gKernelTicks → c.Inherits (.proceed source)
  | unlocks {m : Ptr} : (c.kernel.mutexes m).owner = c.current → c.Inherits (.call (.mutexUnlock m))
  | ticks : c.Inherits .tick

theorem Cfg.Inherits.accounts {c : Cfg} {a : Action} (h : c.Inherits a)
    (hacyclic : ∀ i, ¬TransGen c.kernel.WaitsFor i i) : c.Accounts a := by
  -- The one lock the program counter names.
  have hlock : ∀ {source m timeout deadline r},
      c.pc c.current = .entered (.mutexLock m timeout deadline) r →
      c.kernel.LockAccounted m timeout deadline → c.Accounts (.proceed source) := by
    intro source m timeout deadline r hpc haccounted m' timeout' deadline' r' hpc'
    obtain ⟨hcall, -⟩ := Pc.entered.inj (hpc.symm.trans hpc')
    obtain ⟨rfl, rfl, rfl⟩ := WaitCall.mutexLock.inj hcall
    exact haccounted
  cases h with
  | acquires hpc hfree hweak =>
      exact hlock hpc ⟨fun _ _ => hweak, fun hlocked => absurd hfree hlocked⟩
  | reenters hpc hlocked howner =>
      exact hlock hpc ⟨fun hfree => absurd hfree hlocked, fun _ hne => absurd howner hne⟩
  | blocks hpc hm hlocked _ hlive =>
      exact hlock hpc ⟨fun hfree => absurd hfree hlocked,
        fun _ _ _ hwhy => absurd hwhy (not_or.mpr ⟨hm, hlive⟩)⟩
  | unlocks => trivial
  | ticks =>
      intro i _ hcycle
      exact absurd (TransGen.mono (fun _ _ h => h.1) _ _ hcycle) (hacyclic i)

/-- Every task starts with the greatest base priority among itself and the
tasks transitively blocked on mutexes it owns, and where the waits form no
cycle each inheriting and restoring step keeps it so. -/
theorem inheritance_balanced (img : Image) : (∀ c, Boot img c → c.kernel.Balanced)
    ∧ ∀ c a c' o, Reachable img c → c.kernel.Balanced → (∀ i, ¬TransGen c.kernel.WaitsFor i i) →
      c.Inherits a → step c a = some (c', o) → c'.kernel.Balanced :=
  ⟨fun _ hboot => hboot.balanced, fun _ _ _ _ hreachable hbalanced hacyclic hinherits hstep =>
    ((step_cases hstep).balanced_iff hreachable.sched hbalanced).mpr (hinherits.accounts hacyclic)⟩

/-- A task of priority 2 is in a lock of the mutex of one of priority 1. -/
def inheritActions : List Action :=
  [.start, .call (.taskDelay 1), .pendsv (sampleSp 0), .call (.mutexCreateRecursiveStatic 16),
    .call (.mutexLock 16 0), .proceed fun _ => 0, .tick, .pendsv (sampleSp 1),
    .call (.mutexLock 16 1)]

/-- A test that nobody waits for a mutex and every task has its base
priority. -/
def Kernel.restTest (k : Kernel) : Bool :=
  (List.range k.taskCount).all fun u => k.prio u == k.basePrio u
    && (List.range k.taskCount).all fun t => decide ¬k.WaitsFor u t

theorem balanced_of_restTest {k : Kernel} (h : k.restTest = true) :
    k.Balanced ∧ ∀ i, ¬TransGen k.WaitsFor i i := by
  simp only [Kernel.restTest, List.all_eq_true, List.mem_range, Bool.and_eq_true, beq_iff_eq,
    decide_eq_true_eq] at h
  have hwaits : ∀ u t, ¬k.WaitsFor u t := fun u t hedge => (h u hedge.1).2 t hedge.2.1 hedge
  refine ⟨balanced_of_no_waits hwaits fun i hi => (h i hi).1, fun i hcycle => ?_⟩
  obtain ⟨y, hfirst, -⟩ := TransGen.head'_iff.mp hcycle
  exact hwaits i y hfirst

theorem inheritance_balanced_sample : ∃ tr c c' o, sampleRun [2, 1] inheritActions = some (tr, c)
    ∧ step c (.proceed fun _ => 0) = some (c', o) ∧ c.kernel.prio 1 = 1 ∧ c'.kernel.prio 1 = 2
    ∧ (c'.kernel.view 0).state = .blocked ∧ c'.kernel.Balanced := by
  have hsome : ((sampleRun [2, 1] inheritActions).any fun r =>
      (step r.2 (.proceed fun _ => 0)).any fun r' =>
        r.2.kernel.restTest && decide (r.2.pc r.2.current
            = .entered (.mutexLock 16 1 ⟨1, 2, 0⟩) false
          ∧ (r.2.kernel.mutexes 16).locked ≠ 0 ∧ (r.2.kernel.mutexes 16).owner ≠ r.2.current
          ∧ r.2.kernel.gKernelTicks = 1 ∧ r.2.kernel.prio 1 = 1 ∧ r'.1.kernel.prio 1 = 2
          ∧ (r'.1.kernel.view 0).state = .blocked)) = true := by
    decide +kernel
  obtain ⟨⟨tr, c⟩, hsample, hnext⟩ := (Option.any_eq_true _ _).mp hsome
  obtain ⟨⟨c', o⟩, hstep, hchecks⟩ := (Option.any_eq_true _ _).mp hnext
  simp only [Bool.and_eq_true, decide_eq_true_eq] at hchecks
  obtain ⟨hrest, hpc, hlocked, howner, hticks, hbefore, hbehind, hblocked⟩ := hchecks
  obtain ⟨hbalanced, hacyclic⟩ := balanced_of_restTest hrest
  have hblocks : c.Inherits (.proceed fun _ => 0) :=
    .blocks hpc (by decide) hlocked howner (by rw [hticks]; decide)
  exact ⟨tr, c, c', o, hsample, hstep, hbefore, hbehind, hblocked,
    (inheritance_balanced .sample).2 c _ c' o (sampleRun_reachable hsample) hbalanced hacyclic
      hblocks hstep⟩

/-- The strongest of three tasks creates its mutex anew while the second waits
for it, and the weakest takes it. -/
def recreateActions : List Action :=
  [.start, .call (.mutexCreateRecursiveStatic 16), .call (.mutexLock 16 0), .proceed fun _ => 0,
    .call (.taskDelay 1), .pendsv (sampleSp 0), .call (.mutexLock 16 jrtWaitForever),
    .proceed fun _ => 0, .proceed fun _ => 0, .pendsv (sampleSp 1), .tick, .pendsv (sampleSp 2),
    .call (.mutexCreateRecursiveStatic 16), .call (.taskDelay 5), .pendsv (sampleSp 0),
    .call (.mutexLock 16 0)]

/-- A lock that acquires a free mutex with a stronger waiter inherits nothing. -/
theorem acquires_below_waiter : ∃ tr c c' o, sampleRun [3, 2, 1] recreateActions = some (tr, c)
    ∧ Reachable .sample c ∧ c.kernel.Balanced ∧ (∀ i, ¬TransGen c.kernel.WaitsFor i i)
    ∧ c.current = 2 ∧ step c (.proceed fun _ => 0) = some (c', o) ∧ o.result = some 1
    ∧ c'.kernel.WaitsFor 1 2 ∧ c'.kernel.prio 2 = 1 ∧ c'.kernel.basePrio 1 = 2
    ∧ ¬c'.kernel.Balanced := by
  have hsome : ((sampleRun [3, 2, 1] recreateActions).any fun r =>
      (step r.2 (.proceed fun _ => 0)).any fun r' =>
        r.2.kernel.restTest && decide (r.2.current = 2 ∧ r'.2.result = some 1
          ∧ r'.1.kernel.WaitsFor 1 2 ∧ r'.1.kernel.prio 2 = 1
          ∧ r'.1.kernel.basePrio 1 = 2)) = true := by
    decide +kernel
  obtain ⟨⟨tr, c⟩, hsample, hnext⟩ := (Option.any_eq_true _ _).mp hsome
  obtain ⟨⟨c', o⟩, hstep, hchecks⟩ := (Option.any_eq_true _ _).mp hnext
  simp only [Bool.and_eq_true, decide_eq_true_eq] at hchecks
  obtain ⟨hrest, hcurrent, hresult, hedge, hprio, hbase⟩ := hchecks
  obtain ⟨hbalanced, hacyclic⟩ := balanced_of_restTest hrest
  refine ⟨tr, c, c', o, hsample, sampleRun_reachable hsample, hbalanced, hacyclic, hcurrent, hstep,
    hresult, hedge, hprio, hbase, fun hafter => ?_⟩
  have hle := (hafter 2 hedge.2.1).base_le (.single hedge)
  rw [hprio, hbase] at hle
  exact absurd hle (by decide)

/-- Over every run the priorities are balanced behind every step, the ticks that
time out waiters included, exactly if base priorities account for what each
step leaves; and behind a tick in a balanced state, exactly if each cycle of
waits that the tick leaves has a priority that somebody who still waits
accounts for. -/
theorem timeouts_restore_iff (img : Image) (c₀ c : Cfg) (tr : List Transition)
    (hboot : Boot img c₀) (hrun : Run c₀ tr c) :
    ((∀ x ∈ tr, x.pre.Accounts x.action) ↔ ∀ x ∈ tr, x.post.kernel.Balanced)
      ∧ ∀ c' o, step c .tick = some (c', o) → c.kernel.Balanced →
        (c'.kernel.Balanced ↔ ∀ i < c.kernel.taskCount,
          TransGen (c.kernel.WaitsOn c.kernel.Outlasts) i i →
            c.kernel.Accounted c.kernel.Outlasts i) :=
  ⟨(hrun.balanced_iff hboot).1, fun _ _ hstep => tick_balanced_iff (step_cases hstep)⟩

/-! ## Sample runs -/

/-- A test that is enough for `Cfg.Accounts`: nobody a task waits for waits in
its turn, and the section of a lock finds a mutex nobody waits for, or a wait
ahead of it. -/
def Cfg.accountsTest (c : Cfg) : Action → Bool
  | .tick => (List.range c.kernel.taskCount).all fun u =>
      (List.range c.kernel.taskCount).all fun t =>
        (List.range c.kernel.taskCount).all fun x =>
          decide (c.kernel.WaitsFor u t → ¬c.kernel.WaitsFor t x)
  | .call (.mutexCreateRecursiveStatic m) => (c.kernel.mutexes m).locked == 0
  | .proceed _ =>
      match c.pc c.current with
      | .entered (.mutexLock m _ deadline) _ =>
          if (c.kernel.mutexes m).locked = 0 then
            (List.range c.kernel.taskCount).all fun u =>
              decide ¬c.kernel.WaitsAt (mutexPlace m) u
          else m != 0 && decide ¬deadline.Expired c.kernel.gKernelTicks
      | _ => true
  | _ => true

theorem accounts_of_test {c : Cfg} {a : Action} (h : c.accountsTest a = true) : c.Accounts a := by
  cases a with
  | tick =>
      simp only [Cfg.accountsTest, List.all_eq_true, List.mem_range, decide_eq_true_eq] at h
      intro i _ hcycle
      -- The first and the last wait of a cycle meet.
      have hwaits : ∀ u t, c.kernel.WaitsFor u t → ∀ x, ¬c.kernel.WaitsFor t x :=
        fun u t hut x htx => h u hut.1 t hut.2.1 x htx.2.1 hut htx
      obtain ⟨y, -, hlast⟩ := TransGen.tail'_iff.mp hcycle
      obtain ⟨z, hfirst, -⟩ := TransGen.head'_iff.mp hcycle
      exact absurd hfirst.1 (hwaits y i hlast.1 z)
  | call made =>
      cases made with
      | mutexCreateRecursiveStatic m => exact fun hlocked => absurd (eq_of_beq h) hlocked
      | _ => trivial
  | proceed source =>
      intro m timeout deadline r hpc
      simp only [Cfg.accountsTest, hpc] at h
      split at h
      · next hfree =>
          simp only [List.all_eq_true, List.mem_range, decide_eq_true_eq] at h
          exact ⟨fun _ _ u hu hon => absurd hon (h u hu), fun hlocked => absurd hfree hlocked⟩
      · next hlocked =>
          simp only [Bool.and_eq_true, bne_iff_ne, decide_eq_true_eq] at h
          exact ⟨fun hfree => absurd hfree hlocked,
            fun _ _ _ hwhy => absurd hwhy (not_or.mpr h)⟩
  | _ => trivial

/-- A task of priority 2 waits one tick for a mutex of one of priority 1. -/
def restoreActions : List Action :=
  [.start, .call (.taskDelay 1), .pendsv (sampleSp 0), .call (.mutexCreateRecursiveStatic 16),
    .call (.mutexLock 16 0), .proceed fun _ => 0, .tick, .pendsv (sampleSp 1),
    .call (.mutexLock 16 1), .proceed fun _ => 0, .tick]

theorem timeouts_restore_iff_sample : ∃ tr c, sampleRun [2, 1] restoreActions = some (tr, c)
    ∧ (∃ x ∈ tr, x.action = .tick ∧ x.pre.kernel.prio 1 = 2 ∧ x.post.kernel.prio 1 = 1)
    ∧ ∀ x ∈ tr, x.post.kernel.Balanced := by
  have hsome : ((sampleRun [2, 1] restoreActions).any fun r =>
      (r.1.all fun x => x.pre.accountsTest x.action)
        && r.1.any fun x => x.action.isTick && x.pre.kernel.prio 1 == 2
          && x.post.kernel.prio 1 == 1) = true := by
    decide +kernel
  obtain ⟨⟨tr, c⟩, hsample, hchecks⟩ := (Option.any_eq_true _ _).mp hsome
  simp only [Bool.and_eq_true, List.all_eq_true, List.any_eq_true, beq_iff_eq] at hchecks
  obtain ⟨haccounts, x, hx, ⟨htick, hbefore⟩, hbehind⟩ := hchecks
  obtain ⟨c₀, hboot, hrun⟩ := sampleRun_run hsample
  have hbalanced := (timeouts_restore_iff .sample c₀ c tr (sampleBoot_boot hboot) hrun).1.mp
    fun x hx => accounts_of_test (haccounts x hx)
  refine ⟨tr, c, hsample, ⟨x, hx, ?_, hbefore, hbehind⟩, hbalanced⟩
  cases hact : x.action with
  | tick => rfl
  | _ =>
      rw [hact] at htick
      cases htick

/-- Two tasks of priority 1 lock a mutex each and wait for the other's for ever,
and one of priority 3 waits one tick for one of the mutexes. -/
def staleActions : List Action :=
  [.start, .call (.taskDelay 1), .pendsv (sampleSp 0),
    .call (.mutexCreateRecursiveStatic 16), .call (.mutexCreateRecursiveStatic 24),
    .call (.mutexLock 16 0), .proceed fun _ => 0, .call .taskYield, .pendsv (sampleSp 1),
    .call (.mutexLock 24 0), .proceed fun _ => 0, .call (.mutexLock 16 jrtWaitForever),
    .proceed fun _ => 0, .proceed fun _ => 0, .pendsv (sampleSp 2), .tick, .pendsv (sampleSp 1),
    .call (.mutexLock 16 1), .proceed fun _ => 0, .proceed fun _ => 0, .pendsv (sampleSp 0),
    .call (.mutexLock 24 jrtWaitForever), .proceed fun _ => 0]

/-- The strong waiter has left, and the two others keep its priority. -/
theorem timeout_leaves_stale_cycle : ∃ tr c c' o,
    sampleRun [3, 1, 1] staleActions = some (tr, c) ∧ Reachable .sample c
      ∧ step c .tick = some (c', o) ∧ c.kernel.WaitsAt (mutexPlace 16) 0
      ∧ (c'.kernel.view 0).state = .ready
      ∧ c'.kernel.prio 1 = 3
      ∧ (∀ j, ReflTransGen c'.kernel.WaitsFor j 1 → c'.kernel.basePrio j = 1)
      ∧ ¬c'.kernel.Balanced := by
  have hsome : ((sampleRun [3, 1, 1] staleActions).any fun r => (step r.2 .tick).any fun r' =>
      decide (r.2.kernel.WaitsAt (mutexPlace 16) 0 ∧ (r'.1.kernel.view 0).state = .ready
        ∧ r'.1.kernel.taskCount = 5 ∧ r'.1.kernel.prio 1 = 3 ∧ r'.1.kernel.basePrio 1 = 1)
      && (List.range 5).all fun u => (List.range 5).all fun t =>
        decide (r'.1.kernel.WaitsFor u t → r'.1.kernel.basePrio u = 1)) = true := by
    decide +kernel
  obtain ⟨⟨tr, c⟩, hsample, hnext⟩ := (Option.any_eq_true _ _).mp hsome
  obtain ⟨⟨c', o⟩, hstep, hchecks⟩ := (Option.any_eq_true _ _).mp hnext
  simp only [Bool.and_eq_true, decide_eq_true_eq, List.all_eq_true, List.mem_range] at hchecks
  obtain ⟨⟨hwaits, hready, hcount, hstale, hbase⟩, hwaiters⟩ := hchecks
  have hlow : ∀ j, ReflTransGen c'.kernel.WaitsFor j 1 → c'.kernel.basePrio j = 1 := by
    intro j hj
    rcases hj.cases_head with rfl | ⟨t, hfirst, -⟩
    · exact hbase
    · exact hwaiters j (hcount ▸ hfirst.1) t (hcount ▸ hfirst.2.1) hfirst
  refine ⟨tr, c, c', o, hsample, sampleRun_reachable hsample, hstep, hwaits, hready, hstale, hlow,
    fun hbalanced => ?_⟩
  obtain ⟨j, hj, haccount⟩ := (hbalanced 1 (by rw [hcount]; decide)).1
  rw [hlow j hj, hstale] at haccount
  exact absurd haccount (by decide)

end JustRT
