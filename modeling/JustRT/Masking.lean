import JustRT.Critical

/-!
# Balanced critical sections

Every operation leaves PRIMASK and `g_critical_nesting` as it found them on
each path that returns, leaves the core only in that state, and writes the
task table and the objects only while interrupts are masked. Other tasks and
interrupt handlers may come in between wherever interrupts are on.

The argument is one rule for `critical_enter` and one for `critical_exit`;
each operation is then followed along its paths. A function with a critical
section of its own, called inside another, is safe from any mask at which the
nesting count has room.
-/

namespace JustRT

open Interference

/-- What is written only while interrupts are masked: the task table, the
objects, the lists they are on, and the pools. -/
structure Guarded where
  tasks : Nat → Task
  eventGroups : Ptr → JrtEventGroup
  queues : Ptr → JrtQueue
  mutexes : Ptr → JrtMutex
  mutexList : Ptr
  semaphores : Ptr → JrtSemaphore
  timers : Ptr → JrtTimer
  timerList : Ptr
  pools : Pools

/-- The guarded part of the shared state. -/
def Shared.guarded (s : Shared) : Guarded where
  tasks := s.kernel.tasks
  eventGroups := s.kernel.eventGroups
  queues := s.kernel.queues
  mutexes := s.kernel.mutexes
  mutexList := s.kernel.mutexList
  semaphores := s.kernel.semaphores
  timers := s.kernel.timers
  timerList := s.kernel.timerList
  pools := s.pools

/-! ## The mask -/

namespace Mask

def entered (x : Mask) : Mask := ⟨true, x.gCriticalNesting + 1⟩

/-- `n` more critical sections can be entered without a wrap of the nesting
count. -/
def Fits (n : Nat) (x : Mask) : Prop := x.gCriticalNesting.toNat + n < 2 ^ 32

@[simp] theorem entered_primask (x : Mask) : x.entered.primask = true := rfl

variable {x : Mask} {n : Nat}

theorem Fits.entered (h : x.Fits (n + 1)) : x.entered.Fits n := by
  unfold Fits Mask.entered at *
  rw [UInt32.toNat_add]
  change (_ + 1) % 4294967296 + n < _
  omega

theorem Fits.nesting_ne (h : x.Fits (n + 1)) : x.gCriticalNesting + 1 ≠ 0 := by
  intro h0
  have hnat := congrArg UInt32.toNat h0
  unfold Fits at h
  rw [UInt32.toNat_add] at hnat
  change (_ + 1) % 4294967296 = 0 at hnat
  omega

/-- One critical section less, with PRIMASK as it was saved. -/
def exited (savedPrimask : Bool) (x : Mask) : Mask :=
  ⟨savedPrimask, if x.gCriticalNesting ≠ 0 then x.gCriticalNesting - 1 else x.gCriticalNesting⟩

theorem exited_entered (h : x.Fits 1) : x.entered.exited x.primask = x := by
  have hback : x.gCriticalNesting + 1 - 1 = x.gCriticalNesting := by simp
  unfold exited Mask.entered
  rw [if_pos (Fits.nesting_ne (n := 0) h), hback]

theorem Fits.mono {m : Nat} (h : x.Fits n) (hle : m ≤ n) : x.Fits m := by
  unfold Fits at *
  omega

end Mask

/-! ## Rules for the port and the kernel -/

namespace Critical

section Rules

variable {home : Mask → Prop} {x : Mask} {α : Type}

/-- `critical_enter` masks interrupts and returns PRIMASK as it was. -/
theorem criticalEnter_safe {Q : Bool → Mask → Prop} (hopen : x.primask = true ∨ home x)
    (h : Q x.primask x.entered) : criticalEnter.Safe Shared.guarded home Q x := by
  simp only [criticalEnter, readMask, setPrimask, setCriticalNesting, Prog.safe_bind,
    Prog.pure_eq, Prog.safe_done]
  refine Prog.Safe.changeMask hopen ?_
  refine Prog.Safe.changeMask (.inl rfl) ?_
  refine Prog.Safe.modify (.inl rfl) ?_
  refine Prog.Safe.changeMask (.inl rfl) ?_
  refine Prog.Safe.changeMask (.inl rfl) ?_
  refine Prog.Safe.modify (.inl rfl) ?_
  exact h

theorem criticalExit_exits {savedPrimask : Bool} {Q : Unit → Mask → Prop}
    (hmasked : x.primask = true)
    (hopen : (x.exited savedPrimask).primask = true ∨ home (x.exited savedPrimask))
    (h : Q () (x.exited savedPrimask)) :
    (criticalExit savedPrimask).Safe Shared.guarded home Q x := by
  simp only [criticalExit, readMask, setPrimask, setCriticalNesting, Prog.safe_bind,
    Prog.pure_eq, Prog.safe_done]
  refine Prog.Safe.changeMask (.inl hmasked) ?_
  refine Prog.Safe.changeMask (.inl hmasked) ?_
  exact Prog.Safe.changeMask hopen h

/-- Behind the matching `critical_enter` it brings the mask back. -/
theorem criticalExit_safe {Q : Unit → Mask → Prop} (hfits : x.Fits 1)
    (hopen : x.primask = true ∨ home x) (h : Q () x) :
    (criticalExit x.primask).Safe Shared.guarded home Q x.entered := by
  have hx := Mask.exited_entered hfits
  refine criticalExit_exits rfl ?_ ?_
  · rw [hx]
    exact hopen
  · rw [hx]
    exact h

theorem readKernel_safe {Q : Kernel → Mask → Prop} (h : ∀ k, Q k x) :
    readKernel.Safe Shared.guarded home Q x := by
  simp only [readKernel, Prog.safe_bind, Prog.safe_read]
  exact fun s => h s.kernel

theorem modifyKernel_safe {f : Kernel → Kernel} {Q : Unit → Mask → Prop}
    (hmasked : x.primask = true) (h : Q () x) :
    (modifyKernel f).Safe Shared.guarded home Q x :=
  Prog.Safe.modify (.inl hmasked) h

theorem modifyGetKernel_safe {f : Kernel → α × Kernel} {Q : α → Mask → Prop}
    (hmasked : x.primask = true) (h : ∀ a, Q a x) :
    (modifyGetKernel f).Safe Shared.guarded home Q x :=
  Prog.Safe.modifyGet (.inl hmasked) h

theorem attemptKernel_safe {f : Kernel → Exec (α × Kernel)} {Q : α → Mask → Prop}
    (hmasked : x.primask = true) (h : ∀ a, Q a x) :
    (attemptKernel f).Safe Shared.guarded home Q x :=
  Prog.Safe.attempt hmasked h

/-- The misuse counters are written with interrupts as they are. -/
theorem countContextMisuse_safe {bump : SyncMisuse → SyncMisuse} {Q : Unit → Mask → Prop}
    (h : Q () x) : (countContextMisuse bump).Safe Shared.guarded home Q x :=
  Prog.Safe.modify (.inr fun _ => rfl) h

theorem forEffect_safe {p : Code α} {Q : Unit → Mask → Prop}
    (h : p.Safe Shared.guarded home (fun _ y => Q () y) x) :
    (forEffect p).Safe Shared.guarded home Q x := by
  simp only [forEffect, Prog.safe_bind]
  exact h

end Rules

/-! ## Functions called inside a critical section -/

section Nested

variable {home : Mask → Prop} {x : Mask}

theorem taskWakeGetId_safe {object : WaitObject} {waitKind : TaskWaitKind}
    {Q : Option Nat → Mask → Prop} (hfits : x.Fits 1) (hopen : x.primask = true ∨ home x)
    (h : ∀ id, Q id x) : (taskWakeGetId object waitKind).Safe Shared.guarded home Q x := by
  simp only [taskWakeGetId, Prog.safe_bind, Prog.pure_eq, Prog.safe_done]
  refine criticalEnter_safe hopen ?_
  refine modifyGetKernel_safe rfl fun id => ?_
  exact criticalExit_safe hfits hopen (h id)

theorem taskWake_safe {object : WaitObject} {waitKind : TaskWaitKind} {Q : Bool → Mask → Prop}
    (hfits : x.Fits 1) (hopen : x.primask = true ∨ home x) (h : ∀ woken, Q woken x) :
    (taskWake object waitKind).Safe Shared.guarded home Q x := by
  simp only [taskWake, Prog.safe_bind, Prog.pure_eq, Prog.safe_done]
  exact taskWakeGetId_safe hfits hopen fun id => h id.isSome

theorem taskInheritPriority_safe {taskId priority : Nat} {Q : Unit → Mask → Prop}
    (hfits : x.Fits 1) (hopen : x.primask = true ∨ home x) (h : Q () x) :
    (taskInheritPriority taskId priority).Safe Shared.guarded home Q x := by
  simp only [taskInheritPriority, Prog.safe_bind]
  refine criticalEnter_safe hopen ?_
  refine modifyKernel_safe rfl ?_
  exact criticalExit_safe hfits hopen h

theorem taskRestorePriority_safe {taskId : Nat} {Q : Unit → Mask → Prop}
    (hfits : x.Fits 1) (hopen : x.primask = true ∨ home x) (h : Q () x) :
    (taskRestorePriority taskId).Safe Shared.guarded home Q x := by
  simp only [taskRestorePriority, Prog.safe_bind]
  refine criticalEnter_safe hopen ?_
  refine modifyKernel_safe rfl ?_
  exact criticalExit_safe hfits hopen h

theorem taskWaitDeadline_safe {timeoutTicks : UInt32} {Q : TaskWaitDeadline → Mask → Prop}
    (hfits : x.Fits 1) (hopen : x.primask = true ∨ home x) (h : ∀ deadline, Q deadline x) :
    (taskWaitDeadline timeoutTicks).Safe Shared.guarded home Q x := by
  simp only [taskWaitDeadline, Prog.safe_bind, Prog.pure_eq, Prog.safe_done]
  refine criticalEnter_safe hopen ?_
  refine readKernel_safe fun k => ?_
  exact criticalExit_safe hfits hopen (h _)

theorem jrtKernelGetTickCount_safe {Q : UInt32 → Mask → Prop} (hfits : x.Fits 1)
    (hopen : x.primask = true ∨ home x) (h : ∀ ticks, Q ticks x) :
    jrtKernelGetTickCount.Safe Shared.guarded home Q x := by
  simp only [jrtKernelGetTickCount, Prog.safe_bind, Prog.pure_eq, Prog.safe_done]
  refine criticalEnter_safe hopen ?_
  refine readKernel_safe fun k => ?_
  exact criticalExit_safe hfits hopen (h _)

theorem queueWakeReceiver_safe {queue : Ptr} {Q : Unit → Mask → Prop} (hfits : x.Fits 1)
    (hmasked : x.primask = true) (h : Q () x) :
    (queueWakeReceiver queue).Safe Shared.guarded home Q x := by
  simp only [queueWakeReceiver, Prog.safe_bind]
  refine taskWake_safe hfits (.inl hmasked) fun woken => ?_
  exact modifyKernel_safe hmasked h

theorem queueWakeSender_safe {queue : Ptr} {Q : Unit → Mask → Prop} (hfits : x.Fits 1)
    (hmasked : x.primask = true) (h : Q () x) :
    (queueWakeSender queue).Safe Shared.guarded home Q x := by
  simp only [queueWakeSender, Prog.safe_bind]
  refine taskWake_safe hfits (.inl hmasked) fun woken => ?_
  exact modifyKernel_safe hmasked h

theorem timerLinkAnd_safe {timer : Ptr} {start : Kernel → Kernel} {Q : Unit → Mask → Prop}
    (hmasked : x.primask = true) (h : Q () x) :
    (timerLinkAnd timer start).Safe Shared.guarded home Q x := by
  simp only [timerLinkAnd, Prog.safe_bind]
  refine attemptKernel_safe hmasked fun _ => ?_
  exact modifyKernel_safe hmasked h

end Nested

/-! ## Ways out of a critical section

The section is the innermost one: it was entered from the home mask. -/

section Exits

variable {home : Mask → Prop} {x : Mask}

theorem waitResult_safe {Q : UInt32 → Mask → Prop} (h : ∀ result, Q result x) :
    waitResult.Safe Shared.guarded home Q x := by
  simp only [waitResult, Prog.safe_bind, Prog.pure_eq, Prog.safe_done]
  exact readKernel_safe fun k => h _

/-- The saved mask is handed over, and both branches release it once. -/
theorem taskBlockUntilLocked_safe {object : WaitObject} {waitKind : TaskWaitKind}
    {deadline : TaskWaitDeadline} {Q : UInt32 → Mask → Prop} (hfits : x.Fits 1)
    (hhome : home x) (h : ∀ result, Q result x) :
    (taskBlockUntilLocked object waitKind deadline x.primask).Safe Shared.guarded home Q
      x.entered := by
  simp only [taskBlockUntilLocked, Prog.safe_bind]
  refine readKernel_safe fun k => ?_
  split
  · -- the deadline has passed
    simp only [Prog.safe_bind, Prog.pure_eq, Prog.safe_done]
    exact criticalExit_safe hfits (.inr hhome) (h 0)
  · simp only [Prog.safe_bind]
    refine modifyKernel_safe rfl ?_
    refine criticalExit_safe hfits (.inr hhome) ?_
    refine Prog.Safe.leaveAt hhome ?_
    exact waitResult_safe h

theorem taskTimerServiceBlockLocked_safe {Q : Unit → Mask → Prop} (hfits : x.Fits 1)
    (hhome : home x) (h : Q () x) :
    (taskTimerServiceBlockLocked x.primask).Safe Shared.guarded home Q x.entered := by
  simp only [taskTimerServiceBlockLocked, Prog.safe_bind]
  refine modifyKernel_safe rfl ?_
  refine criticalExit_safe hfits (.inr hhome) ?_
  exact Prog.Safe.leaveAt hhome h

theorem exit_return_safe {α : Type} {a : α} {Q : α → Mask → Prop} (hfits : x.Fits 1)
    (hhome : home x) (h : Q a x) :
    (do criticalExit x.primask; return a : Code α).Safe Shared.guarded home Q x.entered := by
  simp only [Prog.safe_bind, Prog.pure_eq, Prog.safe_done]
  exact criticalExit_safe hfits (.inr hhome) h

end Exits

/-! ## Tasks -/

section Tasks

variable {home : Mask → Prop} {x : Mask}

theorem taskGet_safe {α : Type} {field : Task → α} {taskId : Nat} {destination : Ptr}
    {Q : Except JrtStatus α → Mask → Prop} (hhome : home x) (hfits : x.Fits 1)
    (h : ∀ r, Q r x) : (taskGet field taskId destination).Safe Shared.guarded home Q x := by
  simp only [taskGet, Prog.safe_bind]
  refine readKernel_safe fun k => ?_
  split
  · exact h _
  · simp only [Prog.safe_bind]
    refine criticalEnter_safe (.inr hhome) ?_
    refine readKernel_safe fun k => ?_
    exact criticalExit_safe hfits (.inr hhome) (h _)

theorem kernelTaskSuspend_safe {requestedTaskId : Nat} {Q : JrtStatus → Mask → Prop}
    (hhome : home x) (hfits : x.Fits 1) (h : ∀ status, Q status x) :
    (kernelTaskSuspend requestedTaskId).Safe Shared.guarded home Q x := by
  simp only [kernelTaskSuspend, Prog.safe_bind]
  refine criticalEnter_safe (.inr hhome) ?_
  refine readKernel_safe fun k => ?_
  split
  · exact exit_return_safe hfits hhome (h _)
  · split
    · exact exit_return_safe hfits hhome (h _)
    · split
      · exact exit_return_safe hfits hhome (h _)
      · split
        · exact exit_return_safe hfits hhome (h _)
        · simp only [Prog.safe_bind]
          refine modifyKernel_safe rfl ?_
          refine modifyKernel_safe rfl ?_
          exact criticalExit_safe hfits (.inr hhome) (h _)

theorem kernelTaskResume_safe {requestedTaskId : Nat} {Q : JrtStatus → Mask → Prop}
    (hhome : home x) (hfits : x.Fits 1) (h : ∀ status, Q status x) :
    (kernelTaskResume requestedTaskId).Safe Shared.guarded home Q x := by
  simp only [kernelTaskResume, Prog.safe_bind]
  refine criticalEnter_safe (.inr hhome) ?_
  refine readKernel_safe fun k => ?_
  split
  · exact exit_return_safe hfits hhome (h _)
  · split
    · exact exit_return_safe hfits hhome (h _)
    · split
      · exact exit_return_safe hfits hhome (h _)
      · split
        · exact exit_return_safe hfits hhome (h _)
        · simp only [Prog.safe_bind]
          refine modifyKernel_safe rfl ?_
          refine modifyKernel_safe rfl ?_
          exact criticalExit_safe hfits (.inr hhome) (h _)

theorem sleepCurrent_safe {ticks : UInt32} {Q : Unit → Mask → Prop} (hhome : home x)
    (hfits : x.Fits 1) (h : Q () x) : (sleepCurrent ticks).Safe Shared.guarded home Q x := by
  simp only [sleepCurrent, Prog.safe_bind]
  refine criticalEnter_safe (.inr hhome) ?_
  refine modifyKernel_safe rfl ?_
  exact criticalExit_safe hfits (.inr hhome) h

theorem jrtKernelTickReached_safe {deadline : UInt32} {Q : Bool → Mask → Prop} (hhome : home x)
    (hfits : x.Fits 1) (h : ∀ reached, Q reached x) :
    (jrtKernelTickReached deadline).Safe Shared.guarded home Q x := by
  simp only [jrtKernelTickReached, Prog.safe_bind, Prog.pure_eq, Prog.safe_done]
  exact jrtKernelGetTickCount_safe hfits (.inr hhome) fun now => h _

theorem jrtTaskDelayUntil_safe {previousWake : Option UInt32} {periodTicks : UInt32}
    {Q : Option UInt32 → Mask → Prop} (hhome : home x) (hfits : x.Fits 1) (h : ∀ r, Q r x) :
    (jrtTaskDelayUntil previousWake periodTicks).Safe Shared.guarded home Q x := by
  cases previousWake with
  | none => exact h none
  | some previousWake =>
      simp only [jrtTaskDelayUntil, Prog.safe_bind]
      refine jrtKernelGetTickCount_safe hfits (.inr hhome) fun now => ?_
      split
      · exact h _
      · simp only [Prog.safe_bind]
        exact Prog.Safe.leaveAt hhome (h _)

theorem taskBlock_safe {object : WaitObject} {waitKind : TaskWaitKind} {timeoutTicks : UInt32}
    {Q : UInt32 → Mask → Prop} (hhome : home x) (hfits : x.Fits 1) (h : ∀ result, Q result x) :
    (taskBlock object waitKind timeoutTicks).Safe Shared.guarded home Q x := by
  unfold taskBlock
  split
  · exact h 0
  · simp only [Prog.safe_bind]
    refine criticalEnter_safe (.inr hhome) ?_
    refine modifyKernel_safe rfl ?_
    refine criticalExit_safe hfits (.inr hhome) ?_
    refine Prog.Safe.leaveAt hhome ?_
    exact waitResult_safe h

theorem tickTasks_safe {Q : Unit → Mask → Prop} (hhome : home x) (hfits : x.Fits 1)
    (h : Q () x) : tickTasks.Safe Shared.guarded home Q x := by
  simp only [tickTasks, Prog.safe_bind]
  refine criticalEnter_safe (.inr hhome) ?_
  refine attemptKernel_safe rfl fun _ => ?_
  exact criticalExit_safe hfits (.inr hhome) h

theorem pendsvSwitch_safe {currentSp : Ptr} {Q : Ptr → Mask → Prop} (hhome : home x)
    (hfits : x.Fits 1) (h : ∀ sp, Q sp x) :
    (pendsvSwitch currentSp).Safe Shared.guarded home Q x := by
  simp only [pendsvSwitch, Prog.safe_bind]
  refine criticalEnter_safe (.inr hhome) ?_
  refine attemptKernel_safe rfl fun _ => ?_
  refine criticalExit_safe hfits (.inr hhome) ?_
  exact readKernel_safe fun k => h _

/-- `kernel_started` is written with interrupts as they are. -/
theorem jrtKernelStart_safe {Q : Empty → Mask → Prop} (hhome : home x) :
    jrtKernelStart.Safe Shared.guarded home Q x := by
  simp only [jrtKernelStart, Prog.safe_bind]
  refine readKernel_safe fun k => ?_
  split
  · exact Prog.safe_halt
  · simp only [Prog.safe_bind]
    refine Prog.Safe.modify (.inr fun _ => rfl) ?_
    exact Prog.Safe.leaveAt hhome Prog.safe_halt

end Tasks

/-! ## Notifications and event groups -/

section Events

variable {home : Mask → Prop} {x : Mask}

theorem taskNotifyCommon_safe {taskId : Nat} {value : UInt32} {fromIsr inIsr : Bool}
    {Q : UInt32 → Mask → Prop} (hhome : home x) (hfits : x.Fits 1) (h : ∀ result, Q result x) :
    (taskNotifyCommon taskId value fromIsr inIsr).Safe Shared.guarded home Q x := by
  unfold taskNotifyCommon
  split
  · exact h 0
  · simp only [Prog.safe_bind]
    refine readKernel_safe fun k => ?_
    split
    · exact h 0
    · simp only [Prog.safe_bind]
      refine criticalEnter_safe (.inr hhome) ?_
      refine readKernel_safe fun k => ?_
      refine modifyKernel_safe rfl ?_
      refine modifyKernel_safe rfl ?_
      refine criticalExit_safe hfits (.inr hhome) ?_
      exact Prog.Safe.leaveAt hhome (h 1)

theorem jrtTaskNotifyTakeResume_safe {Q : UInt32 × Option UInt32 → Mask → Prop}
    (hhome : home x) (hfits : x.Fits 1) (h : ∀ r, Q r x) :
    jrtTaskNotifyTakeResume.Safe Shared.guarded home Q x := by
  simp only [jrtTaskNotifyTakeResume, Prog.safe_bind]
  refine criticalEnter_safe (.inr hhome) ?_
  refine modifyGetKernel_safe rfl fun r => ?_
  exact criticalExit_safe hfits (.inr hhome) (h _)

theorem jrtTaskNotifyTake_safe {value : Ptr} {timeoutTicks : UInt32} {inIsr : Bool}
    {Q : UInt32 × Option UInt32 → Mask → Prop} (hhome : home x) (hfits : x.Fits 1)
    (h : ∀ r, Q r x) :
    (jrtTaskNotifyTake value timeoutTicks inIsr).Safe Shared.guarded home Q x := by
  unfold jrtTaskNotifyTake
  split
  · exact h _
  · simp only [Prog.safe_bind]
    refine criticalEnter_safe (.inr hhome) ?_
    refine readKernel_safe fun k => ?_
    split
    · -- a notification is there
      simp only [Prog.safe_bind]
      refine modifyKernel_safe rfl ?_
      exact criticalExit_safe hfits (.inr hhome) (h _)
    · split
      · exact exit_return_safe hfits hhome (h _)
      · simp only [Prog.safe_bind]
        refine modifyKernel_safe rfl ?_
        refine criticalExit_safe hfits (.inr hhome) ?_
        refine Prog.Safe.leaveAt hhome ?_
        exact jrtTaskNotifyTakeResume_safe hhome hfits h

theorem eventGroupSetBitsCommon_safe {group : Ptr} {bits : UInt32} {fromIsr inIsr : Bool}
    {Q : UInt32 → Mask → Prop} (hhome : home x) (hfits : x.Fits 1) (h : ∀ result, Q result x) :
    (eventGroupSetBitsCommon group bits fromIsr inIsr).Safe Shared.guarded home Q x := by
  unfold eventGroupSetBitsCommon
  split
  · exact h 0
  · simp only [Prog.safe_bind]
    refine criticalEnter_safe (.inr hhome) ?_
    refine modifyKernel_safe rfl ?_
    refine readKernel_safe fun k => ?_
    refine modifyKernel_safe rfl ?_
    refine criticalExit_safe hfits (.inr hhome) ?_
    exact Prog.Safe.leaveAt hhome (h _)

theorem jrtEventGroupGetBits_safe {group : Ptr} {Q : UInt32 → Mask → Prop} (hhome : home x)
    (hfits : x.Fits 1) (h : ∀ bits, Q bits x) :
    (jrtEventGroupGetBits group).Safe Shared.guarded home Q x := by
  unfold jrtEventGroupGetBits
  split
  · exact h 0
  · simp only [Prog.safe_bind]
    refine criticalEnter_safe (.inr hhome) ?_
    refine readKernel_safe fun k => ?_
    exact criticalExit_safe hfits (.inr hhome) (h _)

theorem jrtEventGroupSetBitsFromIsr_safe {group : Ptr} {bits : UInt32} {inIsr : Bool}
    {Q : UInt32 → Mask → Prop} (hhome : home x) (hfits : x.Fits 1) (h : ∀ result, Q result x) :
    (jrtEventGroupSetBitsFromIsr group bits inIsr).Safe Shared.guarded home Q x := by
  unfold jrtEventGroupSetBitsFromIsr
  split
  · exact h 0
  · exact eventGroupSetBitsCommon_safe hhome hfits h

theorem jrtEventGroupWaitBitsResume_safe {group : Ptr} {bits : UInt32}
    {Q : UInt32 → Mask → Prop} (hhome : home x) (hfits : x.Fits 1) (h : ∀ result, Q result x) :
    (jrtEventGroupWaitBitsResume group bits).Safe Shared.guarded home Q x := by
  simp only [jrtEventGroupWaitBitsResume, Prog.safe_bind]
  refine criticalEnter_safe (.inr hhome) ?_
  refine modifyGetKernel_safe rfl fun result => ?_
  exact criticalExit_safe hfits (.inr hhome) (h _)

theorem jrtEventGroupWaitBits_safe {group : Ptr} {bits : UInt32} {waitAll clearOnExit : Bool}
    {timeoutTicks : UInt32} {inIsr : Bool} {Q : UInt32 → Mask → Prop} (hhome : home x)
    (hfits : x.Fits 1) (h : ∀ result, Q result x) :
    (jrtEventGroupWaitBits group bits waitAll clearOnExit timeoutTicks inIsr).Safe
      Shared.guarded home Q x := by
  unfold jrtEventGroupWaitBits
  split
  · exact h 0
  · simp only [Prog.safe_bind]
    refine criticalEnter_safe (.inr hhome) ?_
    refine readKernel_safe fun k => ?_
    split
    · -- the condition holds
      simp only [Prog.safe_bind]
      refine modifyKernel_safe rfl ?_
      exact criticalExit_safe hfits (.inr hhome) (h _)
    · split
      · exact exit_return_safe hfits hhome (h 0)
      · simp only [Prog.safe_bind]
        refine modifyKernel_safe rfl ?_
        refine modifyKernel_safe rfl ?_
        refine criticalExit_safe hfits (.inr hhome) ?_
        refine Prog.Safe.leaveAt hhome ?_
        exact jrtEventGroupWaitBitsResume_safe hhome hfits h

end Events

/-! ## Semaphores and mutexes -/

section Sync

variable {home : Mask → Prop} {x : Mask}

theorem jrtSemaphoreTake_safe {semaphore : Ptr} {timeoutTicks : UInt32} {inIsr : Bool}
    {Q : UInt32 → Mask → Prop} (hhome : home x) (hfits : x.Fits 1) (h : ∀ result, Q result x) :
    (jrtSemaphoreTake semaphore timeoutTicks inIsr).Safe Shared.guarded home Q x := by
  simp only [jrtSemaphoreTake, Prog.safe_bind]
  refine taskWaitDeadline_safe hfits (.inr hhome) fun deadline => ?_
  split
  · simp only [Prog.safe_bind]
    exact countContextMisuse_safe (h 0)
  · simp only [Prog.safe_bind]
    refine criticalEnter_safe (.inr hhome) ?_
    refine readKernel_safe fun k => ?_
    split
    · simp only [Prog.safe_bind]
      refine modifyKernel_safe rfl ?_
      exact criticalExit_safe hfits (.inr hhome) (h 1)
    · split
      · exact exit_return_safe hfits hhome (h 0)
      · exact taskBlockUntilLocked_safe hfits hhome h

theorem semaphoreGiveLocked_safe {semaphore : Ptr} {Q : Unit → Mask → Prop} (hhome : home x)
    (hfits : x.Fits 2) (h : Q () x) :
    (semaphoreGiveLocked semaphore).Safe Shared.guarded home Q x := by
  simp only [semaphoreGiveLocked, Prog.safe_bind]
  refine criticalEnter_safe (.inr hhome) ?_
  refine taskWake_safe hfits.entered (.inl rfl) fun woken => ?_
  refine modifyKernel_safe rfl ?_
  exact criticalExit_safe (hfits.mono (by omega)) (.inr hhome) h

theorem jrtSemaphoreGive_safe {semaphore : Ptr} {inIsr : Bool} {Q : Unit → Mask → Prop}
    (hhome : home x) (hfits : x.Fits 2) (h : Q () x) :
    (jrtSemaphoreGive semaphore inIsr).Safe Shared.guarded home Q x := by
  unfold jrtSemaphoreGive
  split
  · exact countContextMisuse_safe h
  · exact semaphoreGiveLocked_safe hhome hfits h

theorem jrtSemaphoreGiveFromIsr_safe {semaphore : Ptr} {inIsr : Bool} {Q : Unit → Mask → Prop}
    (hhome : home x) (hfits : x.Fits 2) (h : Q () x) :
    (jrtSemaphoreGiveFromIsr semaphore inIsr).Safe Shared.guarded home Q x := by
  unfold jrtSemaphoreGiveFromIsr
  split
  · exact countContextMisuse_safe h
  · simp only [Prog.safe_bind]
    refine semaphoreGiveLocked_safe hhome hfits ?_
    exact Prog.Safe.leaveAt hhome h

/-- `task_inherit_priority` is nested in the section whose mask
`task_block_until_locked` then releases. -/
theorem jrtMutexLock_safe {mutex : Ptr} {timeoutTicks : UInt32} {inIsr : Bool}
    {Q : UInt32 → Mask → Prop} (hhome : home x) (hfits : x.Fits 2) (h : ∀ result, Q result x) :
    (jrtMutexLock mutex timeoutTicks inIsr).Safe Shared.guarded home Q x := by
  have hfits₁ : x.Fits 1 := hfits.mono (by omega)
  simp only [jrtMutexLock, Prog.safe_bind]
  refine taskWaitDeadline_safe hfits₁ (.inr hhome) fun deadline => ?_
  refine readKernel_safe fun k => ?_
  split
  · simp only [Prog.safe_bind]
    exact countContextMisuse_safe (h 0)
  · simp only [Prog.safe_bind]
    refine criticalEnter_safe (.inr hhome) ?_
    refine readKernel_safe fun k => ?_
    split
    · simp only [Prog.safe_bind]
      refine modifyKernel_safe rfl ?_
      exact criticalExit_safe hfits₁ (.inr hhome) (h 1)
    · split
      · simp only [Prog.safe_bind]
        refine modifyKernel_safe rfl ?_
        exact criticalExit_safe hfits₁ (.inr hhome) (h 1)
      · split
        · exact exit_return_safe hfits₁ hhome (h 0)
        · simp only [Prog.safe_bind]
          refine taskInheritPriority_safe hfits.entered (.inl rfl) ?_
          exact taskBlockUntilLocked_safe hfits₁ hhome h

theorem jrtMutexUnlock_safe {mutex : Ptr} {inIsr : Bool} {Q : UInt32 → Mask → Prop}
    (hhome : home x) (hfits : x.Fits 2) (h : ∀ result, Q result x) :
    (jrtMutexUnlock mutex inIsr).Safe Shared.guarded home Q x := by
  have hfits₁ : x.Fits 1 := hfits.mono (by omega)
  unfold jrtMutexUnlock
  split
  · simp only [Prog.safe_bind]
    exact countContextMisuse_safe (h 0)
  · simp only [Prog.safe_bind]
    refine criticalEnter_safe (.inr hhome) ?_
    refine readKernel_safe fun k => ?_
    split
    · exact exit_return_safe hfits₁ hhome (h 0)
    · split
      · simp only [Prog.safe_bind]
        refine modifyKernel_safe rfl ?_
        exact criticalExit_safe hfits₁ (.inr hhome) (h 1)
      · simp only [Prog.safe_bind]
        refine taskWakeGetId_safe hfits.entered (.inl rfl) fun nextOwnerId => ?_
        cases nextOwnerId with
        | some nextOwnerId =>
            simp only [Prog.safe_bind]
            refine modifyKernel_safe rfl ?_
            refine taskRestorePriority_safe hfits.entered (.inl rfl) ?_
            refine taskRestorePriority_safe hfits.entered (.inl rfl) ?_
            exact criticalExit_safe hfits₁ (.inr hhome) (h 1)
        | none =>
            simp only [Prog.safe_bind]
            refine modifyKernel_safe rfl ?_
            refine taskRestorePriority_safe hfits.entered (.inl rfl) ?_
            exact criticalExit_safe hfits₁ (.inr hhome) (h 1)

end Sync

/-! ## Queues -/

section Queues

variable {home : Mask → Prop} {x : Mask}

/-- Each turn of the loop begins at home; a turn that blocks comes back
there. -/
theorem queueSendLoop_safe {queue : Ptr} {source : Nat → UInt8} {timeoutTicks : UInt32}
    {deadline : TaskWaitDeadline} {Q : UInt32 → Mask → Prop} (hhome : home x)
    (hfits : x.Fits 2) (h : ∀ result, Q result x) (fuel : Nat) (reserved : Bool) :
    (queueSendLoop queue source timeoutTicks deadline fuel reserved).Safe
      Shared.guarded home Q x := by
  have hfits₁ : x.Fits 1 := hfits.mono (by omega)
  induction fuel generalizing reserved with
  | zero => exact Prog.safe_halt
  | succ fuel ih =>
      simp only [queueSendLoop, Prog.safe_bind]
      refine criticalEnter_safe (.inr hhome) ?_
      refine readKernel_safe fun k => ?_
      split
      · simp only [Prog.safe_bind]
        refine modifyKernel_safe rfl ?_
        refine queueWakeReceiver_safe hfits.entered rfl ?_
        exact criticalExit_safe hfits₁ (.inr hhome) (h 1)
      · split
        · exact exit_return_safe hfits₁ hhome (h 0)
        · simp only [Prog.safe_bind]
          refine taskBlockUntilLocked_safe hfits₁ hhome fun woken => ?_
          split
          · exact h 0
          · exact ih true

theorem jrtQueueSend_safe {queue : Ptr} {source : Nat → UInt8} {timeoutTicks : UInt32}
    {inIsr : Bool} {fuel : Nat} {Q : UInt32 → Mask → Prop} (hhome : home x) (hfits : x.Fits 2)
    (h : ∀ result, Q result x) :
    (jrtQueueSend queue source timeoutTicks inIsr fuel).Safe Shared.guarded home Q x := by
  simp only [jrtQueueSend, Prog.safe_bind]
  refine taskWaitDeadline_safe (hfits.mono (by omega)) (.inr hhome) fun deadline => ?_
  split
  · simp only [Prog.safe_bind]
    exact countContextMisuse_safe (h 0)
  · exact queueSendLoop_safe hhome hfits h fuel false

theorem queueReceiveLoop_safe {queue : Ptr} {timeoutTicks : UInt32}
    {deadline : TaskWaitDeadline} {Q : UInt32 × Option (List UInt8) → Mask → Prop}
    (hhome : home x) (hfits : x.Fits 2) (h : ∀ r, Q r x) (fuel : Nat) (reserved : Bool) :
    (queueReceiveLoop queue timeoutTicks deadline fuel reserved).Safe
      Shared.guarded home Q x := by
  have hfits₁ : x.Fits 1 := hfits.mono (by omega)
  induction fuel generalizing reserved with
  | zero => exact Prog.safe_halt
  | succ fuel ih =>
      simp only [queueReceiveLoop, Prog.safe_bind]
      refine criticalEnter_safe (.inr hhome) ?_
      refine readKernel_safe fun k => ?_
      split
      · simp only [Prog.safe_bind]
        refine modifyKernel_safe rfl ?_
        refine queueWakeSender_safe hfits.entered rfl ?_
        exact criticalExit_safe hfits₁ (.inr hhome) (h _)
      · split
        · exact exit_return_safe hfits₁ hhome (h _)
        · simp only [Prog.safe_bind]
          refine taskBlockUntilLocked_safe hfits₁ hhome fun woken => ?_
          split
          · exact h _
          · exact ih true

theorem jrtQueueReceive_safe {queue : Ptr} {timeoutTicks : UInt32} {inIsr : Bool} {fuel : Nat}
    {Q : UInt32 × Option (List UInt8) → Mask → Prop} (hhome : home x) (hfits : x.Fits 2)
    (h : ∀ r, Q r x) :
    (jrtQueueReceive queue timeoutTicks inIsr fuel).Safe Shared.guarded home Q x := by
  simp only [jrtQueueReceive, Prog.safe_bind]
  refine taskWaitDeadline_safe (hfits.mono (by omega)) (.inr hhome) fun deadline => ?_
  split
  · simp only [Prog.safe_bind]
    exact countContextMisuse_safe (h _)
  · exact queueReceiveLoop_safe hhome hfits h fuel false

theorem jrtQueueSendFromIsr_safe {queue : Ptr} {source : Nat → UInt8} {inIsr : Bool}
    {Q : UInt32 → Mask → Prop} (hhome : home x) (hfits : x.Fits 2) (h : ∀ result, Q result x) :
    (jrtQueueSendFromIsr queue source inIsr).Safe Shared.guarded home Q x := by
  have hfits₁ : x.Fits 1 := hfits.mono (by omega)
  unfold jrtQueueSendFromIsr
  split
  · simp only [Prog.safe_bind]
    exact countContextMisuse_safe (h 0)
  · simp only [Prog.safe_bind]
    refine criticalEnter_safe (.inr hhome) ?_
    refine modifyKernel_safe rfl ?_
    refine readKernel_safe fun k => ?_
    split
    · simp only [Prog.safe_bind]
      refine modifyKernel_safe rfl ?_
      refine modifyKernel_safe rfl ?_
      refine queueWakeReceiver_safe hfits.entered rfl ?_
      refine criticalExit_safe hfits₁ (.inr hhome) ?_
      exact Prog.Safe.leaveAt hhome (h 1)
    · simp only [Prog.safe_bind]
      refine modifyKernel_safe rfl ?_
      exact criticalExit_safe hfits₁ (.inr hhome) (h 0)

end Queues

/-! ## Timers -/

section Timers

variable {home : Mask → Prop} {x : Mask} {timer : Ptr} {Q : Unit → Mask → Prop}

theorem jrtTimerSetCallback_safe {callback argument : Ptr} (hhome : home x)
    (hfits : x.Fits 1) (h : Q () x) :
    (jrtTimerSetCallback timer callback argument).Safe Shared.guarded home Q x := by
  unfold jrtTimerSetCallback
  split
  · exact h
  · simp only [Prog.safe_bind]
    refine criticalEnter_safe (.inr hhome) ?_
    refine modifyKernel_safe rfl ?_
    refine readKernel_safe fun k => ?_
    split
    · simp only [Prog.safe_bind]
      refine modifyKernel_safe rfl ?_
      refine criticalExit_safe hfits (.inr hhome) ?_
      exact Prog.Safe.leaveAt hhome h
    · exact criticalExit_safe hfits (.inr hhome) h

theorem jrtTimerStart_safe {delayTicks : UInt32} (hhome : home x) (hfits : x.Fits 1)
    (h : Q () x) : (jrtTimerStart timer delayTicks).Safe Shared.guarded home Q x := by
  unfold jrtTimerStart
  split
  · exact h
  · simp only [Prog.safe_bind]
    refine criticalEnter_safe (.inr hhome) ?_
    refine timerLinkAnd_safe rfl ?_
    exact criticalExit_safe hfits (.inr hhome) h

theorem jrtTimerStartPeriodic_safe {periodTicks : UInt32} (hhome : home x) (hfits : x.Fits 1)
    (h : Q () x) : (jrtTimerStartPeriodic timer periodTicks).Safe Shared.guarded home Q x := by
  unfold jrtTimerStartPeriodic
  split
  · exact h
  · simp only [Prog.safe_bind]
    refine criticalEnter_safe (.inr hhome) ?_
    refine timerLinkAnd_safe rfl ?_
    exact criticalExit_safe hfits (.inr hhome) h

theorem jrtTimerRestart_safe (hhome : home x) (hfits : x.Fits 1) (h : Q () x) :
    (jrtTimerRestart timer).Safe Shared.guarded home Q x := by
  unfold jrtTimerRestart
  split
  · exact h
  · simp only [Prog.safe_bind]
    refine criticalEnter_safe (.inr hhome) ?_
    refine readKernel_safe fun k => ?_
    split
    · simp only [Prog.safe_bind]
      refine timerLinkAnd_safe rfl ?_
      exact criticalExit_safe hfits (.inr hhome) h
    · exact criticalExit_safe hfits (.inr hhome) h

theorem jrtTimerStop_safe (hhome : home x) (hfits : x.Fits 1) (h : Q () x) :
    (jrtTimerStop timer).Safe Shared.guarded home Q x := by
  unfold jrtTimerStop
  split
  · exact h
  · simp only [Prog.safe_bind]
    refine criticalEnter_safe (.inr hhome) ?_
    refine modifyKernel_safe rfl ?_
    exact criticalExit_safe hfits (.inr hhome) h

theorem jrtTimerTakeExpirations_safe {Q : UInt32 → Mask → Prop} (hhome : home x)
    (hfits : x.Fits 1) (h : ∀ expirations, Q expirations x) :
    (jrtTimerTakeExpirations timer).Safe Shared.guarded home Q x := by
  unfold jrtTimerTakeExpirations
  split
  · exact h 0
  · simp only [Prog.safe_bind]
    refine criticalEnter_safe (.inr hhome) ?_
    refine readKernel_safe fun k => ?_
    refine modifyKernel_safe rfl ?_
    exact criticalExit_safe hfits (.inr hhome) (h _)

theorem dispatchLoop_safe {callback argument : Ptr} (hhome : home x) (h : Q () x)
    (times : Nat) : (dispatchLoop callback argument times).Safe Shared.guarded home Q x := by
  induction times with
  | zero => exact h
  | succ times ih =>
      simp only [dispatchLoop, Prog.safe_bind]
      exact Prog.Safe.leaveAt hhome ih

/-- The callbacks run behind the critical section. -/
theorem jrtTimerDispatch_safe (hhome : home x) (hfits : x.Fits 1) (h : Q () x) :
    (jrtTimerDispatch timer).Safe Shared.guarded home Q x := by
  unfold jrtTimerDispatch
  split
  · exact h
  · simp only [Prog.safe_bind]
    refine criticalEnter_safe (.inr hhome) ?_
    refine readKernel_safe fun k => ?_
    refine modifyKernel_safe rfl ?_
    refine criticalExit_safe hfits (.inr hhome) ?_
    split
    · exact h
    · exact dispatchLoop_safe hhome h _

theorem timerClaimLoop_safe {Q : Option (Ptr × Ptr) → Mask → Prop} (hhome : home x)
    (hfits : x.Fits 1) (h : ∀ r, Q r x) (fuel : Nat) (timer : Ptr) :
    (timerClaimLoop x.primask fuel timer).Safe Shared.guarded home Q x.entered := by
  induction fuel generalizing timer with
  | zero => exact Prog.safe_halt
  | succ fuel ih =>
      unfold timerClaimLoop
      split
      · simp only [Prog.safe_bind]
        exact taskTimerServiceBlockLocked_safe hfits hhome (h none)
      · simp only [Prog.safe_bind]
        refine readKernel_safe fun k => ?_
        split
        · simp only [Prog.safe_bind]
          refine modifyKernel_safe rfl ?_
          exact criticalExit_safe hfits (.inr hhome) (h _)
        · exact ih _

theorem kernelTimerServiceClaim_safe {Q : Option (Ptr × Ptr) → Mask → Prop} (hhome : home x)
    (hfits : x.Fits 1) (h : ∀ r, Q r x) :
    kernelTimerServiceClaim.Safe Shared.guarded home Q x := by
  simp only [kernelTimerServiceClaim, Prog.safe_bind]
  refine criticalEnter_safe (.inr hhome) ?_
  refine readKernel_safe fun k => ?_
  exact timerClaimLoop_safe hhome hfits h _ _

end Timers

/-! ## Memory pools -/

section Pools

variable {home : Mask → Prop} {x : Mask} {pool : Ptr}

theorem readPools_safe {Q : Pools → Mask → Prop} (h : ∀ k, Q k x) :
    readPools.Safe Shared.guarded home Q x := by
  simp only [readPools, Prog.safe_bind, Prog.safe_read]
  exact fun s => h s.pools

theorem writePoolWord_safe {address : Ptr} {word : UInt32} {Q : Unit → Mask → Prop}
    (hmasked : x.primask = true) (h : Q () x) :
    (writePoolWord address word).Safe Shared.guarded home Q x :=
  Prog.Safe.modify (.inl hmasked) h

/-- The loop leaves the critical section where it finds a block, and behind
its last turn. -/
theorem allocateLoop_safe {Q : Ptr → Mask → Prop} (hhome : home x) (hfits : x.Fits 1)
    (h : ∀ block, Q block x) (fuel : Nat) (index : UInt32) :
    (allocateLoop pool x.primask fuel index).Safe Shared.guarded home Q x.entered := by
  induction fuel generalizing index with
  | zero => exact exit_return_safe hfits hhome (h 0)
  | succ fuel ih =>
      simp only [allocateLoop, Prog.safe_bind]
      refine readPools_safe fun k => ?_
      split
      · simp only [Prog.safe_bind]
        refine writePoolWord_safe rfl ?_
        refine criticalExit_safe hfits (.inr hhome) ?_
        exact readPools_safe fun k => h _
      · exact ih _

theorem jrtMemoryPoolAllocate_safe {Q : Ptr → Mask → Prop} (hhome : home x) (hfits : x.Fits 1)
    (h : ∀ block, Q block x) :
    (jrtMemoryPoolAllocate pool).Safe Shared.guarded home Q x := by
  simp only [jrtMemoryPoolAllocate, Prog.safe_bind]
  refine readPools_safe fun k => ?_
  split
  · exact h 0
  · simp only [Prog.safe_bind]
    refine criticalEnter_safe (.inr hhome) ?_
    refine readPools_safe fun k => ?_
    exact allocateLoop_safe hhome hfits h _ _

theorem jrtMemoryPoolFree_safe {block : Ptr} {Q : UInt32 → Mask → Prop} (hhome : home x)
    (hfits : x.Fits 1) (h : ∀ result, Q result x) :
    (jrtMemoryPoolFree pool block).Safe Shared.guarded home Q x := by
  simp only [jrtMemoryPoolFree, Prog.safe_bind]
  refine readPools_safe fun k => ?_
  split
  · exact h 0
  · split
    · exact h 0
    · split
      · exact h 0
      · simp only [Prog.safe_bind]
        refine criticalEnter_safe (.inr hhome) ?_
        refine readPools_safe fun k => ?_
        split
        · exact exit_return_safe hfits hhome (h 0)
        · simp only [Prog.safe_bind]
          refine writePoolWord_safe rfl ?_
          exact criticalExit_safe hfits (.inr hhome) (h 1)

end Pools

/-! ## All operations -/

/-- From a mask whose nesting count has room for two critical sections, every
operation is safe, and is back at that mask where it returns. -/
theorem Operation.run_safe {home : Mask → Prop} {x : Mask} {Q : Unit → Mask → Prop}
    (op : Operation) (inIsr : Bool) (hhome : home x) (hfits : x.Fits 2) (h : Q () x) :
    (op.run inIsr).Safe Shared.guarded home Q x := by
  have hfits₁ : x.Fits 1 := hfits.mono (by omega)
  cases op with
  | jrtTaskGetState | jrtTaskGetStackInfo | jrtTaskGetName | jrtTaskGetPriority =>
      exact forEffect_safe (taskGet_safe hhome hfits₁ fun _ => h)
  | kernelTaskSuspend => exact forEffect_safe (kernelTaskSuspend_safe hhome hfits₁ fun _ => h)
  | kernelTaskResume => exact forEffect_safe (kernelTaskResume_safe hhome hfits₁ fun _ => h)
  | sleepCurrent => exact sleepCurrent_safe hhome hfits₁ h
  | jrtKernelGetTickCount =>
      exact forEffect_safe (jrtKernelGetTickCount_safe hfits₁ (.inr hhome) fun _ => h)
  | jrtKernelTickReached =>
      exact forEffect_safe (jrtKernelTickReached_safe hhome hfits₁ fun _ => h)
  | jrtTaskDelayUntil => exact forEffect_safe (jrtTaskDelayUntil_safe hhome hfits₁ fun _ => h)
  | taskBlock => exact forEffect_safe (taskBlock_safe hhome hfits₁ fun _ => h)
  | jrtTaskNotify | jrtTaskNotifyFromIsr =>
      exact forEffect_safe (taskNotifyCommon_safe hhome hfits₁ fun _ => h)
  | jrtTaskNotifyTake => exact forEffect_safe (jrtTaskNotifyTake_safe hhome hfits₁ fun _ => h)
  | jrtEventGroupSetBits =>
      exact forEffect_safe (eventGroupSetBitsCommon_safe hhome hfits₁ fun _ => h)
  | jrtEventGroupGetBits =>
      exact forEffect_safe (jrtEventGroupGetBits_safe hhome hfits₁ fun _ => h)
  | jrtEventGroupSetBitsFromIsr =>
      exact forEffect_safe (jrtEventGroupSetBitsFromIsr_safe hhome hfits₁ fun _ => h)
  | jrtEventGroupWaitBits =>
      exact forEffect_safe (jrtEventGroupWaitBits_safe hhome hfits₁ fun _ => h)
  | tickTasks => exact tickTasks_safe hhome hfits₁ h
  | pendsvSwitch => exact forEffect_safe (pendsvSwitch_safe hhome hfits₁ fun _ => h)
  | jrtKernelStart => exact forEffect_safe (jrtKernelStart_safe hhome)
  | jrtSemaphoreTake => exact forEffect_safe (jrtSemaphoreTake_safe hhome hfits₁ fun _ => h)
  | jrtSemaphoreGive => exact jrtSemaphoreGive_safe hhome hfits h
  | jrtSemaphoreGiveFromIsr => exact jrtSemaphoreGiveFromIsr_safe hhome hfits h
  | jrtMutexLock => exact forEffect_safe (jrtMutexLock_safe hhome hfits fun _ => h)
  | jrtMutexUnlock => exact forEffect_safe (jrtMutexUnlock_safe hhome hfits fun _ => h)
  | jrtQueueSend => exact forEffect_safe (jrtQueueSend_safe hhome hfits fun _ => h)
  | jrtQueueReceive => exact forEffect_safe (jrtQueueReceive_safe hhome hfits fun _ => h)
  | jrtQueueSendFromIsr => exact forEffect_safe (jrtQueueSendFromIsr_safe hhome hfits fun _ => h)
  | jrtTimerSetCallback => exact jrtTimerSetCallback_safe hhome hfits₁ h
  | jrtTimerStart => exact jrtTimerStart_safe hhome hfits₁ h
  | jrtTimerStartPeriodic => exact jrtTimerStartPeriodic_safe hhome hfits₁ h
  | jrtTimerRestart => exact jrtTimerRestart_safe hhome hfits₁ h
  | jrtTimerStop => exact jrtTimerStop_safe hhome hfits₁ h
  | jrtTimerTakeExpirations =>
      exact forEffect_safe (jrtTimerTakeExpirations_safe hhome hfits₁ fun _ => h)
  | jrtTimerDispatch => exact jrtTimerDispatch_safe hhome hfits₁ h
  | kernelTimerServiceClaim =>
      exact forEffect_safe (kernelTimerServiceClaim_safe hhome hfits₁ fun _ => h)
  | jrtMemoryPoolAllocate =>
      exact forEffect_safe (jrtMemoryPoolAllocate_safe hhome hfits₁ fun _ => h)
  | jrtMemoryPoolFree =>
      exact forEffect_safe (jrtMemoryPoolFree_safe hhome hfits₁ fun _ => h)

/-- Tasks and handlers that perform operations one after the other. -/
def perform (inIsr : Bool) : List Operation → Code Unit
  | [] => return ()
  | op :: ops => do
      op.run inIsr
      perform inIsr ops

theorem perform_safe {home : Mask → Prop} {x : Mask} {Q : Unit → Mask → Prop}
    (ops : List Operation) (inIsr : Bool) (hhome : home x) (hfits : x.Fits 2) (h : Q () x) :
    (perform inIsr ops).Safe Shared.guarded home Q x := by
  induction ops with
  | nil => exact h
  | cons op ops ih =>
      simp only [perform, Prog.safe_bind]
      exact Operation.run_safe op inIsr hhome hfits ih

/-- Any tasks and handlers on one core, interleaved wherever interrupts are on:
while they are on the nesting count is the one it began with, and each of them
follows a path of its own, on which what comes in between leaves PRIMASK and
the nesting count alone. -/
theorem perform_interleaved {ι : Type} [DecidableEq ι] (ops : ι → List Operation)
    (inIsr : ι → Bool) (first : ι) {x : Mask} (s : Shared) (hopen : x.primask = false)
    (hnesting : x.gCriticalNesting.toNat < 2 ^ 31) {S : System ι Shared Mask Departure Halt Unit}
    (hrun : System.Run ⟨x, s, fun i => perform (inIsr i) (ops i), first⟩ S) :
    (S.mask.primask = false → S.mask = x)
      ∧ ∀ i, ∃ es, Path ⟨perform (inIsr i) (ops i), x, s⟩ es (S.config x i) := by
  have hfits : x.Fits 2 := by
    unfold Mask.Fits
    omega
  have hsafe : System.Safe Shared.guarded x ⟨x, s, fun i => perform (inIsr i) (ops i), first⟩ := by
    intro i
    simp only [System.config, ite_self]
    exact ⟨.inr rfl, perform_safe (ops i) (inIsr i) rfl hfits rfl⟩
  obtain ⟨hsafe', hpaths⟩ := hrun.path hsafe hopen
  refine ⟨hsafe'.mask_eq, fun i => ?_⟩
  obtain ⟨es, hes⟩ := hpaths i
  simp only [System.config, ite_self] at hes
  exact ⟨es, hes⟩

end Critical

open Critical

/-! ## The balance -/

/-- On every path of every operation, whatever comes in between: where it
returns, PRIMASK and the nesting count are what they were at its entry; where
it leaves the core they are too; and what it does to the task table, the
objects and the pools it does with interrupts masked. -/
theorem criticalSections_balanced (op : Operation) (inIsr : Bool) {x : Mask}
    (hnesting : x.gCriticalNesting.toNat < 2 ^ 31) (s : Shared)
    {es : List (Event Shared Mask Departure)} {c : Config Shared Mask Departure Halt Unit}
    (hpath : Path ⟨op.run inIsr, x, s⟩ es c) :
    (c.prog = .done () → c.mask = x)
      ∧ (∀ point y, .leave point y ∈ es → y = x)
      ∧ ∀ y before after, .update y before after ∈ es →
          after.guarded ≠ before.guarded → y.primask = true := by
  have hfits : x.Fits 2 := by
    unfold Mask.Fits
    omega
  have hsafe : Config.Safe Shared.guarded (· = x) (fun _ y => y = x) ⟨op.run inIsr, x, s⟩ :=
    ⟨.inr rfl, op.run_safe inIsr rfl hfits rfl⟩
  obtain ⟨hgood, -, hend⟩ := hsafe.path hpath
  refine ⟨fun hdone => ?_, fun point y he => hgood _ he, fun y before after he hne => ?_⟩
  · rw [hdone] at hend
    exact hend
  · exact (hgood _ he).resolve_right hne

def Shared.zero : Shared where
  kernel := Kernel.zero 0
  pools := ⟨fun _ => ⟨0, 0, 0, 0⟩, fun _ => 0⟩
  gCriticalEntries := 0
  gCriticalNestingMax := 0

/-- `JRT_SemaphoreTake` of a semaphore that is not available blocks, leaves the
core, and returns, seven critical sections deep throughout. -/
theorem criticalSections_balanced_blocking :
    ∃ es c, Path ⟨(Operation.jrtSemaphoreTake 4 5).run false, ⟨false, 7⟩, Shared.zero⟩ es c
      ∧ c.prog = .done () ∧ c.mask = ⟨false, 7⟩ := by
  obtain ⟨es, hpath⟩ := Prog.alone_leave_path (p := (Operation.jrtSemaphoreTake 4 5).run false)
    (m := ⟨false, 7⟩) (s := Shared.zero) rfl
  exact ⟨_, _, hpath, rfl, (criticalSections_balanced _ false (by decide) _ hpath).1 rfl⟩

end JustRT
