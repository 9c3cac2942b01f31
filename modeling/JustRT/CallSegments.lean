import JustRT.CodeSegments

/-!
# The calls follow their segments

The code of every call and of every handler, along each of its paths: what a
critical section leaves in the kernel is what the segment of `JustRT.System`
says it does, and the code returns what the segments have shown by then. A loop
is followed by induction on its turns.

There is one lemma for each call, and each is the same walk: the rule for
`critical_enter` hands over the kernel as the section finds it, the body is
carried through, and the rule for `critical_exit` asks for the segment that does
the same to that kernel. Two things do not fit a single section. A call that
blocks leaves the core in the middle, and goes on behind it with whatever kernel
it finds; and a call may read a variable ahead of its section, which is of use
only because nothing but a context switch changes that variable.
-/

namespace JustRT

open Interference

namespace Critical

/-! ## Semaphores and mutexes -/

section Sync

variable {i n : Nat} {x : Mask} {k : Kernel} {s : Shared} {α : Type}

theorem jrtSemaphoreCreateBinaryStatic_returns (hx : x.primask = false) (hfits : x.Fits 1)
    (semaphore : Ptr) (initiallyAvailable : UInt32) :
    Returns i n x (jrtSemaphoreCreateBinaryStatic semaphore initiallyAvailable)
      ⟨some (.semaphoreCreateBinaryStatic semaphore initiallyAvailable), .user, []⟩ x k s
      fun _ => [.result 0] := by
  simp only [Returns, jrtSemaphoreCreateBinaryStatic, Prog.follows_bind]
  refine criticalEnter_outer hx fun s _ => ?_
  rw [modifyKernel_follows rfl]
  exact exit_returns hx hfits rfl rfl

theorem jrtMutexUnlock_returns (hx : x.primask = false) (hfits : x.Fits 2) (mutex : Ptr) :
    Returns i n x (jrtMutexUnlock mutex false) ⟨some (.mutexUnlock mutex), .user, []⟩ x k s
      fun r => [.result r] := by
  have hfits₁ : x.Fits 1 := hfits.mono (by omega)
  simp only [Returns, jrtMutexUnlock, Bool.false_eq_true, if_false, Prog.follows_bind]
  refine criticalEnter_outer hx fun s _ => ?_
  rw [readKernel_follows rfl]
  split
  · next h => exact exit_returns hx hfits₁ (by simp [enter, JustRT.jrtMutexUnlock, h]) rfl
  · next hmine =>
      split
      · next hrecursive =>
          simp only [Prog.follows_bind]
          rw [modifyKernel_follows rfl]
          exact exit_returns hx hfits₁
            (by simp [enter, JustRT.jrtMutexUnlock, hmine, hrecursive]) rfl
      · next hlast =>
          simp only [Prog.follows_bind]
          rw [taskWakeGetId_follows rfl hfits.entered]
          cases hwake : JustRT.taskWakeGetId s.kernel (.ptr mutex) .mutex with
          | mk id kernel =>
              cases id with
              | some nextOwnerId =>
                  simp only [Prog.follows_bind]
                  rw [modifyKernel_follows rfl, taskRestorePriority_follows rfl hfits.entered,
                    taskRestorePriority_follows rfl hfits.entered]
                  exact exit_returns hx hfits₁
                    (by simp [enter, JustRT.jrtMutexUnlock, hmine, hlast, hwake]) rfl
              | none =>
                  simp only [Prog.follows_bind]
                  rw [modifyKernel_follows rfl, taskRestorePriority_follows rfl hfits.entered]
                  exact exit_returns hx hfits₁
                    (by simp [enter, JustRT.jrtMutexUnlock, hmine, hlast, hwake]) rfl

theorem jrtMutexCreateRecursiveStatic_returns (hx : x.primask = false) (hfits : x.Fits 1)
    (mutex : Ptr) :
    Returns i n x (jrtMutexCreateRecursiveStatic mutex)
      ⟨some (.mutexCreateRecursiveStatic mutex), .user, []⟩ x k s fun _ => [.result 0] := by
  simp only [Returns, jrtMutexCreateRecursiveStatic, Prog.follows_bind]
  refine criticalEnter_outer hx fun s _ => ?_
  refine attemptUnit_follows rfl fun kernel hk => ?_
  refine exit_returns (a := ()) hx hfits ?_ rfl
  simp [enter, hk, bind, Except.bind, pure, Except.pure]

theorem jrtSemaphoreTake_returns (hx : x.primask = false) (hfits : x.Fits 1) (semaphore : Ptr)
    (timeoutTicks : UInt32) :
    Returns i n x (jrtSemaphoreTake semaphore timeoutTicks false)
      ⟨some (.semaphoreTake semaphore timeoutTicks), .user, []⟩ x k s fun r => [.result r] := by
  simp only [Returns, jrtSemaphoreTake, Prog.follows_bind, Bool.false_eq_true, if_false]
  refine taskWaitDeadline_follows (.semaphoreTake semaphore timeoutTicks) hx hfits
    (fun _ => rfl) fun deadline k s => ?_
  refine criticalEnter_outer hx fun s _ => ?_
  rw [readKernel_follows rfl]
  split
  · next havailable =>
      simp only [Prog.follows_bind]
      rw [modifyKernel_follows rfl]
      refine exit_entered (fun _ => 0) hx hfits ?_ rfl
      simp [proceedEntered, JustRT.jrtSemaphoreTake, havailable, Segment.ofFlow]
  · next hnone =>
      split
      · next hpoll =>
          refine exit_entered (fun _ => 0) hx hfits ?_ rfl
          simp [proceedEntered, JustRT.jrtSemaphoreTake, hnone, hpoll, Segment.ofFlow]
      · next hwait =>
          refine taskBlockUntilLocked_follows (fun _ => 0) hx hfits ?_
            (fun _ _ => ⟨rfl, Ends.refl _⟩) fun k s => ?_
          · simp [proceedEntered, JustRT.jrtSemaphoreTake, hnone, hwait]
          · exact waitResult_follows hx (fun s => ⟨rfl, Ends.refl _⟩) fun k => ⟨rfl, rfl⟩

/-- The section of both give operations, in terms of its segments. -/
theorem semaphoreGiveLocked_follows {L : Type} {good : Kernel → Prop}
    {step : L → Kernel → L → Kernel → Prop} {leave : Departure → L → L → Prop}
    {final : L → α → Prop} {l : L} {Q : Unit → L → Mask → Kernel → Shared → Prop}
    (hx : x.primask = false) (hfits : x.Fits 2) (semaphore : Ptr)
    (h : ∀ s : Shared, good s.kernel → ∃ l',
      (codeSegments good step leave final).Steps l s.kernel l'
          (JustRT.semaphoreGiveLocked s.kernel semaphore)
        ∧ ∀ k s, Q () l' x k s) :
    (semaphoreGiveLocked semaphore).Follows (codeSegments good step leave final) x Q l x k s := by
  simp only [semaphoreGiveLocked, Prog.follows_bind]
  refine criticalEnter_outer hx fun s hs => ?_
  rw [taskWake_follows rfl hfits.entered, modifyKernel_follows rfl]
  obtain ⟨l', hsteps, hq⟩ := h s hs
  exact criticalExit_outer hx (hfits.mono (by omega)) hsteps (hq _ _)

theorem jrtSemaphoreGive_returns (hx : x.primask = false) (hfits : x.Fits 2) (semaphore : Ptr) :
    Returns i n x (jrtSemaphoreGive semaphore false) ⟨some (.semaphoreGive semaphore), .user, []⟩
      x k s fun _ => [.result 0] := by
  simp only [Returns, jrtSemaphoreGive, Bool.false_eq_true, if_false]
  refine semaphoreGiveLocked_follows hx hfits semaphore fun s _ => ?_
  have henter : enter s.kernel (.semaphoreGive semaphore)
      = .ok (.ret (JustRT.semaphoreGiveLocked s.kernel semaphore) 0) := rfl
  have hstep := Label.Step.enter henter rfl
  exact ⟨_, Segments.Steps.single hstep, fun _ _ => ⟨rfl, Ends.refl _⟩⟩

theorem jrtMutexLock_returns (hx : x.primask = false) (hfits : x.Fits 2) (mutex : Ptr)
    (timeoutTicks : UInt32) :
    Returns i n x (jrtMutexLock mutex timeoutTicks false)
      ⟨some (.mutexLock mutex timeoutTicks), .user, []⟩ x k s fun r => [.result r] := by
  have hfits₁ : x.Fits 1 := hfits.mono (by omega)
  simp only [Returns, jrtMutexLock, Prog.follows_bind, Bool.false_eq_true, if_false]
  refine taskWaitDeadline_follows (.mutexLock mutex timeoutTicks) hx hfits₁
    (fun _ => rfl) fun deadline k s => ?_
  refine readKernel_stutter hx fun s hs => ?_
  refine criticalEnter_outer hx fun s' hs' => ?_
  have hcurrent : s.kernel.gCurrentTaskIndex = s'.kernel.gCurrentTaskIndex :=
    hs.1.trans hs'.1.symm
  rw [readKernel_follows rfl, hcurrent]
  dsimp only
  split
  · next hfree =>
      simp only [Prog.follows_bind]
      rw [modifyKernel_follows rfl]
      refine exit_entered (fun _ => 0) hx hfits₁ ?_ rfl
      simp [proceedEntered, JustRT.jrtMutexLock, hfree, Segment.ofFlow]
  · next hlocked =>
      by_cases howner : (s'.kernel.mutexes mutex).owner = s'.kernel.gCurrentTaskIndex
      · rw [if_pos howner]
        simp only [Prog.follows_bind]
        rw [modifyKernel_follows rfl]
        refine exit_entered (fun _ => 0) hx hfits₁ ?_ rfl
        simp [proceedEntered, JustRT.jrtMutexLock, hlocked, howner, Segment.ofFlow]
      · rw [if_neg howner]
        split
        · next hpoll =>
            refine exit_entered (fun _ => 0) hx hfits₁ ?_ rfl
            simp [proceedEntered, JustRT.jrtMutexLock, hlocked, howner, hpoll, Segment.ofFlow]
        · next hwait =>
            simp only [Prog.follows_bind]
            rw [taskInheritPriority_follows rfl hfits.entered]
            refine taskBlockUntilLocked_follows (fun _ => 0) hx hfits₁ ?_
              (fun _ _ => ⟨rfl, Ends.refl _⟩) fun k s => ?_
            · simp [proceedEntered, JustRT.jrtMutexLock, hlocked, howner, hwait]
            · exact waitResult_follows hx (fun s => ⟨rfl, Ends.refl _⟩) fun k => ⟨rfl, rfl⟩

end Sync

/-! ## Queues -/

section Queues

variable {i n : Nat} {x : Mask} {k : Kernel} {s : Shared}

theorem jrtQueueCreateStatic_returns (hx : x.primask = false) (hfits : x.Fits 1) (queue : Ptr)
    (storage : Nat → UInt8) (capacity itemSize : UInt32) :
    Returns i n x (jrtQueueCreateStatic queue storage capacity itemSize)
      ⟨some (.queueCreateStatic queue storage capacity itemSize), .user, []⟩ x k s
      fun _ => [.result 0] := by
  simp only [Returns, jrtQueueCreateStatic, Prog.follows_bind]
  refine criticalEnter_outer hx fun s _ => ?_
  rw [modifyKernel_follows rfl]
  exact exit_returns (a := ()) hx hfits rfl rfl

theorem ofFlow_silent (wait : WaitCall) (r : Flow × Kernel) :
    { Segment.ofFlow wait r with output := none } = Segment.ofFlow wait r := by
  obtain ⟨flow, kernel⟩ := r
  cases flow with
  | returns result => rfl
  | yields => rfl

/-- Behind the wait of a queue loop: the call times out, or takes the next turn
with its reservation. -/
theorem waitResult_again {α : Type} {wait : WaitCall} {again : Code α} {late : α}
    {Q : α → Label → Mask → Kernel → Shared → Prop} (hx : x.primask = false)
    (hresumed : ∀ k, proceedResumed k wait
      = if (k.tasks k.currentTask).waitResult = 0 then .ret k 0
        else { kernel := k, pc := .entered wait true })
    (hlate : ∀ k s, Q late ⟨none, .user, [.result 0]⟩ x k s)
    (hagain : ∀ k s, again.Follows (threadSegments i n) x Q ⟨none, .entered wait true, []⟩ x k s) :
    waitResult.Follows (threadSegments i n) x
      (fun woken l m k s => (if woken = 0 then return late else again : Code α).Follows
        (threadSegments i n) x Q l m k s) ⟨none, .resumed wait, []⟩ x k s := by
  refine waitResult_follows hx (fun s => ?_) fun k => ?_
  · rw [hresumed]
    by_cases hresult : (s.kernel.tasks s.kernel.currentTask).waitResult = 0
    · rw [if_pos hresult, if_pos hresult]
      exact hlate _ _
    · rw [if_neg hresult, if_neg hresult]
      exact hagain _ _
  · rw [hresumed]
    split
    · exact ⟨rfl, rfl⟩
    · exact ⟨rfl, rfl⟩

/-- A turn of the loop is a section; a turn that blocks resumes at the next. -/
theorem queueSendLoop_returns (hx : x.primask = false) (hfits : x.Fits 2) (queue : Ptr)
    (source : Nat → UInt8) (timeoutTicks : UInt32) (deadline : TaskWaitDeadline) (fuel : Nat)
    (reserved : Bool) :
    Returns i n x (queueSendLoop queue source timeoutTicks deadline fuel reserved)
      ⟨none, .entered (.queueSend queue timeoutTicks deadline) reserved, []⟩ x k s
      fun r => [.result r] := by
  have hfits₁ : x.Fits 1 := hfits.mono (by omega)
  induction fuel generalizing reserved k s with
  | zero => exact Prog.follows_halt
  | succ fuel ih =>
      simp only [Returns, queueSendLoop, Prog.follows_bind]
      refine criticalEnter_outer hx fun s _ => ?_
      rw [readKernel_follows rfl]
      split
      · next haccepts =>
          simp only [Prog.follows_bind]
          rw [modifyKernel_follows rfl, queueWakeReceiver_follows rfl hfits.entered]
          refine exit_entered source hx hfits₁ ?_ rfl
          simp [proceedEntered, JustRT.jrtQueueSend, haccepts, Segment.ofFlow]
      · next hfull =>
          split
          · next hpoll =>
              refine exit_entered source hx hfits₁ ?_ rfl
              simp [proceedEntered, JustRT.jrtQueueSend, hfull, hpoll, Segment.ofFlow]
          · next hwait =>
              simp only [Prog.follows_bind]
              refine taskBlockUntilLocked_follows source hx hfits₁ ?_ (fun _ _ => ?_)
                fun k s => ?_
              · simp [proceedEntered, JustRT.jrtQueueSend, hfull, hwait]
              · rw [if_pos rfl]
                exact ⟨rfl, Ends.refl _⟩
              · exact waitResult_again hx (fun _ => rfl) (fun _ _ => ⟨rfl, Ends.refl _⟩)
                  fun k s => ih true

theorem jrtQueueSend_returns (hx : x.primask = false) (hfits : x.Fits 2) (queue : Ptr)
    (source : Nat → UInt8) (timeoutTicks : UInt32) (fuel : Nat) :
    Returns i n x (jrtQueueSend queue source timeoutTicks false fuel)
      ⟨some (.queueSend queue timeoutTicks), .user, []⟩ x k s fun r => [.result r] := by
  simp only [Returns, jrtQueueSend, Prog.follows_bind, Bool.false_eq_true, if_false]
  exact taskWaitDeadline_follows (.queueSend queue timeoutTicks) hx (hfits.mono (by omega))
    (fun _ => rfl) fun deadline _ _ =>
      queueSendLoop_returns hx hfits queue source timeoutTicks deadline fuel false

theorem queueReceiveLoop_returns (hx : x.primask = false) (hfits : x.Fits 2) (queue : Ptr)
    (timeoutTicks : UInt32) (deadline : TaskWaitDeadline) (fuel : Nat) (reserved : Bool) :
    Returns i n x (queueReceiveLoop queue timeoutTicks deadline fuel reserved)
      ⟨none, .entered (.queueReceive queue timeoutTicks deadline) reserved, []⟩ x k s
      fun r => (r.2.map .item).toList.map .output ++ [.result r.1] := by
  have hfits₁ : x.Fits 1 := hfits.mono (by omega)
  induction fuel generalizing reserved k s with
  | zero => exact Prog.follows_halt
  | succ fuel ih =>
      simp only [Returns, queueReceiveLoop, Prog.follows_bind]
      refine criticalEnter_outer hx fun s _ => ?_
      rw [readKernel_follows rfl]
      split
      · next haccepts =>
          simp only [Prog.follows_bind]
          rw [modifyKernel_follows rfl, queueWakeSender_follows rfl hfits.entered]
          refine exit_entered_output (fun _ => 0) hx hfits₁ ?_ rfl
          simp [proceedEntered, JustRT.jrtQueueReceive, haccepts, Segment.ofFlow]
      · next hempty =>
          split
          · next hpoll =>
              refine exit_entered_output (fun _ => 0) hx hfits₁ ?_ rfl
              simp [proceedEntered, JustRT.jrtQueueReceive, hempty, hpoll, Segment.ofFlow]
          · next hwait =>
              simp only [Prog.follows_bind]
              refine taskBlockUntilLocked_follows (fun _ => 0) hx hfits₁ ?_ (fun _ _ => ?_)
                fun k s => ?_
              · simp only [proceedEntered, JustRT.jrtQueueReceive, hempty, hwait,
                  Bool.false_eq_true, if_false]
                exact congrArg _ (ofFlow_silent _ _)
              · rw [if_pos rfl]
                exact ⟨rfl, Ends.refl _⟩
              · exact waitResult_again hx (fun _ => rfl) (fun _ _ => ⟨rfl, Ends.refl _⟩)
                  fun k s => ih true

theorem jrtQueueReceive_returns (hx : x.primask = false) (hfits : x.Fits 2) (queue : Ptr)
    (timeoutTicks : UInt32) (fuel : Nat) :
    Returns i n x (jrtQueueReceive queue timeoutTicks false fuel)
      ⟨some (.queueReceive queue timeoutTicks), .user, []⟩ x k s
      fun r => (r.2.map .item).toList.map .output ++ [.result r.1] := by
  simp only [Returns, jrtQueueReceive, Prog.follows_bind, Bool.false_eq_true, if_false]
  exact taskWaitDeadline_follows (.queueReceive queue timeoutTicks) hx (hfits.mono (by omega))
    (fun _ => rfl) fun deadline _ _ =>
      queueReceiveLoop_returns hx hfits queue timeoutTicks deadline fuel false

end Queues

/-! ## Notifications and event groups -/

section Events

variable {i n : Nat} {x : Mask} {k : Kernel} {s : Shared}

/-- The section of `task_notify_common`, as the one step it is. -/
theorem notifySection_eq (k : Kernel) (taskId : Nat) (value : UInt32) {fromIsr inIsr : Bool}
    (hcontext : wrongContext fromIsr inIsr = false) (hid : ¬taskId ≥ k.taskCount) :
    JustRT.taskNotifyCommon k taskId value fromIsr inIsr
      = some (let coalesced := decide (value ≠ 0 ∧ (k.tasks taskId).notificationValue ≠ 0)
          let k := k.setTask taskId
            ((k.tasks taskId).withNotification ((k.tasks taskId).notificationValue + value))
          if (k.tasks taskId).state = .blocked ∧ (k.tasks taskId).waitKind = .notification then
            taskWaitEnd k taskId 1 coalesced
          else if coalesced then taskBenchmarkCoalescedLocked k taskId
          else k) := by
  unfold JustRT.taskNotifyCommon
  rw [if_neg (by simp [hcontext]), if_neg hid]
  dsimp only
  split
  · rfl
  · split
    · rfl
    · rfl

/-- `task_notify_common`, in terms of its segments: the task table never
grows, so the check ahead of the section holds in it. -/
theorem taskNotifyCommon_follows {L α : Type} {good : Kernel → Prop}
    {step : L → Kernel → L → Kernel → Prop} {leave : Departure → L → L → Prop}
    {final : L → α → Prop} {l : L} {Q : UInt32 → L → Mask → Kernel → Shared → Prop}
    (hx : x.primask = false) (hfits : x.Fits 1) (hgood : ∀ k, good k → k.taskCount = n)
    {taskId : Nat} {value : UInt32} {fromIsr inIsr : Bool}
    (hcontext : wrongContext fromIsr inIsr = false)
    (hrejected : n ≤ taskId → ∀ k s, good k → Q 0 l x k s)
    (hnotified : taskId < n → ∀ k, good k → ∃ k' l', 
      JustRT.taskNotifyCommon k taskId value fromIsr inIsr = some k'
        ∧ (codeSegments good step leave final).Steps l k l' k'
        ∧ ∃ l'', leave .archRequestSwitch l' l'' ∧ ∀ k s, Q 1 l'' x k s) :
    (taskNotifyCommon taskId value fromIsr inIsr).Follows (codeSegments good step leave final)
      x Q l x k s := by
  unfold taskNotifyCommon
  rw [if_neg (by simp [hcontext])]
  simp only [Prog.follows_bind]
  refine readKernel_stutter hx fun s hs => ?_
  by_cases hid : taskId ≥ s.kernel.taskCount
  · rw [if_pos hid]
    exact hrejected (by rw [← hgood s.kernel hs]; exact hid) s.kernel s hs
  · rw [if_neg hid]
    rw [hgood s.kernel hs] at hid
    simp only [Prog.follows_bind]
    refine criticalEnter_outer hx fun s hs => ?_
    rw [readKernel_follows rfl, modifyKernel_follows rfl, modifyKernel_follows rfl]
    obtain ⟨k', l', hcommon, hsteps, l'', hleave, hq⟩ := hnotified (by omega) s.kernel hs
    rw [notifySection_eq s.kernel taskId value hcontext (by rw [hgood s.kernel hs]; exact hid),
      Option.some.injEq] at hcommon
    rw [← hcommon] at hsteps
    exact criticalExit_outer hx hfits hsteps (Prog.Follows.leaveAt hleave hq)

theorem jrtTaskNotify_returns (hx : x.primask = false) (hfits : x.Fits 1) (taskId : Nat)
    (value : UInt32) :
    Returns i n x (jrtTaskNotify taskId value false) ⟨some (.taskNotify taskId value), .user, []⟩
      x k s fun r => [.result r] := by
  refine taskNotifyCommon_follows hx hfits (fun _ hk => hk.2) rfl (fun hid _ _ _ => ?_)
    fun hid k hk => ?_
  · refine ⟨rfl, Ends.enter fun k hk => ⟨.ret k 0, ?_, rfl, rfl, rfl, rfl⟩⟩
    have hid' : taskId ≥ k.taskCount := hk.2.trans_le hid
    simp [enter, JustRT.taskNotifyCommon, hid']
  · have hid' : ¬taskId ≥ k.taskCount := by omega
    obtain ⟨k', hcommon⟩ : ∃ k', JustRT.taskNotifyCommon k taskId value false false = some k' :=
      ⟨_, notifySection_eq k taskId value rfl hid'⟩
    have henter : enter k (.taskNotify taskId value)
        = .ok { kernel := k', pc := .requestSwitch 1 } := by
      simp only [enter, hcommon]
    have hstep := Label.Step.enter henter rfl
    exact ⟨k', _, hcommon, Segments.Steps.single hstep, _, .archRequestSwitch,
      fun _ _ => ⟨rfl, Ends.refl _⟩⟩

/-- The kernel behind the section of `event_group_set_bits_common`. -/
theorem eventGroupSetBitsCommon_follows {L α : Type} {good : Kernel → Prop}
    {step : L → Kernel → L → Kernel → Prop} {leave : Departure → L → L → Prop}
    {final : L → α → Prop} {l : L} {Q : UInt32 → L → Mask → Kernel → Shared → Prop}
    (hx : x.primask = false) (hfits : x.Fits 1) {group : Ptr} {bits : UInt32}
    {fromIsr inIsr : Bool} (hcontext : wrongContext fromIsr inIsr = false)
    (hrejected : group = 0 → ∀ k s, Q 0 l x k s)
    (hset : group ≠ 0 → ∀ k, good k → ∃ result k' l' l'',
      JustRT.eventGroupSetBitsCommon k group bits fromIsr inIsr = some (result, k')
        ∧ (codeSegments good step leave final).Steps l k l' k'
        ∧ leave .archRequestSwitch l' l'' ∧ ∀ k s, Q result l'' x k s) :
    (eventGroupSetBitsCommon group bits fromIsr inIsr).Follows
      (codeSegments good step leave final) x Q l x k s := by
  unfold eventGroupSetBitsCommon
  by_cases hgroup : group = 0
  · rw [if_pos (.inl hgroup)]
    exact hrejected hgroup k s
  · have hvalid : ¬(group = 0 ∨ wrongContext fromIsr inIsr = true) := by
      simp [hgroup, hcontext]
    rw [if_neg hvalid]
    simp only [Prog.follows_bind]
    refine criticalEnter_outer hx fun s hs => ?_
    rw [modifyKernel_follows rfl, readKernel_follows rfl, modifyKernel_follows rfl]
    obtain ⟨result, k', l', l'', hcommon, hsteps, hleave, hq⟩ := hset hgroup s.kernel hs
    rw [JustRT.eventGroupSetBitsCommon, if_neg hvalid, Option.some.injEq, Prod.mk.injEq] at hcommon
    obtain ⟨rfl, rfl⟩ := hcommon
    exact criticalExit_outer hx hfits hsteps (Prog.Follows.leaveAt hleave hq)

theorem jrtEventGroupSetBits_returns (hx : x.primask = false) (hfits : x.Fits 1) (group : Ptr)
    (bits : UInt32) :
    Returns i n x (jrtEventGroupSetBits group bits false)
      ⟨some (.eventGroupSetBits group bits), .user, []⟩ x k s fun r => [.result r] := by
  refine eventGroupSetBitsCommon_follows hx hfits rfl (fun hgroup _ _ => ?_) fun hgroup k _ => ?_
  · refine ⟨rfl, Ends.enter fun k _ => ⟨.ret k 0, ?_, rfl, rfl, rfl, rfl⟩⟩
    simp [enter, JustRT.eventGroupSetBitsCommon, hgroup]
  · obtain ⟨result, k', hcommon⟩ : ∃ result k',
        JustRT.eventGroupSetBitsCommon k group bits false false = some (result, k') :=
      ⟨_, _, if_neg (by simp [hgroup, wrongContext])⟩
    have henter : enter k (.eventGroupSetBits group bits)
        = .ok { kernel := k', pc := .requestSwitch result } := by
      simp only [enter, hcommon]
    have hstep := Label.Step.enter henter rfl
    exact ⟨result, k', _, _, hcommon, Segments.Steps.single hstep, .archRequestSwitch,
      fun _ _ => ⟨rfl, Ends.refl _⟩⟩

theorem jrtEventGroupCreateStatic_returns (hx : x.primask = false) (group : Ptr) :
    Returns i n x (jrtEventGroupCreateStatic group)
      ⟨some (.eventGroupCreateStatic group), .user, []⟩ x k s fun _ => [.result 0] := by
  unfold jrtEventGroupCreateStatic
  split
  · next hgroup =>
      refine Prog.Follows.update_open hx fun s _ => ?_
      have henter : enter s.kernel (.eventGroupCreateStatic group)
          = .ok (.ret (s.kernel.setEventGroup group { bits := 0 }) 0) := by
        simp [enter, JustRT.jrtEventGroupCreateStatic, hgroup]
      have hstep := Label.Step.enter henter rfl
      exact ⟨_, Segments.Steps.single hstep, rfl, Ends.refl _⟩
  · next hgroup =>
      refine ⟨rfl, Ends.enter fun k _ => ⟨.ret k 0, ?_, rfl, rfl, rfl, rfl⟩⟩
      simp [enter, JustRT.jrtEventGroupCreateStatic, hgroup]

theorem jrtTaskNotifyTakeResume_returns (hx : x.primask = false) (hfits : x.Fits 1) (value : Ptr)
    (timeoutTicks : UInt32) :
    Returns i n x jrtTaskNotifyTakeResume ⟨none, .resumed (.taskNotifyTake value timeoutTicks), []⟩
      x k s fun r => (r.2.map .value).toList.map .output ++ [.result r.1] := by
  simp only [Returns, jrtTaskNotifyTakeResume, Prog.follows_bind]
  refine criticalEnter_outer hx fun s _ => ?_
  rw [modifyGetKernel_follows rfl]
  exact exit_resumed hx hfits rfl rfl rfl rfl

theorem jrtTaskNotifyTake_returns (hx : x.primask = false) (hfits : x.Fits 1) (value : Ptr)
    (timeoutTicks : UInt32) :
    Returns i n x (jrtTaskNotifyTake value timeoutTicks false)
      ⟨some (.taskNotifyTake value timeoutTicks), .user, []⟩ x k s
      fun r => (r.2.map .value).toList.map .output ++ [.result r.1] := by
  unfold jrtTaskNotifyTake
  by_cases hvalue : value = 0
  · rw [if_pos (.inl hvalue)]
    refine ⟨rfl, Ends.enter_proceed (fun _ => 0) (fun _ => rfl) fun k => ?_⟩
    refine ⟨.ret k 0, ?_, rfl, rfl, rfl, rfl⟩
    simp [proceed, proceedEntered, JustRT.jrtTaskNotifyTake, hvalue, Segment.ofFlow, Segment.ret]
  · have hvalid : ¬(value = 0 ∨ false = true) := by simp [hvalue]
    rw [if_neg hvalid]
    simp only [Returns, Prog.follows_bind]
    refine criticalEnter_enter hx (fun _ => rfl) fun s => ?_
    rw [readKernel_follows rfl]
    dsimp only
    split
    · next hnotified =>
        simp only [Prog.follows_bind]
        rw [modifyKernel_follows rfl]
        refine exit_entered_output (fun _ => 0) hx hfits ?_ rfl
        simp [proceedEntered, JustRT.jrtTaskNotifyTake, hvalue, hnotified, Segment.ofFlow]
    · next hnone =>
        split
        · next hpoll =>
            refine exit_entered_output (fun _ => 0) hx hfits ?_ rfl
            simp [proceedEntered, JustRT.jrtTaskNotifyTake, hvalue, hnone, hpoll, Segment.ofFlow]
        · next hwait =>
            simp only [Prog.follows_bind]
            rw [modifyKernel_follows rfl]
            refine criticalExit_yielding (fun _ => 0) hx hfits ?_ ?_
            · simp [proceedEntered, JustRT.jrtTaskNotifyTake, hvalue, hnone, hwait,
                Segment.ofFlow]
            · refine Prog.Follows.leaveAt .archYield fun k s => ?_
              exact jrtTaskNotifyTakeResume_returns hx hfits value timeoutTicks

theorem jrtEventGroupWaitBitsResume_returns (hx : x.primask = false) (hfits : x.Fits 1)
    (group : Ptr) (bits : UInt32) (waitAll clearOnExit : Bool) (timeoutTicks : UInt32) :
    Returns i n x (jrtEventGroupWaitBitsResume group bits)
      ⟨none, .resumed (.eventGroupWaitBits group bits waitAll clearOnExit timeoutTicks), []⟩
      x k s fun r => [.result r] := by
  simp only [Returns, jrtEventGroupWaitBitsResume, Prog.follows_bind]
  refine criticalEnter_outer hx fun s _ => ?_
  rw [modifyGetKernel_follows rfl]
  exact exit_resumed hx hfits rfl rfl rfl rfl

theorem jrtEventGroupWaitBits_returns (hx : x.primask = false) (hfits : x.Fits 1) (group : Ptr)
    (bits : UInt32) (waitAll clearOnExit : Bool) (timeoutTicks : UInt32) :
    Returns i n x (jrtEventGroupWaitBits group bits waitAll clearOnExit timeoutTicks false)
      ⟨some (.eventGroupWaitBits group bits waitAll clearOnExit timeoutTicks), .user, []⟩ x k s
      fun r => [.result r] := by
  unfold jrtEventGroupWaitBits
  by_cases hrejected : group = 0 ∨ bits = 0
  · have hinvalid : group = 0 ∨ bits = 0 ∨ false = true := by simpa using hrejected
    rw [if_pos hinvalid]
    refine ⟨rfl, Ends.enter_proceed (fun _ => 0) (fun _ => rfl) fun k => ?_⟩
    refine ⟨.ret k 0, ?_, rfl, rfl, rfl, rfl⟩
    simp [proceed, proceedEntered, JustRT.jrtEventGroupWaitBits, hrejected, Segment.ofFlow]
  · have hvalid : ¬(group = 0 ∨ bits = 0 ∨ false = true) := by simpa using hrejected
    rw [if_neg hvalid]
    simp only [Returns, Prog.follows_bind]
    refine criticalEnter_enter hx (fun _ => rfl) fun s => ?_
    rw [readKernel_follows rfl]
    dsimp only
    split
    · next hready =>
        simp only [Prog.follows_bind]
        rw [modifyKernel_follows rfl]
        refine exit_entered (fun _ => 0) hx hfits ?_ rfl
        simp [proceedEntered, JustRT.jrtEventGroupWaitBits, hrejected, hready, Segment.ofFlow]
    · next hunready =>
        split
        · next hpoll =>
            refine exit_entered (fun _ => 0) hx hfits ?_ rfl
            simp [proceedEntered, JustRT.jrtEventGroupWaitBits, hrejected, hunready, hpoll,
              Segment.ofFlow]
        · next hwait =>
            simp only [Prog.follows_bind]
            rw [modifyKernel_follows rfl, modifyKernel_follows rfl]
            refine criticalExit_yielding (fun _ => 0) hx hfits ?_ ?_
            · simp [proceedEntered, JustRT.jrtEventGroupWaitBits, hrejected, hunready,
                hwait, Segment.ofFlow]
            · refine Prog.Follows.leaveAt .archYield fun k s => ?_
              exact jrtEventGroupWaitBitsResume_returns hx hfits group bits waitAll clearOnExit
                timeoutTicks

end Events

/-! ## Timers -/

section Timers

variable {i n : Nat} {x : Mask} {k : Kernel} {s : Shared}

theorem timerLinkAnd_follows {L α : Type} {good : Kernel → Prop}
    {step : L → Kernel → L → Kernel → Prop} {leave : Departure → L → L → Prop}
    {final : L → α → Prop} {l : L} {m : Mask} {timer : Ptr} {start : Kernel → Kernel}
    {Q : Unit → L → Mask → Kernel → Shared → Prop} (hm : m.primask = true)
    (h : ∀ kernel, timerLinkLocked s.kernel timer = .ok kernel →
      Q () l m k { s with kernel := start kernel }) :
    (timerLinkAnd timer start).Follows (codeSegments good step leave final) x Q l m k s := by
  simp only [timerLinkAnd, Prog.follows_bind]
  refine attemptUnit_follows hm fun kernel hlink => ?_
  rw [modifyKernel_follows hm]
  exact h kernel hlink

theorem done_returns {α : Type} {call : Call} {a : α} {events : α → List Event}
    (henter : ∀ k, enter k call = .ok (.ret k 0)) (hevents : events a = [.result 0]) :
    Returns i n x (.done a) ⟨some call, .user, []⟩ x k s events := by
  refine ⟨rfl, ?_⟩
  rw [hevents]
  exact Ends.enter fun k _ => ⟨.ret k 0, henter k, rfl, rfl, rfl, rfl⟩

theorem jrtTimerCreateStatic_returns (hx : x.primask = false) (hfits : x.Fits 1) (timer : Ptr) :
    Returns i n x (jrtTimerCreateStatic timer) ⟨some (.timerCreateStatic timer), .user, []⟩ x k s
      fun _ => [.result 0] := by
  unfold jrtTimerCreateStatic
  split
  · next htimer =>
      refine done_returns (fun k => ?_) rfl
      simp [enter, JustRT.jrtTimerCreateStatic, htimer, pure, Except.pure, bind, Except.bind]
  · next htimer =>
      simp only [Returns, Prog.follows_bind]
      refine criticalEnter_outer hx fun s _ => ?_
      refine attemptUnit_follows rfl fun kernel hcreate => ?_
      refine exit_returns (a := ()) hx hfits ?_ rfl
      simp [enter, hcreate, bind, Except.bind, pure, Except.pure]

theorem jrtTimerStart_returns (hx : x.primask = false) (hfits : x.Fits 1) (timer : Ptr)
    (delayTicks : UInt32) :
    Returns i n x (jrtTimerStart timer delayTicks) ⟨some (.timerStart timer delayTicks), .user, []⟩
      x k s fun _ => [.result 0] := by
  unfold jrtTimerStart
  split
  · next htimer =>
      refine done_returns (fun k => ?_) rfl
      simp [enter, JustRT.jrtTimerStart, htimer, pure, Except.pure, bind, Except.bind]
  · next htimer =>
      simp only [Returns, Prog.follows_bind]
      refine criticalEnter_outer hx fun s _ => ?_
      refine timerLinkAnd_follows rfl fun kernel hlink => ?_
      refine exit_returns (a := ()) hx hfits ?_ rfl
      simp [enter, JustRT.jrtTimerStart, htimer, hlink, bind, Except.bind, pure, Except.pure]

theorem jrtTimerStartPeriodic_returns (hx : x.primask = false) (hfits : x.Fits 1) (timer : Ptr)
    (periodTicks : UInt32) :
    Returns i n x (jrtTimerStartPeriodic timer periodTicks)
      ⟨some (.timerStartPeriodic timer periodTicks), .user, []⟩ x k s fun _ => [.result 0] := by
  unfold jrtTimerStartPeriodic
  split
  · next hrejected =>
      refine done_returns (fun k => ?_) rfl
      simp [enter, JustRT.jrtTimerStartPeriodic, hrejected, pure, Except.pure, bind, Except.bind]
  · next hvalid =>
      simp only [Returns, Prog.follows_bind]
      refine criticalEnter_outer hx fun s _ => ?_
      refine timerLinkAnd_follows rfl fun kernel hlink => ?_
      refine exit_returns (a := ()) hx hfits ?_ rfl
      simp [enter, JustRT.jrtTimerStartPeriodic, hvalid, hlink, bind, Except.bind, pure,
        Except.pure]

theorem jrtTimerRestart_returns (hx : x.primask = false) (hfits : x.Fits 1) (timer : Ptr) :
    Returns i n x (jrtTimerRestart timer) ⟨some (.timerRestart timer), .user, []⟩ x k s
      fun _ => [.result 0] := by
  unfold jrtTimerRestart
  split
  · next htimer =>
      refine done_returns (fun k => ?_) rfl
      simp [enter, JustRT.jrtTimerRestart, htimer, pure, Except.pure, bind, Except.bind]
  · next htimer =>
      simp only [Returns, Prog.follows_bind]
      refine criticalEnter_outer hx fun s _ => ?_
      rw [readKernel_follows rfl]
      split
      · next hreload =>
          simp only [Prog.follows_bind]
          refine timerLinkAnd_follows rfl fun kernel hlink => ?_
          refine exit_returns (a := ()) hx hfits ?_ rfl
          simp [enter, JustRT.jrtTimerRestart, htimer, hreload, hlink, bind, Except.bind, pure,
            Except.pure]
      · next hnone =>
          refine exit_returns (a := ()) hx hfits ?_ rfl
          simp [enter, JustRT.jrtTimerRestart, htimer, hnone, bind, Except.bind, pure, Except.pure]

theorem jrtTimerStop_returns (hx : x.primask = false) (hfits : x.Fits 1) (timer : Ptr) :
    Returns i n x (jrtTimerStop timer) ⟨some (.timerStop timer), .user, []⟩ x k s
      fun _ => [.result 0] := by
  unfold jrtTimerStop
  split
  · next htimer => exact done_returns (fun k => by simp [enter, JustRT.jrtTimerStop, htimer]) rfl
  · next htimer =>
      simp only [Returns, Prog.follows_bind]
      refine criticalEnter_outer hx fun s _ => ?_
      rw [modifyKernel_follows rfl]
      refine exit_returns (a := ()) hx hfits ?_ rfl
      simp [enter, JustRT.jrtTimerStop, htimer]

theorem jrtTimerTakeExpirations_returns (hx : x.primask = false) (hfits : x.Fits 1)
    (timer : Ptr) :
    Returns i n x (jrtTimerTakeExpirations timer) ⟨some (.timerTakeExpirations timer), .user, []⟩
      x k s fun r => [.result r] := by
  unfold jrtTimerTakeExpirations
  split
  · next htimer =>
      exact done_returns (fun k => by simp [enter, JustRT.jrtTimerTakeExpirations, htimer]) rfl
  · next htimer =>
      simp only [Returns, Prog.follows_bind]
      refine criticalEnter_outer hx fun s _ => ?_
      rw [readKernel_follows rfl, modifyKernel_follows rfl]
      refine exit_returns hx hfits ?_ rfl
      simp [enter, JustRT.jrtTimerTakeExpirations, htimer]

theorem jrtTimerSetCallback_returns (hx : x.primask = false) (hfits : x.Fits 1)
    (timer callback argument : Ptr) :
    Returns i n x (jrtTimerSetCallback timer callback argument)
      ⟨some (.timerSetCallback timer callback argument), .user, []⟩ x k s
      fun _ => [.result 0] := by
  unfold jrtTimerSetCallback
  split
  · next htimer =>
      exact done_returns (fun k => by simp [enter, JustRT.jrtTimerSetCallback, htimer]) rfl
  · next htimer =>
      simp only [Returns, Prog.follows_bind]
      refine criticalEnter_outer hx fun s _ => ?_
      rw [modifyKernel_follows rfl, readKernel_follows rfl]
      split
      · next hwake =>
          simp only [Prog.follows_bind]
          rw [modifyKernel_follows rfl]
          refine criticalExit_requests 0 hx hfits ?_ ?_
          · simp [enter, JustRT.jrtTimerSetCallback, htimer, hwake]
          · exact Prog.Follows.leaveAt .archRequestSwitch fun _ _ => ⟨rfl, Ends.refl _⟩
      · next hnone =>
          have henter : enter s.kernel (.timerSetCallback timer callback argument)
              = .ok (.ret (s.kernel.setTimer timer
                ((s.kernel.timers timer).withCallback callback argument)) 0) := by
            simp only [enter, JustRT.jrtTimerSetCallback, if_neg htimer]
            rw [if_neg hnone]
          exact criticalExit_enter hx hfits henter rfl rfl ⟨rfl, Ends.refl _⟩

theorem timerDispatchTake_returns (hx : x.primask = false) (hfits : x.Fits 1) (timer : Ptr) :
    Returns i n x (timerDispatchTake timer) ⟨some (.timerDispatch timer), .user, []⟩ x k s
      fun r => [.output (.callbacks r.1 r.2.1 r.2.2), .result 0] := by
  unfold timerDispatchTake
  split
  · next htimer =>
      refine ⟨rfl, Ends.enter fun k _ => ⟨_, rfl, rfl, ?_, rfl, ?_⟩⟩
      · simp [JustRT.jrtTimerDispatch, htimer, Segment.ret]
      · simp [JustRT.jrtTimerDispatch, htimer, Segment.ret, shown]
  · next htimer =>
      simp only [Returns, Prog.follows_bind]
      refine criticalEnter_outer hx fun s _ => ?_
      rw [readKernel_follows rfl, modifyKernel_follows rfl]
      have henter : enter s.kernel (.timerDispatch timer)
          = .ok { Segment.ret (JustRT.jrtTimerDispatch s.kernel timer).2 0 with
              output := some (.callbacks (JustRT.jrtTimerDispatch s.kernel timer).1.1
                (JustRT.jrtTimerDispatch s.kernel timer).1.2.1
                (JustRT.jrtTimerDispatch s.kernel timer).1.2.2) } := rfl
      by_cases hcallback : (s.kernel.timers timer).callback = 0
      · simp only [JustRT.jrtTimerDispatch, htimer, hcallback, if_false, ne_eq, not_true] at henter
        simp only [hcallback, ne_eq, not_true, if_false, if_true]
        exact criticalExit_enter hx hfits henter rfl rfl ⟨rfl, Ends.refl _⟩
      · simp only [JustRT.jrtTimerDispatch, htimer, hcallback, if_false, ne_eq, not_false_iff,
          if_true] at henter
        simp only [hcallback, ne_eq, not_false_iff, if_true, if_false]
        exact criticalExit_enter hx hfits henter rfl rfl ⟨rfl, Ends.refl _⟩

/-- The walk of the timer list, in one section: it stops at a timer to serve, or
blocks the service. -/
theorem timerClaimLoop_follows {Q : Option (Ptr × Ptr) → Label → Mask → Kernel → Shared → Prop}
    (hx : x.primask = false) (hfits : x.Fits 1) (fuel : Nat) (timer : Ptr)
    (hproceed : ∀ claimed, JustRT.timerClaimLoop s.kernel fuel timer = .ok claimed →
      proceedEntered k (fun _ => 0) false .timerServiceClaim
        = .ok (claimed.elim
            { kernel := JustRT.taskTimerServiceBlockLocked s.kernel
              pc := .yielding .timerServiceClaim }
            fun t =>
              { kernel := s.kernel.setTimer t ((s.kernel.timers t).withExpirations
                  ((s.kernel.timers t).expirations - 1))
                pc := .user
                output := some (.callbacks (s.kernel.timers t).callback
                  (s.kernel.timers t).argument 1) }))
    (hclaimed : ∀ callback argument k s,
      Q (some (callback, argument)) ⟨none, .user, [.output (.callbacks callback argument 1)]⟩ x k s)
    (hblocked : ∀ k s, Q none ⟨none, .resumed .timerServiceClaim, []⟩ x k s) :
    (timerClaimLoop false fuel timer).Follows (threadSegments i n) x Q
      ⟨none, .entered .timerServiceClaim false, []⟩ x.entered k s := by
  induction fuel generalizing timer with
  | zero => exact Prog.follows_halt
  | succ fuel ih =>
      unfold timerClaimLoop
      by_cases htimer : timer = 0
      · rw [if_pos htimer]
        simp only [taskTimerServiceBlockLocked, Prog.follows_bind]
        rw [modifyKernel_follows rfl]
        have hblock := hproceed none (by simp [JustRT.timerClaimLoop, htimer])
        refine criticalExit_yielding (fun _ => 0) hx hfits hblock ?_
        exact Prog.Follows.leaveAt .archYield hblocked
      · rw [if_neg htimer]
        simp only [Prog.follows_bind]
        rw [readKernel_follows rfl]
        split
        · next hready =>
            simp only [Prog.follows_bind]
            rw [modifyKernel_follows rfl]
            have hclaim := hproceed (some timer) (by simp [JustRT.timerClaimLoop, htimer, hready])
            exact criticalExit_proceed (fun _ => 0) hx hfits (congrArg some hclaim) rfl rfl
              (hclaimed _ _ _ _)
        · next hunready =>
            refine ih _ fun claimed hclaimed => hproceed claimed ?_
            rw [JustRT.timerClaimLoop, if_neg htimer, if_neg hunready]
            exact hclaimed

/-- A turn of the timer service claims a callback, or blocks and takes the next
turn when it resumes. -/
theorem timerServiceBody_returns (hx : x.primask = false) (hfits : x.Fits 1) (fuel : Nat)
    (l : Label)
    (hl : ∀ k : Kernel, k.gCurrentTaskIndex = i ∧ k.taskCount = n →
      (threadSegments i n).Steps l k ⟨none, .entered .timerServiceClaim false, []⟩ k) :
    Returns i n x (timerServiceBody fuel) l x k s
      fun r => [.output (.callbacks r.1 r.2 1)] := by
  induction fuel generalizing l k s with
  | zero => exact Prog.follows_halt
  | succ fuel ih =>
      simp only [Returns, timerServiceBody, kernelTimerServiceClaim, Prog.follows_bind]
      refine criticalEnter_behind hx fun s hs => ⟨_, hl s.kernel hs, ?_⟩
      rw [readKernel_follows rfl]
      refine timerClaimLoop_follows hx hfits _ _ (fun claimed hclaimed => ?_)
        (fun callback argument k s => ⟨rfl, Ends.refl _⟩) fun k s => ?_
      · cases claimed with
        | none =>
            simp [proceedEntered, JustRT.kernelTimerServiceClaim, hclaimed, bind, Except.bind, pure,
              Except.pure]
        | some t =>
            simp [proceedEntered, JustRT.kernelTimerServiceClaim, hclaimed, bind, Except.bind, pure,
              Except.pure, Kernel.setTimer, JrtTimer.withExpirations]
      · refine ih _ fun k _ => Segments.Steps.single ?_
        have hstep : Label.Step ⟨none, .resumed .timerServiceClaim, []⟩ k _ _ :=
          .proceed (fun _ => 0) rfl rfl
        exact hstep

end Timers

/-! ## Delays -/

section Delay

variable {i n : Nat} {x : Mask} {k : Kernel} {s : Shared}

/-- The tick is read in a section; the delay is a supervisor call of its own. -/
theorem jrtTaskDelayUntil_returns (hx : x.primask = false) (hfits : x.Fits 1)
    (previousWake : Option UInt32) (periodTicks : UInt32) :
    Returns i n x (jrtTaskDelayUntil previousWake periodTicks)
      ⟨some (.taskDelayUntil previousWake periodTicks), .user, []⟩ x k s
      fun wake => (wake.map .value).toList.map .output ++ [.result 0] := by
  cases previousWake with
  | none => exact done_returns (fun _ => rfl) rfl
  | some previousWake =>
      simp only [Returns, jrtTaskDelayUntil, jrtKernelGetTickCount, Prog.follows_bind,
        Prog.pure_eq, Prog.follows_done]
      refine criticalEnter_outer hx fun s _ => ?_
      rw [readKernel_follows rfl]
      refine criticalExit_enter hx hfits rfl rfl rfl ?_
      split
      · next hpassed =>
          refine ⟨rfl, Ends.proceed (fun _ => 0) fun k => ⟨.ret k 0, ?_, rfl, rfl, rfl, rfl⟩⟩
          simp [proceed, hpassed]
      · next hearly =>
          simp only [Prog.follows_bind]
          refine Prog.Follows.leaveAt (.jrtTaskDelay ?_) fun _ _ => ⟨rfl, Ends.refl _⟩
          simpa using hearly

end Delay

/-! ## All calls -/

/-- The code of a call is refined by its segments. -/
theorem code_refines {i n : Nat} {x : Mask} (hx : x.primask = false) (hfits : x.Fits 2)
    {source : Nat → UInt8} {fuel : Nat} {call : Call} {p : Code Return}
    (hcode : call.code source fuel = some p) (k : Kernel) (s : Shared) :
    p.Refines (threadSegments i n) x ⟨some call, .user, []⟩ x k s := by
  have hfits₁ : x.Fits 1 := hfits.mono (by omega)
  cases call with
  | taskYield => cases hcode
  | taskDelay ticks => cases hcode
  | taskSuspend taskId => cases hcode
  | taskResume taskId => cases hcode
  | boardLedToggle => cases hcode
  | taskDelayUntil previousWake periodTicks =>
      cases hcode
      exact (jrtTaskDelayUntil_returns hx hfits₁ previousWake periodTicks).refines _ fun _ => rfl
  | semaphoreCreateBinaryStatic semaphore available =>
      cases hcode
      exact (jrtSemaphoreCreateBinaryStatic_returns hx hfits₁ semaphore available).refines _
        fun _ => rfl
  | semaphoreTake semaphore timeoutTicks =>
      cases hcode
      exact (jrtSemaphoreTake_returns hx hfits₁ semaphore timeoutTicks).refines _ fun _ => rfl
  | semaphoreGive semaphore =>
      cases hcode
      exact (jrtSemaphoreGive_returns hx hfits semaphore).refines _ fun _ => rfl
  | mutexCreateRecursiveStatic mutex =>
      cases hcode
      exact (jrtMutexCreateRecursiveStatic_returns hx hfits₁ mutex).refines _ fun _ => rfl
  | mutexLock mutex timeoutTicks =>
      cases hcode
      exact (jrtMutexLock_returns hx hfits mutex timeoutTicks).refines _ fun _ => rfl
  | mutexUnlock mutex =>
      cases hcode
      exact (jrtMutexUnlock_returns hx hfits mutex).refines _ fun _ => rfl
  | queueCreateStatic queue storage capacity itemSize =>
      cases hcode
      exact (jrtQueueCreateStatic_returns hx hfits₁ queue storage capacity itemSize).refines _
        fun _ => rfl
  | queueSend queue timeoutTicks =>
      cases hcode
      exact (jrtQueueSend_returns hx hfits queue source timeoutTicks fuel).refines _ fun _ => rfl
  | queueReceive queue timeoutTicks =>
      cases hcode
      exact (jrtQueueReceive_returns hx hfits queue timeoutTicks fuel).refines _ fun _ => rfl
  | taskNotify taskId value =>
      cases hcode
      exact (jrtTaskNotify_returns hx hfits₁ taskId value).refines _ fun _ => rfl
  | taskNotifyTake value timeoutTicks =>
      cases hcode
      exact (jrtTaskNotifyTake_returns hx hfits₁ value timeoutTicks).refines _ fun _ => rfl
  | eventGroupCreateStatic group =>
      cases hcode
      exact (jrtEventGroupCreateStatic_returns hx group).refines _ fun _ => rfl
  | eventGroupSetBits group bits =>
      cases hcode
      exact (jrtEventGroupSetBits_returns hx hfits₁ group bits).refines _ fun _ => rfl
  | eventGroupWaitBits group bits waitAll clearOnExit timeoutTicks =>
      cases hcode
      exact (jrtEventGroupWaitBits_returns hx hfits₁ group bits waitAll clearOnExit
        timeoutTicks).refines _ fun _ => rfl
  | timerCreateStatic timer =>
      cases hcode
      exact (jrtTimerCreateStatic_returns hx hfits₁ timer).refines _ fun _ => rfl
  | timerSetCallback timer callback argument =>
      cases hcode
      exact (jrtTimerSetCallback_returns hx hfits₁ timer callback argument).refines _ fun _ => rfl
  | timerStart timer delayTicks =>
      cases hcode
      exact (jrtTimerStart_returns hx hfits₁ timer delayTicks).refines _ fun _ => rfl
  | timerStartPeriodic timer periodTicks =>
      cases hcode
      exact (jrtTimerStartPeriodic_returns hx hfits₁ timer periodTicks).refines _ fun _ => rfl
  | timerRestart timer =>
      cases hcode
      exact (jrtTimerRestart_returns hx hfits₁ timer).refines _ fun _ => rfl
  | timerStop timer =>
      cases hcode
      exact (jrtTimerStop_returns hx hfits₁ timer).refines _ fun _ => rfl
  | timerTakeExpirations timer =>
      cases hcode
      exact (jrtTimerTakeExpirations_returns hx hfits₁ timer).refines _ fun _ => rfl
  | timerDispatch timer =>
      cases hcode
      exact (timerDispatchTake_returns hx hfits₁ timer).refines _ fun _ => rfl
  | callbackReturn =>
      cases hcode
      refine (timerServiceBody_returns hx hfits₁ fuel _ fun k _ => ?_).refines _ fun _ => rfl
      have hstep := Label.Step.enter (k := k) (rfl : enter k .callbackReturn = _) rfl
      exact Segments.Steps.single hstep

/-- So is the timer service from where it first resumes. -/
theorem timerService_refines {i n : Nat} {x : Mask} (hx : x.primask = false) (hfits : x.Fits 1)
    {source : Nat → UInt8} {fuel : Nat} {p : Code Return}
    (hcode : Call.callbackReturn.code source fuel = some p) (k : Kernel) (s : Shared) :
    p.Refines (threadSegments i n) x ⟨none, .resumed .timerServiceClaim, []⟩ x k s := by
  cases hcode
  refine (timerServiceBody_returns hx hfits fuel _ fun k _ => ?_).refines _ fun _ => rfl
  have hstep : Label.Step ⟨none, .resumed .timerServiceClaim, []⟩ k _ _ :=
    .proceed (fun _ => 0) rfl rfl
  exact Segments.Steps.single hstep

/-! ## Handlers -/

/-- Where a handler stands: ahead of its section, or behind it, with a switch
still to be requested or without. -/
inductive HandlerLabel where
  | before
  | after (owes : Bool)

inductive HandlerLabel.Step : Exception → HandlerLabel → Kernel → HandlerLabel → Kernel → Prop where
  | sysTick {k k' : Kernel} : JustRT.tickTasks k = .ok k' → Step .sysTick .before k (.after true) k'
  | irq {call : IsrCall} {k k' : Kernel} {result : UInt32} {switch : Bool} :
      isrCall k call = (k', result, switch) → Step (.irq call) .before k (.after switch) k'
  | pendsv {sp : Ptr} {k : Kernel} {r : Ptr × Kernel} :
      JustRT.pendsvSwitch k sp = .ok r → Step (.pendsv sp) .before k (.after false) r.2

inductive HandlerLabel.Leave : Departure → HandlerLabel → HandlerLabel → Prop where
  | archRequestSwitch : Leave .archRequestSwitch (.after true) (.after false)

abbrev handlerSegments (e : Exception) (n : Nat) :
    Segments Shared Kernel Departure HandlerLabel Unit :=
  codeSegments (fun k => k.taskCount = n) (HandlerLabel.Step e) HandlerLabel.Leave
    fun l _ => l = .after false

section Handlers

variable {n : Nat} {x : Mask} {k : Kernel} {s : Shared}

/-- The handler is at its end, or does nothing. -/
abbrev HandlerEnds (e : Exception) (n : Nat) (x : Mask) (l : HandlerLabel) (m : Mask) : Prop :=
  m = x ∧ ∀ k : Kernel, k.taskCount = n →
    ∃ l', (handlerSegments e n).Steps l k l' k ∧ l' = .after false

theorem HandlerEnds.after (e : Exception) (n : Nat) (x : Mask) :
    HandlerEnds e n x (.after false) x :=
  ⟨rfl, fun _ _ => ⟨_, Segments.Steps.refl _ _, rfl⟩⟩

theorem HandlerEnds.rejected {call : IsrCall}
    (h : ∀ k : Kernel, k.taskCount = n → isrCall k call = (k, 0, false)) :
    HandlerEnds (.irq call) n x .before x :=
  ⟨rfl, fun k hk => ⟨_, Segments.Steps.single (.irq (h k hk)), rfl⟩⟩

theorem sysTick_refines (hx : x.primask = false) (hfits : x.Fits 1) :
    Exception.sysTick.code.Refines (handlerSegments .sysTick n) x .before x k s := by
  simp only [Prog.Refines, Exception.code, tickTasks, Prog.follows_bind]
  refine criticalEnter_outer hx fun s _ => ?_
  refine attemptUnit_follows rfl fun kernel htick => ?_
  refine criticalExit_outer hx hfits (Segments.Steps.single (.sysTick htick)) ?_
  exact Prog.Follows.leaveAt .archRequestSwitch fun _ _ => HandlerEnds.after _ _ _

theorem pendsv_refines (hx : x.primask = false) (hfits : x.Fits 1) (currentSp : Ptr) :
    (Exception.pendsv currentSp).code.Refines (handlerSegments (.pendsv currentSp) n) x .before x
      k s := by
  simp only [Prog.Refines, Exception.code, forEffect, pendsvSwitch, Prog.follows_bind]
  refine criticalEnter_outer hx fun s _ => ?_
  refine attemptKernel_follows rfl fun sp kernel hswitch => ?_
  refine criticalExit_outer hx hfits (Segments.Steps.single (.pendsv hswitch)) ?_
  exact readKernel_stutter hx fun _ _ => HandlerEnds.after _ _ _

theorem semaphoreGiveFromIsr_refines (hx : x.primask = false) (hfits : x.Fits 2)
    (semaphore : Ptr) :
    (Exception.irq (.semaphoreGiveFromIsr semaphore)).code.Refines
      (handlerSegments (.irq (.semaphoreGiveFromIsr semaphore)) n) x .before x k s := by
  simp only [Prog.Refines, Exception.code, jrtSemaphoreGiveFromIsr, Bool.not_true,
    Bool.false_eq_true, if_false, Prog.follows_bind]
  refine semaphoreGiveLocked_follows hx hfits semaphore fun s _ => ?_
  have hcall : isrCall s.kernel (.semaphoreGiveFromIsr semaphore)
      = (JustRT.semaphoreGiveLocked s.kernel semaphore, 0, true) := rfl
  exact ⟨_, Segments.Steps.single (.irq hcall), fun _ _ =>
    Prog.Follows.leaveAt .archRequestSwitch fun _ _ => HandlerEnds.after _ _ _⟩

theorem isrSend_eq {queue : Ptr} {source : Nat → UInt8} {r : UInt32 × Kernel}
    (h : JustRT.jrtQueueSendFromIsr k queue source true = r) :
    isrCall k (.queueSendFromIsr queue source) = (r.2, r.1, r.1 != 0) := by
  rw [isrCall, h]

theorem queueSendFromIsr_refines (hx : x.primask = false) (hfits : x.Fits 2)
    (queue : Ptr) (source : Nat → UInt8) :
    (Exception.irq (.queueSendFromIsr queue source)).code.Refines
      (handlerSegments (.irq (.queueSendFromIsr queue source)) n) x .before x k s := by
  have hfits₁ : x.Fits 1 := hfits.mono (by omega)
  simp only [Prog.Refines, Exception.code, forEffect, jrtQueueSendFromIsr, Bool.not_true,
    Bool.false_eq_true, if_false, Prog.follows_bind]
  refine criticalEnter_outer hx fun s _ => ?_
  rw [modifyKernel_follows rfl, readKernel_follows rfl]
  split
  · next haccepts =>
      simp only [Prog.follows_bind]
      rw [modifyKernel_follows rfl, modifyKernel_follows rfl,
        queueWakeReceiver_follows rfl hfits.entered]
      have hsend : JustRT.jrtQueueSendFromIsr s.kernel queue source true = (1, _) := if_pos haccepts
      refine criticalExit_outer hx hfits₁ (Segments.Steps.single (.irq (isrSend_eq hsend))) ?_
      exact Prog.Follows.leaveAt .archRequestSwitch fun _ _ => HandlerEnds.after _ _ _
  · next hfull =>
      simp only [Prog.follows_bind]
      rw [modifyKernel_follows rfl]
      have hsend : JustRT.jrtQueueSendFromIsr s.kernel queue source true = (0, _) := if_neg hfull
      exact criticalExit_outer hx hfits₁ (Segments.Steps.single (.irq (isrSend_eq hsend)))
        (HandlerEnds.after _ _ _)

theorem taskNotifyFromIsr_refines (hx : x.primask = false) (hfits : x.Fits 1) (taskId : Nat)
    (value : UInt32) :
    (Exception.irq (.taskNotifyFromIsr taskId value)).code.Refines
      (handlerSegments (.irq (.taskNotifyFromIsr taskId value)) n) x .before x k s := by
  simp only [Prog.Refines, Exception.code, forEffect, jrtTaskNotifyFromIsr, Prog.follows_bind]
  refine taskNotifyCommon_follows hx hfits (fun _ hk => hk) rfl (fun hid _ _ _ => ?_)
    fun hid k hk => ?_
  · refine HandlerEnds.rejected fun k hk => ?_
    have hid' : taskId ≥ k.taskCount := hk.trans_le hid
    simp [isrCall, JustRT.taskNotifyCommon, hid']
  · have hid' : ¬taskId ≥ k.taskCount := by omega
    obtain ⟨k', hcommon⟩ : ∃ k', JustRT.taskNotifyCommon k taskId value true true = some k' :=
      ⟨_, notifySection_eq k taskId value rfl hid'⟩
    have hcall : isrCall k (.taskNotifyFromIsr taskId value) = (k', 1, true) := by
      simp only [isrCall, hcommon]
    exact ⟨k', _, hcommon, Segments.Steps.single (.irq hcall), _, .archRequestSwitch,
      fun _ _ => HandlerEnds.after _ _ _⟩

theorem eventGroupSetBitsFromIsr_refines (hx : x.primask = false) (hfits : x.Fits 1)
    (group : Ptr) (bits : UInt32) :
    (Exception.irq (.eventGroupSetBitsFromIsr group bits)).code.Refines
      (handlerSegments (.irq (.eventGroupSetBitsFromIsr group bits)) n) x .before x k s := by
  simp only [Prog.Refines, Exception.code, forEffect, jrtEventGroupSetBitsFromIsr, Bool.not_true,
    Bool.false_eq_true, if_false, Prog.follows_bind]
  refine eventGroupSetBitsCommon_follows hx hfits rfl (fun hgroup _ _ => ?_) fun hgroup k _ => ?_
  · refine HandlerEnds.rejected fun k _ => ?_
    simp [isrCall, JustRT.eventGroupSetBitsCommon, hgroup]
  · obtain ⟨result, k', hcommon⟩ : ∃ result k',
        JustRT.eventGroupSetBitsCommon k group bits true true = some (result, k') :=
      ⟨_, _, if_neg (by simp [hgroup, wrongContext])⟩
    have hcall : isrCall k (.eventGroupSetBitsFromIsr group bits) = (k', result, true) := by
      simp only [isrCall, hcommon]
    exact ⟨result, k', _, _, hcommon, Segments.Steps.single (.irq hcall), .archRequestSwitch,
      fun _ _ => HandlerEnds.after _ _ _⟩

end Handlers

/-- The code of a handler is refined by its segment. -/
theorem exception_refines {n : Nat} {x : Mask} (hx : x.primask = false) (hfits : x.Fits 2)
    (e : Exception) (k : Kernel) (s : Shared) :
    e.code.Refines (handlerSegments e n) x .before x k s := by
  have hfits₁ : x.Fits 1 := hfits.mono (by omega)
  cases e with
  | sysTick => exact sysTick_refines hx hfits₁
  | pendsv currentSp => exact pendsv_refines hx hfits₁ currentSp
  | irq call =>
      cases call with
      | semaphoreGiveFromIsr semaphore => exact semaphoreGiveFromIsr_refines hx hfits semaphore
      | queueSendFromIsr queue source => exact queueSendFromIsr_refines hx hfits queue source
      | taskNotifyFromIsr taskId value => exact taskNotifyFromIsr_refines hx hfits₁ taskId value
      | eventGroupSetBitsFromIsr group bits =>
          exact eventGroupSetBitsFromIsr_refines hx hfits₁ group bits

end Critical

end JustRT
