import JustRT.Segment
import JustRT.Switch

/-!
# One step of the system

`step` taken apart once: `ThreadSegment` is a segment of the running task,
`StepCases` what each action does. An invariant of the system is then
proved for the cases, and `Run.induction` carries it along every run.

The cases carry the guards of the step with them, that the kernel runs,
that no switch is pending, that the function it calls has come to its end;
so whoever has a case in hand need not look at `step` again.
-/

namespace JustRT

/-! ## Control variables -/

theorem enter_frame {k : Kernel} {call : Call} {s : Segment} (h : enter k call = .ok s) :
    ControlFrame k s.kernel := by
  cases call with
  | taskYield =>
      obtain rfl := Except.ok.inj h
      simp
  | taskDelay ticks =>
      obtain rfl := Except.ok.inj h
      simp
  | taskDelayUntil previousWake period => cases previousWake <;> cases h <;> simp
  | taskSuspend id =>
      obtain rfl := Except.ok.inj h
      simp
  | taskResume id =>
      obtain rfl := Except.ok.inj h
      simp
  | boardLedToggle =>
      obtain rfl := Except.ok.inj h
      simp
  | semaphoreCreateBinaryStatic s available =>
      obtain rfl := Except.ok.inj h
      simp
  | semaphoreTake s timeout =>
      obtain rfl := Except.ok.inj h
      simp
  | semaphoreGive s =>
      obtain rfl := Except.ok.inj h
      simp
  | mutexCreateRecursiveStatic m =>
      simp only [enter, exec_bind_eq_ok] at h
      obtain ⟨k', hcreate, h⟩ := h
      cases h
      exact (jrtMutexCreateRecursiveStatic_frame hcreate).1.1
  | mutexLock m timeout =>
      obtain rfl := Except.ok.inj h
      simp
  | mutexUnlock m =>
      obtain rfl := Except.ok.inj h
      simp
  | queueCreateStatic q storage capacity itemSize =>
      obtain rfl := Except.ok.inj h
      simp
  | queueSend q timeout =>
      obtain rfl := Except.ok.inj h
      simp
  | queueReceive q timeout =>
      obtain rfl := Except.ok.inj h
      simp
  | taskNotify task value =>
      simp only [enter] at h
      split at h
      · obtain rfl := Except.ok.inj h
        simp
      · next hsome =>
          have hframe := taskNotifyCommon_frame hsome
          cases h
          simp only [TableFrame] at hframe
          simp [hframe]
  | taskNotifyTake value timeout =>
      obtain rfl := Except.ok.inj h
      simp
  | eventGroupCreateStatic g =>
      obtain rfl := Except.ok.inj h
      simp
  | eventGroupSetBits g bits =>
      simp only [enter] at h
      split at h
      · obtain rfl := Except.ok.inj h
        simp
      · next hsome => cases h; exact (eventGroupSetBitsCommon_frame hsome).1
  | eventGroupWaitBits g bits waitAll clear timeout =>
      obtain rfl := Except.ok.inj h
      simp
  | timerCreateStatic t =>
      simp only [enter, exec_bind_eq_ok] at h
      obtain ⟨k', hcreate, h⟩ := h
      cases h
      exact (jrtTimerCreateStatic_frame hcreate).1.1
  | timerSetCallback t callback argument =>
      have hframe := jrtTimerSetCallback_frame k t callback argument
      simp only [enter] at h
      split at h <;> next hcall =>
        rw [hcall] at hframe
        cases h
        exact hframe.1
  | timerStart t delay =>
      simp only [enter, exec_bind_eq_ok] at h
      obtain ⟨k', hstart, h⟩ := h
      cases h
      exact (jrtTimerStart_frame hstart).1.1
  | timerStartPeriodic t period =>
      simp only [enter, exec_bind_eq_ok] at h
      obtain ⟨k', hstart, h⟩ := h
      cases h
      exact (jrtTimerStartPeriodic_frame hstart).1.1
  | timerRestart t =>
      simp only [enter, exec_bind_eq_ok] at h
      obtain ⟨k', hstart, h⟩ := h
      cases h
      exact (jrtTimerRestart_frame hstart).1.1
  | timerStop t =>
      obtain rfl := Except.ok.inj h
      simp
  | timerTakeExpirations t =>
      obtain rfl := Except.ok.inj h
      simp
  | timerDispatch t =>
      obtain rfl := Except.ok.inj h
      simp
  | callbackReturn =>
      obtain rfl := Except.ok.inj h
      simp

@[simp] theorem ofFlow_kernel (call : WaitCall) (r : Flow × Kernel) :
    (Segment.ofFlow call r).kernel = r.2 := by
  obtain ⟨flow, k⟩ := r
  cases flow <;> rfl

theorem proceedEntered_frame {k : Kernel} {source : Nat → UInt8} {reserved : Bool}
    {call : WaitCall} {s : Segment} (h : proceedEntered k source reserved call = .ok s) :
    ControlFrame k s.kernel := by
  cases call with
  | semaphoreTake sem timeout deadline =>
      obtain rfl := Except.ok.inj h
      simp
  | mutexLock m timeout deadline =>
      obtain rfl := Except.ok.inj h
      simp
  | queueSend q timeout deadline =>
      obtain rfl := Except.ok.inj h
      simp
  | queueReceive q timeout deadline =>
      obtain rfl := Except.ok.inj h
      simp
  | taskNotifyTake value timeout =>
      obtain rfl := Except.ok.inj h
      simp
  | eventGroupWaitBits g bits waitAll clear timeout =>
      obtain rfl := Except.ok.inj h
      simp
  | timerServiceClaim =>
      simp only [proceedEntered, exec_bind_eq_ok] at h
      obtain ⟨⟨claimed, k'⟩, hclaim, h⟩ := h
      have hframe := kernelTimerServiceClaim_frame hclaim
      cases claimed <;> cases h <;> exact hframe.1

@[simp] theorem proceedResumed_frame (k : Kernel) (call : WaitCall) :
    ControlFrame k (proceedResumed k call).kernel := by
  cases call with
  | semaphoreTake s timeout deadline => simp [proceedResumed]
  | mutexLock m timeout deadline => simp [proceedResumed]
  | queueSend q timeout deadline =>
      simp only [proceedResumed]
      split <;> simp
  | queueReceive q timeout deadline =>
      simp only [proceedResumed]
      split <;> simp
  | taskNotifyTake value timeout => simp [proceedResumed]
  | eventGroupWaitBits g bits waitAll clear timeout => simp [proceedResumed]
  | timerServiceClaim => simp [proceedResumed]

@[simp] theorem isrCall_frame (k : Kernel) (call : IsrCall) :
    ControlFrame k (isrCall k call).1 := by
  cases call with
  | semaphoreGiveFromIsr s => simp [isrCall]
  | queueSendFromIsr q source => simp [isrCall]
  | taskNotifyFromIsr task value =>
      simp only [isrCall]
      split
      · simp
      · next h =>
          have hframe := taskNotifyCommon_frame h
          simp only [TableFrame] at hframe
          simp [hframe]
  | eventGroupSetBitsFromIsr g bits =>
      simp only [isrCall]
      split
      · simp
      · next h => exact (eventGroupSetBitsCommon_frame h).1

/-! ## Segments of the running task -/

/-- The segment `s` that the action runs for the running task. -/
inductive ThreadSegment (c : Cfg) : Action → Segment → Prop where
  | call {call : Call} {s : Segment} : c.pc c.current = .user →
      (call = .callbackReturn → c.current = c.kernel.timerServiceTaskIndex) →
      enter c.kernel call = .ok s → ThreadSegment c (.call call) s
  | entered {call : WaitCall} {reserved : Bool} {source : Nat → UInt8} {s : Segment} :
      c.pc c.current = .entered call reserved →
      proceedEntered c.kernel source reserved call = .ok s →
      ThreadSegment c (.proceed source) s
  | yielding {call : WaitCall} {source : Nat → UInt8} : c.pc c.current = .yielding call →
      ThreadSegment c (.proceed source)
        { kernel := c.kernel, pc := .resumed call, switch := true }
  | resumed {call : WaitCall} {source : Nat → UInt8} : c.pc c.current = .resumed call →
      ThreadSegment c (.proceed source) (proceedResumed c.kernel call)
  | requestSwitch {result : UInt32} {source : Nat → UInt8} :
      c.pc c.current = .requestSwitch result →
      ThreadSegment c (.proceed source) { Segment.ret c.kernel result with switch := true }
  | inTime {nextWake now : UInt32} {source : Nat → UInt8} :
      c.pc c.current = .delaying nextWake now → signedNonneg (now - nextWake) = true →
      ThreadSegment c (.proceed source) (.ret c.kernel 0)
  | delayed {nextWake now : UInt32} {source : Nat → UInt8} :
      c.pc c.current = .delaying nextWake now → signedNonneg (now - nextWake) = false →
      ThreadSegment c (.proceed source)
        { Segment.ret (sleepCurrent c.kernel (nextWake - now)) 0 with switch := true }

theorem ThreadSegment.proceeds {c : Cfg} {a : Action} {s : Segment} (h : ThreadSegment c a s)
    (hpc : c.pc c.current ≠ .user) : ∃ source, a = .proceed source := by
  cases h with
  | call huser => exact absurd huser hpc
  | entered | yielding | resumed | requestSwitch | inTime | delayed => exact ⟨_, rfl⟩

theorem ThreadSegment.of_entered {c : Cfg} {source : Nat → UInt8} {s : Segment} {call : WaitCall}
    {reserved : Bool} (h : ThreadSegment c (.proceed source) s)
    (hpc : c.pc c.current = .entered call reserved) :
    proceedEntered c.kernel source reserved call = .ok s := by
  cases h with
  | entered hpc' hs =>
      obtain ⟨rfl, rfl⟩ := Pc.entered.inj (hpc.symm.trans hpc')
      exact hs
  | yielding hpc' | resumed hpc' | requestSwitch hpc' | inTime hpc' | delayed hpc' =>
      rw [hpc] at hpc'
      cases hpc'

theorem ThreadSegment.of_yielding {c : Cfg} {source : Nat → UInt8} {s : Segment} {call : WaitCall}
    (h : ThreadSegment c (.proceed source) s) (hpc : c.pc c.current = .yielding call) :
    s = { kernel := c.kernel, pc := .resumed call, switch := true } := by
  cases h with
  | yielding hpc' =>
      obtain rfl := Pc.yielding.inj (hpc.symm.trans hpc')
      rfl
  | entered hpc' | resumed hpc' | requestSwitch hpc' | inTime hpc' | delayed hpc' =>
      rw [hpc] at hpc'
      cases hpc'

theorem ThreadSegment.of_resumed {c : Cfg} {source : Nat → UInt8} {s : Segment} {call : WaitCall}
    (h : ThreadSegment c (.proceed source) s) (hpc : c.pc c.current = .resumed call) :
    s = proceedResumed c.kernel call := by
  cases h with
  | resumed hpc' =>
      obtain rfl := Pc.resumed.inj (hpc.symm.trans hpc')
      rfl
  | entered hpc' | yielding hpc' | requestSwitch hpc' | inTime hpc' | delayed hpc' =>
      rw [hpc] at hpc'
      cases hpc'

def Action.wakes (c : Cfg) : Action → WaitView → UInt32 → Prop
  | .call made => made.wakes
  | .proceed _ => (c.pc c.current).wakes
  | _ => noWake

theorem ThreadSegment.frame {c : Cfg} {a : Action} {s : Segment} (h : ThreadSegment c a s) :
    ControlFrame c.kernel s.kernel := by
  cases h with
  | call _ _ h => exact enter_frame h
  | entered _ h => exact proceedEntered_frame h
  | yielding => simp
  | resumed => simp
  | requestSwitch => simp
  | inTime => simp
  | delayed => simp

/-- The first segment of a call stays ahead of every critical section that
blocks. -/
theorem enter_pc {k : Kernel} {call : Call} {s : Segment} (h : enter k call = .ok s)
    (w : WaitCall) : s.pc ≠ .yielding w ∧ s.pc ≠ .resumed w ∧ s.pc ≠ .entered w true := by
  cases call with
  | taskDelayUntil previousWake => cases previousWake <;> obtain rfl := Except.ok.inj h <;> simp
  | mutexCreateRecursiveStatic | timerCreateStatic | timerStart | timerStartPeriodic
  | timerRestart =>
      simp only [enter, exec_bind_eq_ok] at h
      obtain ⟨k', -, h⟩ := h
      obtain rfl := Except.ok.inj h
      simp
  | taskNotify | eventGroupSetBits | timerSetCallback =>
      simp only [enter] at h
      split at h <;> obtain rfl := Except.ok.inj h <;> simp
  | _ =>
      obtain rfl := Except.ok.inj h
      simp

/-- The critical section of a blocking call returns or blocks in that call. -/
theorem proceedEntered_pc {k : Kernel} {source : Nat → UInt8} {reserved : Bool}
    {call : WaitCall} {s : Segment} (h : proceedEntered k source reserved call = .ok s) :
    s.pc = .user ∨ s.pc = .yielding call := by
  have hflow : ∀ r : Flow × Kernel, (Segment.ofFlow call r).pc = .user
      ∨ (Segment.ofFlow call r).pc = .yielding call := fun r => by
    obtain ⟨flow, k⟩ := r
    cases flow
    · exact Or.inl rfl
    · exact Or.inr rfl
  cases call with
  | timerServiceClaim =>
      simp only [proceedEntered, exec_bind_eq_ok] at h
      obtain ⟨⟨claimed, k'⟩, -, h⟩ := h
      cases claimed <;> obtain rfl := Except.ok.inj h <;> simp
  | _ =>
      obtain rfl := Except.ok.inj h
      exact hflow _

/-- Behind its yield a call may go back to its critical section, with a
reservation. -/
theorem proceedResumed_entered {k : Kernel} {call w : WaitCall} {reserved : Bool}
    (h : (proceedResumed k call).pc = .entered w reserved) : w = call := by
  cases call with
  | queueSend q timeout deadline =>
      simp only [proceedResumed] at h
      split at h <;> cases h
      rfl
  | queueReceive q timeout deadline =>
      simp only [proceedResumed] at h
      split at h <;> cases h
      rfl
  | timerServiceClaim =>
      cases h
      rfl
  | _ => cases h

/-- A task blocks in the call whose critical section it ran. -/
theorem ThreadSegment.entered_of_yielding {c : Cfg} {a : Action} {s : Segment}
    (h : ThreadSegment c a s) {w : WaitCall} (hpc : s.pc = .yielding w) :
    ∃ reserved, c.pc c.current = .entered w reserved := by
  cases h with
  | call _ _ h => exact absurd hpc (enter_pc h w).1
  | @entered call reserved _ _ hc h =>
      rcases proceedEntered_pc h with hs | hs
      · rw [hs] at hpc
        cases hpc
      · rw [hs] at hpc
        exact ⟨reserved, Pc.yielding.inj hpc ▸ hc⟩
  | yielding => cases hpc
  | resumed => exact absurd hpc ((proceedResumed_view _ _).2.1 w)
  | requestSwitch => cases hpc
  | inTime => cases hpc
  | delayed => cases hpc

/-- Every segment of the running task has one of the effects of
`SegmentEffect`, or is the `arch_yield()` of a blocked call. -/
theorem ThreadSegment.effect {c : Cfg} {a : Action} {s : Segment} (h : ThreadSegment c a s) :
    (SegmentEffect (a.wakes c) c.kernel s ∧ ∀ call, c.pc c.current ≠ .yielding call)
      ∨ ∃ call, c.pc c.current = .yielding call
          ∧ s = { kernel := c.kernel, pc := .resumed call, switch := true } := by
  cases h with
  | call hpc _ h => exact Or.inl ⟨enter_effect h, by simp [hpc]⟩
  | entered hpc h =>
      refine Or.inl ⟨?_, by simp [hpc]⟩
      rw [Action.wakes, hpc]
      exact proceedEntered_effect h
  | yielding hpc => exact Or.inr ⟨_, hpc, rfl⟩
  | resumed hpc =>
      obtain ⟨hv, hy, hr⟩ := proceedResumed_view c.kernel _
      exact Or.inl ⟨.of_view_eq hv hy hr, by simp [hpc]⟩
  | requestSwitch hpc => exact Or.inl ⟨.of_view_eq rfl (by simp) (by simp), by simp [hpc]⟩
  | inTime hpc => exact Or.inl ⟨.of_view_eq rfl (by simp) (by simp), by simp [hpc]⟩
  | delayed hpc => exact Or.inl ⟨sleepCurrent_effect rfl rfl rfl, by simp [hpc]⟩

theorem ThreadSegment.pc_ne_idle {c : Cfg} {a : Action} {s : Segment} (h : ThreadSegment c a s) :
    c.pc c.current ≠ .idle := by
  cases h <;> simp_all

theorem Action.wakes_result {c : Cfg} {a : Action} {v : WaitView} {r : UInt32}
    (h : a.wakes c v r) : r = 1 := by
  have hwait : ∀ w : WaitCall, w.wakes v r → r = 1 := fun w hw => by
    cases w with
    | queueSend => exact hw.2.2
    | queueReceive => exact hw.2.2
    | _ => exact hw.elim
  cases a with
  | call made =>
      cases made with
      | semaphoreGive => exact h.2.2
      | mutexUnlock => exact h.2.2
      | taskNotify => exact h.2
      | eventGroupSetBits => exact h.2.2
      | timerSetCallback => exact h.2.2
      | _ => exact h.elim
  | proceed source =>
      simp only [Action.wakes] at h
      cases hpc : c.pc c.current with
      | entered w => rw [hpc] at h; exact hwait w h
      | _ => rw [hpc] at h; exact h.elim
  | _ => exact h.elim

theorem IsrCall.wakes_result {call : IsrCall} {v : WaitView} {r : UInt32} (h : call.wakes v r) :
    r = 1 := by
  cases call with
  | taskNotifyFromIsr => exact h.2
  | _ => exact h.2.2

theorem tickWakes_result {v : WaitView} {r : UInt32} (h : tickWakes v r) : r = 0 ∨ r = 1 := by
  rcases h with h | h
  · exact Or.inl h.1
  · exact Or.inr h.2.2

@[simp] abbrev TickFrame (k k' : Kernel) : Prop :=
  k'.taskCount = k.taskCount ∧ k'.applicationTaskCount = k.applicationTaskCount
    ∧ k'.gCurrentTaskIndex = k.gCurrentTaskIndex ∧ k'.currentTask = k.currentTask
    ∧ k'.kernelInitialized = k.kernelInitialized ∧ k'.kernelStarted = k.kernelStarted
    ∧ k'.timerServiceTaskIndex = k.timerServiceTaskIndex
    ∧ k'.gKernelTicks = k.gKernelTicks + 1 ∧ k'.semaphores = k.semaphores
    ∧ k'.mutexes = k.mutexes ∧ k'.mutexList = k.mutexList ∧ k'.queues = k.queues
    ∧ k'.eventGroups = k.eventGroups ∧ k'.mpu = k.mpu ∧ k'.memory = k.memory

theorem tickTasksBody_frame {k k' : Kernel} (h : tickTasksBody k = .ok k') : TickFrame k k' := by
  obtain ⟨k₁, htimer, rfl⟩ := tickTasksBody_cases h
  have hframe := timerTickLoop_frame htimer
  simp only [TimerFrame, ControlFrame] at hframe
  simp [hframe]

theorem tickTasks_frame {k k' : Kernel} (h : tickTasks k = .ok k') : TickFrame k k' :=
  tickTasksBody_frame (tickTasks_body h)

theorem jrtKernelStart_spec {k k' : Kernel} (h : jrtKernelStart k = .ok k') :
    k' = { k with kernelStarted := true } := by
  unfold jrtKernelStart at h
  split at h
  · exact (Except.ok.inj h).symm
  · cases h

/-! ## Steps -/

/-- What one step does, by its action. The invariants of runs are proved over
these cases, so that a change to `step` ends here. -/
inductive StepCases (c : Cfg) : Action → Cfg → Observation → Prop where
  | start {k : Kernel} : c.kernel.kernelStarted = false → jrtKernelStart c.kernel = .ok k →
      StepCases c .start { c with kernel := k } {}
  | thread {a : Action} {s : Segment} : c.kernel.kernelStarted = true → c.pending = false →
      ThreadSegment c a s → StepCases c a (c.after s) { result := s.result, output := s.output }
  | tick {k : Kernel} : c.kernel.kernelStarted = true → tickTasks c.kernel = .ok k →
      StepCases c .tick { c with kernel := k, pending := true } {}
  | isr {call : IsrCall} : c.kernel.kernelStarted = true →
      StepCases c (.isr call)
        { c with
          kernel := (isrCall c.kernel call).1
          pending := c.pending || (isrCall c.kernel call).2.2 }
        { result := some (isrCall c.kernel call).2.1 }
  | pendsv {currentSp sp : Ptr} {k : Kernel} : c.kernel.kernelStarted = true →
      c.pending = true → pendsvSwitch c.kernel currentSp = .ok (sp, k) →
      StepCases c (.pendsv currentSp) { c with kernel := k, pending := false } {}
  | store {address : Ptr} {word : UInt32} :
      StepCases c (.store address word)
        { c with kernel := { c.kernel with
            memory := fun a => if a = address then word else c.kernel.memory a } } {}
  | cycles {now : UInt32} :
      StepCases c (.cycles now)
        { c with kernel := { c.kernel with
            benchmark := { c.kernel.benchmark with dwtCyccnt := now } } } {}

theorem commit_eq_some {c c' : Cfg} {e : Exec Segment} {o : Observation}
    (h : c.commit e = some (c', o)) :
    ∃ s, e = .ok s ∧ c' = c.after s ∧ o = { result := s.result, output := s.output } := by
  cases e with
  | error => cases h
  | ok s => cases h; exact ⟨s, rfl, rfl, rfl⟩

theorem threadRuns_iff {c : Cfg} :
    c.threadRuns = true ↔ c.kernel.kernelStarted = true ∧ c.pending = false := by
  simp [Cfg.threadRuns]

theorem mayCall_iff {c : Cfg} {call : Call} :
    c.mayCall call = true ↔ c.pc c.current = .user
      ∧ (call = .callbackReturn → c.current = c.kernel.timerServiceTaskIndex) := by
  cases call <;> simp [Cfg.mayCall]

theorem proceed_segment {c : Cfg} {source : Nat → UInt8} {s : Segment}
    (h : proceed c.kernel source (c.pc c.current) = some (.ok s)) :
    ThreadSegment c (.proceed source) s := by
  cases hpc : c.pc c.current with
  | user => rw [hpc] at h; cases h
  | idle => rw [hpc] at h; cases h
  | entered call reserved => rw [hpc] at h; exact .entered hpc (Option.some.inj h)
  | yielding call => rw [hpc] at h; cases h; exact .yielding hpc
  | resumed call => rw [hpc] at h; cases h; exact .resumed hpc
  | requestSwitch result => rw [hpc] at h; cases h; exact .requestSwitch hpc
  | delaying nextWake now =>
      rw [hpc, proceed] at h
      cases hdue : signedNonneg (now - nextWake) with
      | false => rw [hdue] at h; cases h; exact .delayed hpc hdue
      | true => rw [hdue] at h; cases h; exact .inTime hpc hdue

theorem step_cases {c c' : Cfg} {a : Action} {o : Observation} (h : step c a = some (c', o)) :
    StepCases c a c' o := by
  cases a with
  | start =>
      simp only [step] at h
      split at h
      · cases h
      · next hstarted =>
          split at h
          · next hk => cases h; exact .start (Bool.not_eq_true _ ▸ hstarted) hk
          · cases h
  | call call =>
      simp only [step] at h
      split at h
      · next hc =>
          rw [Bool.and_eq_true, threadRuns_iff, mayCall_iff] at hc
          obtain ⟨⟨hstarted, hpending⟩, hpc, hret⟩ := hc
          obtain ⟨s, hs, rfl, rfl⟩ := commit_eq_some h
          exact .thread hstarted hpending (.call hpc hret hs)
      · cases h
  | proceed source =>
      simp only [step] at h
      split at h
      · next hc =>
          obtain ⟨hstarted, hpending⟩ := threadRuns_iff.mp hc
          split at h
          · next segment hseg =>
              obtain ⟨s, rfl, rfl, rfl⟩ := commit_eq_some h
              exact .thread hstarted hpending (proceed_segment hseg)
          · cases h
      · cases h
  | tick =>
      simp only [step] at h
      split at h
      · next hstarted =>
          split at h
          · next hk => cases h; exact .tick hstarted hk
          · cases h
      · cases h
  | isr call =>
      simp only [step] at h
      split at h
      · next hstarted => cases h; exact .isr hstarted
      · cases h
  | pendsv currentSp =>
      simp only [step] at h
      split at h
      · next hc =>
          rw [Bool.and_eq_true] at hc
          split at h
          · next hk => cases h; exact .pendsv hc.1 hc.2 hk
          · cases h
      · cases h
  | store address word => cases h; exact .store
  | cycles now => cases h; exact .cycles

/-! ## Runs -/

/-- An invariant every step keeps holds at the end of every run. -/
theorem Run.induction (Inv : Cfg → Prop) {c c' : Cfg} {tr : List Transition} (h : Run c tr c')
    (hstep : ∀ {c₁ c₂ : Cfg} {a : Action} {o : Observation},
      Inv c₁ → StepCases c₁ a c₂ o → Inv c₂) (h0 : Inv c) : Inv c' := by
  induction h with
  | nil => exact h0
  | snoc _ hs ih => exact hstep ih (step_cases hs)

/-- Where a step that finds `P` meets `Q` exactly if it meets `ok`, and then
leaves `P` behind, every step of a run meets `Q` exactly if each of them meets
`ok`; `Inv` is what the steps may rely on. -/
theorem Run.steps_iff (Inv P : Cfg → Prop) (Q : Transition → Prop) (ok : Cfg → Action → Prop)
    {c c' : Cfg} {tr : List Transition} (h : Run c tr c')
    (hinv : ∀ {c₁ c₂ : Cfg} {a : Action} {o : Observation},
      Inv c₁ → StepCases c₁ a c₂ o → Inv c₂)
    (hmeets : ∀ {c₁ c₂ : Cfg} {a : Action} {o : Observation},
      Inv c₁ → StepCases c₁ a c₂ o → P c₁ → (Q ⟨c₁, a, o, c₂⟩ ↔ ok c₁ a))
    (hkept : ∀ x, Q x → P x.post) (h0 : Inv c) (hP : P c) :
    ((∀ x ∈ tr, ok x.pre x.action) ↔ ∀ x ∈ tr, Q x) ∧ ((∀ x ∈ tr, Q x) → P c') := by
  induction h with
  | nil => exact ⟨by simp, fun _ => hP⟩
  | @snoc tr c₁ c₂ a o hrun hstep ih =>
      obtain ⟨hearlier, hlast⟩ := ih
      have hinv₁ : Inv c₁ := hrun.induction Inv hinv h0
      simp only [List.forall_mem_append, List.forall_mem_singleton]
      refine ⟨?_, fun h => hkept _ h.2⟩
      rw [hearlier]
      refine and_congr_right fun hQ => ?_
      exact (hmeets hinv₁ (step_cases hstep) (hlast hQ)).symm

/-- Where a step keeps `P` exactly if it meets `ok`, a run keeps `P` throughout
exactly if each of its steps meets `ok`. -/
theorem Run.kept_iff (Inv P : Cfg → Prop) (ok : Cfg → Action → Prop) {c c' : Cfg}
    {tr : List Transition} (h : Run c tr c')
    (hinv : ∀ {c₁ c₂ : Cfg} {a : Action} {o : Observation},
      Inv c₁ → StepCases c₁ a c₂ o → Inv c₂)
    (hkept : ∀ {c₁ c₂ : Cfg} {a : Action} {o : Observation},
      Inv c₁ → StepCases c₁ a c₂ o → P c₁ → (P c₂ ↔ ok c₁ a)) (h0 : Inv c) (hP : P c) :
    ((∀ x ∈ tr, ok x.pre x.action) ↔ ∀ x ∈ tr, P x.post) ∧ ((∀ x ∈ tr, P x.post) → P c') :=
  h.steps_iff Inv P (fun x => P x.post) ok hinv hkept (fun _ hx => hx) h0 hP

theorem StepCases.taskCount {c c' : Cfg} {a : Action} {o : Observation} (h : StepCases c a c' o) :
    c'.kernel.taskCount = c.kernel.taskCount := by
  cases h with
  | start _ hk =>
      obtain rfl := jrtKernelStart_spec hk
      rfl
  | thread _ _ hseg => exact hseg.frame.1
  | tick _ hk => exact (tickTasks_frame hk).1
  | isr => exact (isrCall_frame c.kernel _).1
  | pendsv _ _ hk =>
      obtain ⟨-, -, hframe, -⟩ := pendsvSwitch_cases hk
      exact hframe.1
  | store => rfl
  | cycles => rfl

theorem Run.taskCount {c c' : Cfg} {tr : List Transition} (h : Run c tr c') :
    c'.kernel.taskCount = c.kernel.taskCount :=
  h.induction (fun c' => c'.kernel.taskCount = c.kernel.taskCount)
    (fun hn hstep => hstep.taskCount.trans hn) rfl

theorem Run.cons {c₀ c₁ c' : Cfg} {a : Action} {o : Observation} {tr : List Transition}
    (hs : step c₀ a = some (c₁, o)) (h : Run c₁ tr c') : Run c₀ (⟨c₀, a, o, c₁⟩ :: tr) c' := by
  induction h with
  | nil => exact .snoc .nil hs
  | snoc _ hs' ih => exact .snoc ih hs'

theorem Run.trans {c₀ c₁ c₂ : Cfg} {tr₁ tr₂ : List Transition} (h₁ : Run c₀ tr₁ c₁)
    (h₂ : Run c₁ tr₂ c₂) : Run c₀ (tr₁ ++ tr₂) c₂ := by
  induction h₂ with
  | nil =>
      rw [List.append_nil]
      exact h₁
  | snoc _ hs ih =>
      rw [← List.append_assoc]
      exact ih.snoc hs

/-- What the last step of a run adds to a history. -/
theorem filterMap_snoc {α β : Type} (f : α → Option β) (l : List α) (x : α) :
    (l ++ [x]).filterMap f = l.filterMap f ++ (f x).toList := by
  rw [List.filterMap_append]
  cases hf : f x <;> simp [hf]

theorem countP_snoc {α : Type} (f : α → Bool) (l : List α) (x : α) :
    (l ++ [x]).countP f = l.countP f + (f x).toNat := by
  rw [List.countP_append, List.countP_singleton]
  cases f x <;> rfl

/-- What a run reaches from a reachable configuration is reachable. -/
theorem Reachable.run {img : Image} {c c' : Cfg} {tr : List Transition} (h : Reachable img c)
    (hrun : Run c tr c') : Reachable img c' := by
  obtain ⟨c₀, tr₀, hboot, hrun₀⟩ := h
  exact ⟨c₀, _, hboot, hrun₀.trans hrun⟩

theorem Reachable.step {img : Image} {c c' : Cfg} {a : Action} {o : Observation}
    (h : Reachable img c) (hs : JustRT.step c a = some (c', o)) : Reachable img c' :=
  h.run (.snoc .nil hs)

/-- Take the actions one after the other: the transitions, and where they
end. -/
def runActions (c : Cfg) : List Action → Option (List Transition × Cfg)
  | [] => some ([], c)
  | a :: as =>
      match step c a with
      | some (c₁, o) => (runActions c₁ as).map fun r => (⟨c, a, o, c₁⟩ :: r.1, r.2)
      | none => none

theorem runActions_run {c c' : Cfg} {as : List Action} {tr : List Transition}
    (h : runActions c as = some (tr, c')) : Run c tr c' := by
  induction as generalizing c tr with
  | nil => cases h; exact .nil
  | cons a as ih =>
      simp only [runActions] at h
      split at h
      · next hs =>
          obtain ⟨⟨tr', c''⟩, hrest, heq⟩ := Option.map_eq_some_iff.mp h
          cases heq
          exact .cons hs (ih hrest)
      · cases h

theorem runActions_actions {c c' : Cfg} {as : List Action} {tr : List Transition}
    (h : runActions c as = some (tr, c')) : tr.map Transition.action = as := by
  induction as generalizing c tr with
  | nil =>
      obtain ⟨rfl, -⟩ := Prod.mk.inj (Option.some.inj h)
      rfl
  | cons a as ih =>
      simp only [runActions] at h
      split at h
      · next hs =>
          obtain ⟨⟨tr', c''⟩, hrest, heq⟩ := Option.map_eq_some_iff.mp h
          obtain ⟨rfl, rfl⟩ := Prod.mk.inj heq
          rw [List.map_cons, ih hrest]
      · cases h

end JustRT
