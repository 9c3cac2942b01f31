import JustRT.Discipline
import JustRT.Isolation
import JustRT.Selection
import JustRT.Suspension

/-!
# The kernel never halts

A kernel function may fail to return: it halts in `kernel_fatal`, or it walks a
list that never ends. In the system such a step is missing. As long as the
application keeps its promises no step is: the lists end, so every walk does;
the checker is silent, so every tick comes to its end; and every private region
can be programmed, so every switch does, unless the outgoing stack pointer has
left its stack.
-/

namespace JustRT

section Progress

variable {k : Kernel} {l l' : List Ptr}

/-! ## Walks that end -/

theorem mutexLinkLocked_ok (h : Mutexes k l) (mutex : Ptr) :
    ∃ k', mutexLinkLocked k mutex = .ok k' := by
  unfold mutexLinkLocked
  rw [mutexIsLinkedLocked_eq h]
  by_cases hmem : mutex ∈ l
  · rw [decide_eq_true hmem]
    exact ⟨_, rfl⟩
  · rw [decide_eq_false hmem]
    exact ⟨_, rfl⟩

theorem timerLinkLocked_ok (h : Timers k l) (timer : Ptr) :
    ∃ k', timerLinkLocked k timer = .ok k' := by
  unfold timerLinkLocked
  rw [timerIsLinkedLocked_eq h]
  by_cases hmem : timer ∈ l
  · rw [decide_eq_true hmem]
    exact ⟨_, rfl⟩
  · rw [decide_eq_false hmem]
    exact ⟨_, rfl⟩

/-- A creation keeps the link of what it finds on the list. -/
theorem jrtMutexCreateRecursiveStatic_ok (h : Mutexes k l) (mutex : Ptr) :
    ∃ k', jrtMutexCreateRecursiveStatic k mutex = .ok k' := by
  simp only [jrtMutexCreateRecursiveStatic, mutexIsLinkedLocked_eq h, exec_bind_eq_ok]
  have hkept : Mutexes (k.setMutex mutex ((k.mutexes mutex).unlocked.withNext
      (if decide (mutex ∈ l) then (k.mutexes mutex).next else 0))) l := by
    refine h.setMutex fun hmem => ?_
    rw [decide_eq_true hmem]
    rfl
  obtain ⟨k', hk'⟩ := mutexLinkLocked_ok hkept mutex
  exact ⟨k', _, rfl, hk'⟩

theorem jrtTimerCreateStatic_ok (h : Timers k l) (timer : Ptr) :
    ∃ k', jrtTimerCreateStatic k timer = .ok k' := by
  by_cases hnull : timer = 0
  · exact ⟨k, by rw [jrtTimerCreateStatic, if_pos hnull]; rfl⟩
  · simp only [jrtTimerCreateStatic, if_neg hnull, timerIsLinkedLocked_eq h, exec_bind_eq_ok]
    have hkept : Timers (k.setTimer timer
        (.created (if decide (timer ∈ l) then (k.timers timer).next else 0))) l := by
      refine h.setTimer fun hmem => ?_
      rw [decide_eq_true hmem]
      rfl
    obtain ⟨k', hk'⟩ := timerLinkLocked_ok hkept timer
    exact ⟨k', _, rfl, hk'⟩

theorem kernelTimerServiceClaim_ok (h : Timers k l) :
    ∃ r, kernelTimerServiceClaim k = .ok r := by
  simp only [kernelTimerServiceClaim, timerClaimLoop_eq h (length_lt_addressSpace h)]
  cases hfind : l.find? fun t => decide (k.timers t).Due with
  | none => exact ⟨_, rfl⟩
  | some t => exact ⟨_, rfl⟩

/-! ## Segments that end -/

/-- The first segment of every call comes to its end. -/
theorem enter_ok (hmutexes : Mutexes k l) (htimers : Timers k l') (call : Call) :
    ∃ s, enter k call = .ok s := by
  cases call with
  | taskDelayUntil previousWake period =>
      cases previousWake with
      | none => exact ⟨_, rfl⟩
      | some wake => exact ⟨_, rfl⟩
  | mutexCreateRecursiveStatic mutex =>
      obtain ⟨k', hk'⟩ := jrtMutexCreateRecursiveStatic_ok hmutexes mutex
      exact ⟨_, exec_bind_eq_ok.mpr ⟨k', hk', rfl⟩⟩
  | taskNotify taskId value =>
      rw [enter]
      cases taskNotifyCommon k taskId value false false with
      | none => exact ⟨_, rfl⟩
      | some k' => exact ⟨_, rfl⟩
  | eventGroupSetBits group bits =>
      rw [enter]
      cases eventGroupSetBitsCommon k group bits false false with
      | none => exact ⟨_, rfl⟩
      | some r => exact ⟨_, rfl⟩
  | timerCreateStatic timer =>
      obtain ⟨k', hk'⟩ := jrtTimerCreateStatic_ok htimers timer
      exact ⟨_, exec_bind_eq_ok.mpr ⟨k', hk', rfl⟩⟩
  | timerSetCallback timer callback argument =>
      rw [enter]
      rcases jrtTimerSetCallback k timer callback argument with ⟨switch, k'⟩
      cases switch with
      | false => exact ⟨_, rfl⟩
      | true => exact ⟨_, rfl⟩
  | timerStart timer delay =>
      have hstart : ∃ k', jrtTimerStart k timer delay = .ok k' := by
        rw [jrtTimerStart]
        obtain ⟨k', hk'⟩ := timerLinkLocked_ok htimers timer
        split
        · exact ⟨k, rfl⟩
        · exact ⟨_, exec_bind_eq_ok.mpr ⟨k', hk', rfl⟩⟩
      obtain ⟨k', hk'⟩ := hstart
      exact ⟨_, exec_bind_eq_ok.mpr ⟨k', hk', rfl⟩⟩
  | timerStartPeriodic timer period =>
      have hstart : ∃ k', jrtTimerStartPeriodic k timer period = .ok k' := by
        rw [jrtTimerStartPeriodic]
        obtain ⟨k', hk'⟩ := timerLinkLocked_ok htimers timer
        split
        · exact ⟨k, rfl⟩
        · exact ⟨_, exec_bind_eq_ok.mpr ⟨k', hk', rfl⟩⟩
      obtain ⟨k', hk'⟩ := hstart
      exact ⟨_, exec_bind_eq_ok.mpr ⟨k', hk', rfl⟩⟩
  | timerRestart timer =>
      have hstart : ∃ k', jrtTimerRestart k timer = .ok k' := by
        rw [jrtTimerRestart]
        obtain ⟨k', hk'⟩ := timerLinkLocked_ok htimers timer
        split
        · exact ⟨k, rfl⟩
        · split
          · exact ⟨_, exec_bind_eq_ok.mpr ⟨k', hk', rfl⟩⟩
          · exact ⟨k, rfl⟩
      obtain ⟨k', hk'⟩ := hstart
      exact ⟨_, exec_bind_eq_ok.mpr ⟨k', hk', rfl⟩⟩
  | _ => exact ⟨_, rfl⟩

/-- The critical section of every blocking call comes to its end. -/
theorem proceedEntered_ok (htimers : Timers k l) (source : Nat → UInt8) (reserved : Bool)
    (call : WaitCall) : ∃ s, proceedEntered k source reserved call = .ok s := by
  cases call with
  | timerServiceClaim =>
      obtain ⟨⟨claimed, k'⟩, hclaim⟩ := kernelTimerServiceClaim_ok htimers
      cases claimed with
      | none => exact ⟨_, exec_bind_eq_ok.mpr ⟨_, hclaim, rfl⟩⟩
      | some timer => exact ⟨_, exec_bind_eq_ok.mpr ⟨_, hclaim, rfl⟩⟩
  | _ => exact ⟨_, rfl⟩

theorem proceed_ok (htimers : Timers k l) (source : Nat → UInt8) {pc : Pc} (huser : pc ≠ .user)
    (hidle : pc ≠ .idle) : ∃ s, proceed k source pc = some (.ok s) := by
  cases pc with
  | user => exact absurd rfl huser
  | idle => exact absurd rfl hidle
  | entered call reserved =>
      obtain ⟨s, hs⟩ := proceedEntered_ok htimers source reserved call
      exact ⟨s, congrArg some hs⟩
  | yielding call => exact ⟨_, rfl⟩
  | resumed call => exact ⟨_, rfl⟩
  | requestSwitch result => exact ⟨_, rfl⟩
  | delaying nextWake now =>
      rw [proceed]
      split
      · exact ⟨_, rfl⟩
      · exact ⟨_, rfl⟩

/-! ## The switch -/

theorem Mappable.size_le {base size : UInt32} (h : Mappable base size) : size.toNat ≤ 2 ^ 31 := by
  rcases h with rfl | ⟨e, -, hsize, -⟩
  · exact Nat.zero_le _
  · have hlt := size.toNat_lt
    rw [hsize] at hlt ⊢
    have he : e < 32 := (Nat.pow_lt_pow_iff_right (by decide)).mp hlt
    exact Nat.pow_le_pow_right (by decide) (by omega)

/-- Outside its stack an outgoing stack pointer is reported, and the kernel
halts. -/
theorem pendsvSwitch_overflow {currentSp : Ptr} (h : ¬k.StackHolds currentSp) :
    ∃ k', pendsvSwitch k currentSp = .error (.fatal .stackOverflow k') ∧ k'.diag.gStackFault = 1
      ∧ k'.diag.gStackFaultTask = k.gCurrentTaskIndex ∧ k'.diag.gStackFaultSp = currentSp := by
  have hcheck : currentSp < (k.tasks k.currentTask).stackBottom
      ∨ currentSp > (k.tasks k.currentTask).stackTop ∨ currentSp &&& 3 ≠ 0 := by
    by_contra hnone
    rw [not_or, not_or, not_not] at hnone
    obtain ⟨hlow, hhigh, halign⟩ := hnone
    exact h ⟨UInt32.not_lt.mp hlow, UInt32.not_lt.mp hhigh, halign⟩
  refine ⟨(k.setTask k.currentTask ((k.tasks k.currentTask).withSp currentSp)).mapDiag fun d =>
    { d with
      gStackFault := 1
      gStackFaultTask := k.gCurrentTaskIndex
      gStackFaultSp := currentSp }, ?_, rfl, rfl, rfl⟩
  simp only [pendsvSwitch, pendsvSave, updateStackUsage, Kernel.setTask_tasks_self]
  rw [if_pos (by exact hcheck)]
  rfl

/-- The idle task is always there to be selected. -/
theorem Sched.idle_candidate {c : Cfg} (hs : Sched c) :
    c.kernel.idle < c.kernel.taskCount ∧ c.kernel.candidate c.kernel.idle = true := by
  have hlt : c.kernel.idle < c.kernel.taskCount := by
    have hcount := hs.count
    unfold Kernel.idle
    omega
  refine ⟨hlt, ?_⟩
  rcases hs.idle with hready | hrunning
  · exact candidate_of_ready hready
  · have hcurrent : c.kernel.idle = c.kernel.currentTask :=
      (hs.running _ hlt hrunning).trans hs.currentTask.symm
    have hstate : (c.kernel.tasks c.kernel.idle).state = .running := hrunning
    rw [Kernel.candidate, hstate, beq_iff_eq.mpr hcurrent]
    rfl

/-- A switch comes to its end exactly if the outgoing stack pointer is in its
stack. -/
theorem pendsvSwitch_ok_iff {img : Image} {tasks : Nat → JrtTaskDefinition} {c : Cfg}
    (himg : img.Linked) (hs : Sched c) (h : Isolated img tasks c) (currentSp : Ptr) :
    (∃ r, pendsvSwitch c.kernel currentSp = .ok r) ↔ c.kernel.StackHolds currentSp := by
  constructor
  · rintro ⟨r, hswitch⟩
    by_contra hnot
    obtain ⟨k', herror, -⟩ := pendsvSwitch_overflow hnot
    rw [hswitch] at herror
    cases herror
  · intro hsp
    obtain ⟨hidle, hcandidate⟩ := hs.idle_candidate
    obtain ⟨s, hselects, hok, -⟩ := pendsvSwitch_selected hs.current_lt hidle hcandidate hsp
    have hsize : (c.kernel.tasks s).privateDataSize.toNat ≤ 2 ^ 31 := by
      have hmap := (setups_mappable himg h.table s).1
      rw [← h.setups s hselects.lt] at hmap
      exact hmap.size_le
    obtain ⟨sp, k', hswitch⟩ := hok hsize
    exact ⟨(sp, k'), hswitch⟩

end Progress

/-! ## What can happen -/

/-- What can happen next, by what the processor does: a start once, a call or
the next segment of the running task while no switch is pending, and a pending
switch with the outgoing stack pointer in its stack. -/
def Cfg.Enabled (c : Cfg) : Action → Prop
  | .start => c.kernel.kernelStarted = false
  | .call made => c.threadRuns = true ∧ c.mayCall made = true
  | .proceed _ => c.threadRuns = true ∧ c.pc c.current ≠ .user ∧ c.pc c.current ≠ .idle
  | .tick | .isr _ => c.kernel.kernelStarted = true
  | .pendsv currentSp =>
      c.kernel.kernelStarted = true ∧ c.pending = true ∧ c.kernel.StackHolds currentSp
  | .store _ _ | .cycles _ => True

section Enabled

variable {img : Image} {tasks : Nat → JrtTaskDefinition} {c : Cfg} {objs : List ObjectRef}

theorem StepCases.enabled {c' : Cfg} {a : Action} {o : Observation} (h : StepCases c a c' o)
    (hsp : ∀ sp r, pendsvSwitch c.kernel sp = .ok r → c.kernel.StackHolds sp) : c.Enabled a := by
  cases h with
  | start hnot _ => exact hnot
  | thread hstarted hpending hseg =>
      have hruns : c.threadRuns = true := threadRuns_iff.mpr ⟨hstarted, hpending⟩
      cases hseg with
      | call hpc hservice _ => exact ⟨hruns, mayCall_iff.mpr ⟨hpc, hservice⟩⟩
      | entered hpc | yielding hpc | resumed hpc | requestSwitch hpc | inTime hpc | delayed hpc =>
          simp [Cfg.Enabled, hruns, hpc]
  | tick hstarted _ => exact hstarted
  | isr hstarted => exact hstarted
  | pendsv hstarted hpending hk => exact ⟨hstarted, hpending, hsp _ _ hk⟩
  | store => trivial
  | cycles => trivial

theorem Kept.step_of_enabled (hkept : Kept objs c) (hinit : c.kernel.kernelInitialized = true)
    (hsp : ∀ sp, c.kernel.StackHolds sp → ∃ r, pendsvSwitch c.kernel sp = .ok r) {a : Action}
    (ha : c.Enabled a) : ∃ r, JustRT.step c a = some r := by
  obtain ⟨l, hmutexes, -⟩ := hkept.objects.mutexes
  obtain ⟨l', htimers, -⟩ := hkept.objects.timers
  cases a with
  | start =>
      rw [Cfg.Enabled] at ha
      rw [JustRT.step, ha, jrtKernelStart, hinit]
      exact ⟨_, rfl⟩
  | call made =>
      obtain ⟨hruns, hmay⟩ := ha
      obtain ⟨s, hs⟩ := enter_ok hmutexes htimers made
      rw [JustRT.step, hruns, hmay, hs]
      exact ⟨_, rfl⟩
  | proceed source =>
      obtain ⟨hruns, huser, hidle⟩ := ha
      obtain ⟨s, hs⟩ := proceed_ok htimers source huser hidle
      rw [JustRT.step, if_pos hruns, hs]
      exact ⟨_, rfl⟩
  | tick =>
      obtain ⟨k', -, -, -, -, htick⟩ := hkept.tick
      rw [Cfg.Enabled] at ha
      rw [JustRT.step, if_pos ha, htick]
      exact ⟨_, rfl⟩
  | isr made =>
      rw [Cfg.Enabled] at ha
      rw [JustRT.step, if_pos ha]
      exact ⟨_, rfl⟩
  | pendsv sp =>
      obtain ⟨hstarted, hpending, hholds⟩ := ha
      obtain ⟨⟨sp', k'⟩, hswitch⟩ := hsp sp hholds
      rw [JustRT.step, hstarted, hpending, hswitch]
      exact ⟨_, rfl⟩
  | store address word => exact ⟨_, rfl⟩
  | cycles now => exact ⟨_, rfl⟩

end Enabled

/-! ## The theorem -/

/-- In every run of an application that keeps its promises the kernel never
halts and never hangs: exactly the steps that are enabled can be taken. What is
left is a switch with the outgoing stack pointer outside its stack, which is
reported as the overflow of the running task. -/
theorem kernel_never_halts {img : Image} (himg : img.Linked) (config : JrtKernelConfig)
    (k₀ k : Kernel) (objs : List ObjectRef) (tr : List Transition) (c : Cfg)
    (hprepared : Prepared k₀ objs) (hinit : jrtKernelInit img k₀ (some config) = .ok (.ok, k))
    (hrun : Run (bootCfg k) tr c) (hdisciplined : Disciplined objs tr) :
    (∀ a, (∃ r, step c a = some r) ↔ c.Enabled a)
      ∧ ∀ sp, ¬c.kernel.StackHolds sp →
        ∃ k', pendsvSwitch c.kernel sp = .error (.fatal .stackOverflow k')
          ∧ k'.diag.gStackFault = 1 ∧ k'.diag.gStackFaultTask = c.current
          ∧ k'.diag.gStackFaultSp = sp := by
  have hboot : Boot img (bootCfg k) := ⟨k₀, config, k, hinit, rfl⟩
  have hreachable : Reachable img c := ⟨_, tr, hboot, hrun⟩
  have hkept : Kept (objs ++ created tr) c :=
    hrun.kept hdisciplined (.boot hprepared.objects.2.2 (jrtKernelInit_booted hinit))
  obtain ⟨tasks, hisolated⟩ := hreachable.isolated himg
  have hswitch := pendsvSwitch_ok_iff himg hkept.sched hisolated
  refine ⟨fun a => ⟨?_, ?_⟩, fun sp => pendsvSwitch_overflow⟩
  · rintro ⟨⟨c', o⟩, hstep⟩
    exact (step_cases hstep).enabled fun sp r h => (hswitch sp).mp ⟨r, h⟩
  · intro ha
    exact hkept.step_of_enabled hreachable.initialized (fun sp => (hswitch sp).mpr) ha

/-- Behind the promised actions the second task waits for the mutex, and a
switch is pending: it goes through from the stack of that task, and from
nowhere else. -/
theorem kernel_never_halts_sample : ∃ k₀ objs k tr c,
    prepare (.zero 0) [] [.mutexCreateRecursiveStatic 16, .timerCreateStatic 32] = some (k₀, objs)
      ∧ jrtKernelInit .mapped k₀ (some .mapped) = .ok (.ok, k)
      ∧ runActions (bootCfg k) (promiseActions ++ [.proceed fun _ => 0]) = some (tr, c)
      ∧ (∃ r, step c (.pendsv (sampleSp 1)) = some r)
      ∧ ∃ k', pendsvSwitch c.kernel 0 = .error (.fatal .stackOverflow k')
        ∧ k'.diag.gStackFaultTask = 1 := by
  have hsome : ((prepare (.zero 0) [] [.mutexCreateRecursiveStatic 16, .timerCreateStatic 32]).any
      fun r =>
        passes (jrtKernelInit .mapped r.1 (some .mapped)) fun s =>
          s.1 == .ok && (runActions (bootCfg s.2) (promiseActions ++ [.proceed fun _ => 0])).any
            fun x => decide (x.2.current = 1 ∧ x.2.kernel.kernelStarted = true
              ∧ x.2.pending = true ∧ x.2.kernel.StackHolds (sampleSp 1)
              ∧ ¬x.2.kernel.StackHolds 0 ∧ Disciplined r.2 x.1)) = true := by decide +kernel
  obtain ⟨⟨k₀, objs⟩, hprepare, hinit⟩ := (Option.any_eq_true _ _).mp hsome
  obtain ⟨⟨status, k⟩, hk, htest⟩ := passes_eq_true.mp hinit
  rw [Bool.and_eq_true, beq_iff_eq] at htest
  obtain ⟨rfl, hruns⟩ := htest
  obtain ⟨⟨tr, c⟩, hrun, hc⟩ := (Option.any_eq_true _ _).mp hruns
  obtain ⟨hcurrent, hstarted, hpending, hin, hout, hdisciplined⟩ := of_decide_eq_true hc
  have hprepared := prepare_prepared (.zeroed rfl rfl rfl rfl) hprepare
  obtain ⟨henabled, hoverflow⟩ := kernel_never_halts Image.mapped_linked .mapped k₀ k objs tr c
    hprepared hk (runActions_run hrun) hdisciplined
  obtain ⟨k', herror, -, htask, -⟩ := hoverflow 0 hout
  exact ⟨k₀, objs, k, tr, c, hprepare, hk, hrun,
    (henabled (.pendsv (sampleSp 1))).mpr ⟨hstarted, hpending, hin⟩, k', herror,
    htask.trans hcurrent⟩

end JustRT
