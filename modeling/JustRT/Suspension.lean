import JustRT.Notification
import JustRT.RoundRobin

/-!
# A suspension lasts until the resume

What `kernel_task_suspend` and `kernel_task_resume` accept and write, and
the frame of every other step around a suspended task: nothing in the
kernel writes its wait record, selects it, or saves over its stack pointer
once it is off the processor.
-/

namespace JustRT

/-! ## Suspend and resume -/

/-- The task a suspension is about. -/
def Kernel.suspendTarget (k : Kernel) (requested : Nat) : Nat :=
  if requested = jrtTaskIdSelf then k.gCurrentTaskIndex else requested

theorem resolveApplicationTaskId_self (k : Kernel) (requested : Nat) :
    resolveApplicationTaskId k requested true
      = if k.suspendTarget requested ≥ k.applicationTaskCount then .error .invalidTask
        else .ok (k.suspendTarget requested) := by
  simp only [resolveApplicationTaskId, true_and]
  rfl

theorem resolveApplicationTaskId_other (k : Kernel) (requested : Nat) :
    resolveApplicationTaskId k requested false
      = if requested ≥ k.applicationTaskCount then .error .invalidTask else .ok requested := by
  simp only [resolveApplicationTaskId, Bool.false_eq_true, false_and, if_false]

theorem kernelTaskSuspend_cases (k : Kernel) (requested : Nat) :
    ((kernelTaskSuspend k requested).1 ≠ .ok ∧ (kernelTaskSuspend k requested).2 = k)
      ∨ ((kernelTaskSuspend k requested).1 = .ok
        ∧ (kernelTaskSuspend k requested).2.tasks
          = (k.setTask (k.suspendTarget requested)
              ((k.tasks (k.suspendTarget requested)).withState .suspended)).tasks) := by
  simp only [kernelTaskSuspend]
  split
  · exact Or.inl ⟨by simp, rfl⟩
  · split
    · exact Or.inl ⟨by simp, rfl⟩
    · rw [resolveApplicationTaskId_self]
      by_cases ht : k.suspendTarget requested ≥ k.applicationTaskCount
      · rw [if_pos ht]
        exact Or.inl ⟨by simp, rfl⟩
      · rw [if_neg ht]
        dsimp only
        generalize k.suspendTarget requested = taskId
        by_cases hstate : (k.tasks taskId).state ≠ .ready
            ∧ ((k.tasks taskId).state ≠ .running ∨ taskId ≠ k.gCurrentTaskIndex)
        · rw [if_pos hstate]
          exact Or.inl ⟨by simp, rfl⟩
        · rw [if_neg hstate]
          refine Or.inr ⟨rfl, ?_⟩
          dsimp only
          split <;> rfl

/-- A suspension is accepted for an application task that is `READY`, or
that runs. -/
theorem kernelTaskSuspend_ok_iff {k : Kernel} (hinit : k.kernelInitialized = true)
    (hstarted : k.kernelStarted = true) (requested : Nat) :
    (kernelTaskSuspend k requested).1 = .ok
      ↔ k.suspendTarget requested < k.applicationTaskCount
        ∧ ((k.tasks (k.suspendTarget requested)).state = .ready
          ∨ ((k.tasks (k.suspendTarget requested)).state = .running
            ∧ k.suspendTarget requested = k.gCurrentTaskIndex)) := by
  simp only [kernelTaskSuspend, resolveApplicationTaskId_self, hinit, hstarted, Bool.not_true,
    Bool.false_eq_true, if_false]
  generalize k.suspendTarget requested = t
  by_cases ht : t ≥ k.applicationTaskCount
  · rw [if_pos ht]
    exact ⟨fun h => by simp at h, fun h => absurd h.1 (Nat.not_lt.mpr ht)⟩
  · rw [if_neg ht]
    dsimp only
    by_cases hstate : (k.tasks t).state ≠ .ready
        ∧ ((k.tasks t).state ≠ .running ∨ t ≠ k.gCurrentTaskIndex)
    · rw [if_pos hstate]
      refine ⟨fun h => by simp at h, fun h => ?_⟩
      rcases h.2 with hready | ⟨hrun, hcur⟩
      · exact absurd hready hstate.1
      · exact (hstate.2.elim (fun hne => absurd hrun hne) (fun hne => absurd hcur hne))
    · rw [if_neg hstate]
      refine ⟨fun _ => ⟨Nat.lt_of_not_ge ht, ?_⟩, fun _ => rfl⟩
      by_cases hready : (k.tasks t).state = .ready
      · exact Or.inl hready
      · refine Or.inr ⟨?_, ?_⟩
        · by_contra hne
          exact hstate ⟨hready, Or.inl hne⟩
        · by_contra hne
          exact hstate ⟨hready, Or.inr hne⟩

theorem kernelTaskResume_cases (k : Kernel) (requested : Nat) :
    ((kernelTaskResume k requested).1 ≠ .ok ∧ (kernelTaskResume k requested).2 = k)
      ∨ ((kernelTaskResume k requested).1 = .ok
        ∧ (kernelTaskResume k requested).2.tasks
          = (k.setTask requested ((k.tasks requested).withState .ready)).tasks) := by
  simp only [kernelTaskResume]
  split
  · exact Or.inl ⟨by simp, rfl⟩
  · split
    · exact Or.inl ⟨by simp, rfl⟩
    · rw [resolveApplicationTaskId_other]
      by_cases ht : requested ≥ k.applicationTaskCount
      · rw [if_pos ht]
        exact Or.inl ⟨by simp, rfl⟩
      · rw [if_neg ht]
        dsimp only
        by_cases hstate : (k.tasks requested).state ≠ .suspended
        · rw [if_pos hstate]
          exact Or.inl ⟨by simp, rfl⟩
        · rw [if_neg hstate]
          exact Or.inr ⟨rfl, rfl⟩

/-- A resume is accepted for a suspended application task, by its own
identifier. -/
theorem kernelTaskResume_ok_iff {k : Kernel} (hinit : k.kernelInitialized = true)
    (hstarted : k.kernelStarted = true) (requested : Nat) :
    (kernelTaskResume k requested).1 = .ok
      ↔ requested < k.applicationTaskCount ∧ (k.tasks requested).state = .suspended := by
  simp only [kernelTaskResume, resolveApplicationTaskId_other, hinit, hstarted, Bool.not_true,
    Bool.false_eq_true, if_false]
  by_cases ht : requested ≥ k.applicationTaskCount
  · rw [if_pos ht]
    exact ⟨fun h => by simp at h, fun h => absurd h.1 (Nat.not_lt.mpr ht)⟩
  · rw [if_neg ht]
    dsimp only
    by_cases hstate : (k.tasks requested).state ≠ .suspended
    · rw [if_pos hstate]
      exact ⟨fun h => by simp at h, fun h => absurd h.2 hstate⟩
    · rw [if_neg hstate]
      exact ⟨fun _ => ⟨Nat.lt_of_not_ge ht, not_not.mp hstate⟩, fun _ => rfl⟩

theorem toWord_eq_ok_iff {status : JrtStatus} :
    status.toWord = JrtStatus.ok.toWord ↔ status = .ok := by
  cases status <;> decide

/-! ## Steps around a suspended task -/

@[simp] theorem ofFlow_switch (call : WaitCall) (r : Flow × Kernel) :
    (Segment.ofFlow call r).switch = false := by
  obtain ⟨flow, k⟩ := r
  cases flow <;> rfl

theorem proceedEntered_switch {k : Kernel} {source : Nat → UInt8} {reserved : Bool}
    {call : WaitCall} {s : Segment} (h : proceedEntered k source reserved call = .ok s) :
    s.switch = false := by
  cases call with
  | timerServiceClaim =>
      simp only [proceedEntered, exec_bind_eq_ok] at h
      obtain ⟨⟨claimed, k'⟩, -, h⟩ := h
      cases claimed <;> obtain rfl := Except.ok.inj h <;> rfl
  | _ =>
      obtain rfl := Except.ok.inj h
      simp

theorem enter_switch {k : Kernel} {call : Call} {s : Segment} (h : enter k call = .ok s)
    (hswitch : s.switch = true) :
    (∃ ticks, call = .taskDelay ticks) ∨ (∃ id, call = .taskSuspend id)
      ∨ (∃ id, call = .taskResume id) ∨ s.kernel = k := by
  cases call with
  | taskYield | boardLedToggle =>
      obtain rfl := Except.ok.inj h
      exact Or.inr (Or.inr (Or.inr rfl))
  | taskDelay ticks => exact Or.inl ⟨ticks, rfl⟩
  | taskSuspend id => exact Or.inr (Or.inl ⟨id, rfl⟩)
  | taskResume id => exact Or.inr (Or.inr (Or.inl ⟨id, rfl⟩))
  | taskDelayUntil previousWake =>
      cases previousWake <;> obtain rfl := Except.ok.inj h <;> cases hswitch
  | mutexCreateRecursiveStatic | timerCreateStatic | timerStart | timerStartPeriodic
  | timerRestart =>
      simp only [enter, exec_bind_eq_ok] at h
      obtain ⟨k', -, h⟩ := h
      obtain rfl := Except.ok.inj h
      cases hswitch
  | taskNotify | eventGroupSetBits | timerSetCallback =>
      simp only [enter] at h
      split at h <;> obtain rfl := Except.ok.inj h <;> cases hswitch
  | _ =>
      obtain rfl := Except.ok.inj h
      cases hswitch

section Step

variable {c c' : Cfg} {a : Action} {o : Observation} {t : Nat}

/-- The step is an accepted resume of task `t`. -/
def Transition.resumes (t : Nat) (x : Transition) : Bool :=
  match x.action with
  | .call (.taskResume id) => id == t && x.observation.result == some JrtStatus.ok.toWord
  | _ => false

/-- The stack pointer the step saves for task `t`. -/
def Transition.switchesOut (t : Nat) (x : Transition) : Option Ptr :=
  match x.action with
  | .pendsv currentSp => if x.pre.current = t then some currentSp else none
  | _ => none

/-- Task `t` is suspended; if it is still on the processor, its switch-out
comes next. -/
structure Suspended (t : Nat) (c : Cfg) : Prop where
  state : (c.kernel.view t).state = .suspended
  pending : c.current = t → c.pending = true

/-- What becomes of the wait of a suspended task where waits end: nothing. -/
theorem WakesOnly.suspended {R : WaitView → UInt32 → Prop} {k k' : Kernel}
    (hw : WakesOnly R k k') (hstate : (k.view t).state = .suspended) : k'.view t = k.view t :=
  (hw t).eq_of_not_waiting (by simp [hstate]) (by simp [hstate])

/-- A segment of another task leaves the suspended task alone, unless it
resumes it. -/
theorem ThreadSegment.suspended {s : Segment} (h : ThreadSegment c a s)
    (hcur : t ≠ c.kernel.currentTask) (hstate : (c.kernel.view t).state = .suspended)
    (hresume : a = .call (.taskResume t) → s.result ≠ some JrtStatus.ok.toWord) :
    s.kernel.view t = c.kernel.view t := by
  -- What a segment restates is the caller, or the task it suspends or resumes.
  have hupdate : ∀ (j : Nat) (v : WaitView), t ≠ j →
      Function.update c.kernel.view j v t = c.kernel.view t := fun j v hj =>
    Function.update_of_ne hj v c.kernel.view
  cases h with
  | @call made s _ _ hs =>
      have heffect := enter_effect hs
      cases heffect with
      | wakes hw => exact hw.suspended hstate
      | blocks _ _ _ hview =>
          rw [hview]
          exact hupdate _ _ hcur
      | restates _ hswitch hj hview =>
          obtain ⟨ticks, rfl⟩ | ⟨id, rfl⟩ | ⟨id, rfl⟩ | hkernel := enter_switch hs hswitch
          · obtain rfl := Except.ok.inj hs
            change (sleepCurrent c.kernel ticks).view t = _
            rw [sleepCurrent_view]
            exact hupdate _ _ hcur
          · obtain rfl := Except.ok.inj hs
            change (kernelTaskSuspend c.kernel id).2.view t = _
            rcases kernelTaskSuspend_view c.kernel id with hv | ⟨j, hsuspends, hv⟩
            · rw [hv]
            · rw [hv]
              refine hupdate _ _ fun heq => ?_
              subst heq
              cases hsuspends with
              | suspended _ hold => rw [hstate] at hold; simp at hold
              | delayed hdelayed => simp at hdelayed
          · obtain rfl := Except.ok.inj hs
            rcases kernelTaskResume_cases c.kernel id with ⟨-, hkept⟩ | ⟨hok, htasks⟩
            · change (kernelTaskResume c.kernel id).2.view t = _
              rw [hkept]
            · change (kernelTaskResume c.kernel id).2.view t = _
              rw [view_eq_of_tasks_eq htasks, setTask_view]
              refine hupdate _ _ fun heq => ?_
              subst heq
              refine hresume rfl ?_
              change some (kernelTaskResume c.kernel t).1.toWord = _
              rw [hok]
          · rw [hkernel]
  | entered hpc hs =>
      have heffect := proceedEntered_effect hs
      cases heffect with
      | wakes hw => exact hw.suspended hstate
      | blocks _ _ _ hview =>
          rw [hview]
          exact hupdate _ _ hcur
      | restates _ hswitch =>
          rw [proceedEntered_switch hs] at hswitch
          cases hswitch
  | resumed => exact congrFun (proceedResumed_view _ _).1 t
  | delayed =>
      change (sleepCurrent c.kernel _).view t = _
      rw [sleepCurrent_view]
      exact hupdate _ _ hcur
  | yielding => rfl
  | requestSwitch => rfl
  | inTime => rfl

/-- A context switch does not select the suspended task. -/
theorem Suspended.not_selected (h : Sched c) (hs : Suspended t c) {currentSp sp : Ptr}
    {k : Kernel} (hswitch : pendsvSwitch c.kernel currentSp = .ok (sp, k)) :
    k.gCurrentTaskIndex ≠ t ∧ k.view t = c.kernel.view t := by
  obtain ⟨k₁, hsave, -, -, hcur, -, hview⟩ := pendsvSwitch_cases hswitch
  have hready := Sched.saved_ready hsave (h.selected_ready hsave).2
  change k.gCurrentTaskIndex = pendsvNextIndex k₁ c.current at hcur
  change k.view = Function.update k₁.view (pendsvNextIndex k₁ c.current) _ at hview
  generalize pendsvNextIndex k₁ c.current = next at *
  have hne : t ≠ next := by
    rintro rfl
    rw [hs.state] at hready
    simp at hready
  refine ⟨fun heq => hne (heq.symm.trans hcur), ?_⟩
  obtain ⟨-, hsaved, -⟩ := pendsvSave_spec hsave
  rw [hview, Function.update_of_ne hne, hsaved]
  by_cases hcurrent : t = c.kernel.currentTask
  · subst hcurrent
    rw [Function.update_self, demoted_of_ne (by rw [hs.state]; decide)]
    rfl
  · rw [Function.update_of_ne hcurrent]

/-- One step keeps a suspended task and its wait record as they are, unless
it resumes the task. -/
theorem Suspended.step (h : Sched c) (hs : Suspended t c) (hstep : StepCases c a c' o)
    (hresume : Transition.resumes t ⟨c, a, o, c'⟩ = false) :
    Suspended t c' ∧ c'.kernel.view t = c.kernel.view t
      ∧ ∀ currentSp, a = .pendsv currentSp → c'.current ≠ t := by
  have hkept : (∀ currentSp, a ≠ .pendsv currentSp) → (c.pending = true → c'.pending = true) →
      c'.kernel.view t = c.kernel.view t →
      Suspended t c' ∧ c'.kernel.view t = c.kernel.view t
        ∧ ∀ currentSp, a = .pendsv currentSp → c'.current ≠ t := by
    intro hno hpending hview
    refine ⟨⟨by rw [hview]; exact hs.state, fun hcur => hpending (hs.pending ?_)⟩, hview,
      fun currentSp ha => absurd ha (hno currentSp)⟩
    rw [← hstep.current_eq hno]
    exact hcur
  cases hstep with
  | start _ hk =>
      obtain rfl := jrtKernelStart_spec hk
      exact hkept (by simp) id rfl
  | thread _ hpending hseg =>
      have hne : t ≠ c.kernel.currentTask := by
        rw [h.currentTask]
        rintro rfl
        rw [hs.pending rfl] at hpending
        cases hpending
      refine hkept ?_ ?_ (hseg.suspended hne hs.state ?_)
      · rintro currentSp rfl
        cases hseg
      · intro hp
        rw [hp] at hpending
        cases hpending
      · rintro rfl heq
        simp [Transition.resumes, heq] at hresume
  | tick _ hk => exact hkept (by simp) (fun _ => rfl) ((tickTasks_wakes hk).suspended hs.state)
  | isr =>
      refine hkept (by simp) (fun hp => ?_) ((isrCall_wakes _ _).suspended hs.state)
      rw [hp]
      rfl
  | pendsv _ _ hk =>
      obtain ⟨hcur, hview⟩ := hs.not_selected h hk
      refine ⟨⟨?_, fun heq => absurd heq hcur⟩, hview, fun _ _ => hcur⟩
      rw [hview]
      exact hs.state
  | store => exact hkept (by simp) id rfl
  | cycles => exact hkept (by simp) id rfl

/-- A suspended task takes no notification: it runs no segment. -/
theorem Suspended.takes (hs : Suspended t c) (hstep : StepCases c a c' o) :
    Transition.takes t ⟨c, a, o, c'⟩ = none := by
  cases a with
  | proceed source =>
      simp only [Transition.takes]
      refine if_neg ?_
      rintro ⟨hcur, -⟩
      cases hstep with
      | thread _ hpending =>
          rw [hs.pending hcur.symm] at hpending
          cases hpending
  | _ => rfl

/-- A step saves the stack pointer of a task only where it switches it out. -/
theorem StepCases.sp (h : Sched c) (hstep : StepCases c a c' o) :
    (c'.kernel.ledger t).sp
      = (Transition.switchesOut t ⟨c, a, o, c'⟩).getD (c.kernel.ledger t).sp := by
  rcases hstep.ledger_at t with ⟨hno, n, hn⟩ | ⟨currentSp, rfl, hsp⟩
  · have hnone : Transition.switchesOut t ⟨c, a, o, c'⟩ = none := by
      cases a with
      | pendsv currentSp => exact absurd rfl (hno currentSp)
      | _ => rfl
    rw [hn, hnone]
    rfl
  · rw [hsp, h.currentTask]
    simp only [Transition.switchesOut]
    by_cases hcur : t = c.current
    · rw [if_pos hcur, if_pos hcur.symm]
      rfl
    · rw [if_neg hcur, if_neg (Ne.symm hcur)]
      rfl

theorem StepCases.initialized (hstep : StepCases c a c' o) :
    c'.kernel.kernelInitialized = c.kernel.kernelInitialized
      ∧ c'.kernel.applicationTaskCount = c.kernel.applicationTaskCount := by
  cases hstep with
  | start _ hk =>
      obtain rfl := jrtKernelStart_spec hk
      exact ⟨rfl, rfl⟩
  | thread _ _ hseg => exact ⟨hseg.frame.2.2.2.2.1, hseg.frame.2.1⟩
  | tick _ hk => exact ⟨(tickTasks_frame hk).2.2.2.2.1, (tickTasks_frame hk).2.1⟩
  | isr => exact ⟨(isrCall_frame c.kernel _).2.2.2.2.1, (isrCall_frame c.kernel _).2.1⟩
  | pendsv _ _ hk =>
      obtain ⟨-, -, hframe, -⟩ := pendsvSwitch_cases hk
      exact ⟨hframe.2.2.1, hframe.2.1⟩
  | store => exact ⟨rfl, rfl⟩
  | cycles => exact ⟨rfl, rfl⟩

end Step

theorem Reachable.initialized {img : Image} {c : Cfg} (h : Reachable img c) :
    c.kernel.kernelInitialized = true := by
  obtain ⟨c₀, tr, ⟨k₀, config, k, hinit, rfl⟩, hrun⟩ := h
  exact hrun.induction (fun c => c.kernel.kernelInitialized = true)
    (fun hs hstep => hstep.initialized.1.trans hs) (jrtKernelInit_booted hinit).initialized

/-! ## Whole runs -/

/-- A run that does not resume the task: its wait record stays, no switch
selects it, and it is switched out at most once more. -/
theorem Suspended.run {c c' : Cfg} {tr : List Transition} {t : Nat} (h : Sched c)
    (hs : Suspended t c) (hrun : Run c tr c') (hresume : ∀ x ∈ tr, x.resumes t = false) :
    Suspended t c' ∧ c'.kernel.view t = c.kernel.view t
      ∧ (∀ x ∈ tr, ∀ currentSp, x.action = .pendsv currentSp → x.post.current ≠ t)
      ∧ (tr.filterMap (Transition.switchesOut t)).length + (if c'.current = t then 1 else 0) ≤ 1
      ∧ (c'.kernel.ledger t).sp
        = (tr.filterMap (Transition.switchesOut t)).getLast?.getD (c.kernel.ledger t).sp
      ∧ ∀ x ∈ tr, x.takes t = none := by
  induction hrun with
  | nil =>
      refine ⟨hs, rfl, by simp, ?_, rfl, by simp⟩
      split <;> simp
  | @snoc tr c₁ c₂ a o hrun hstep ih =>
      obtain ⟨hs₁, hview, hselected, hlength, hsp, htakes⟩ :=
        ih fun x hx => hresume x (List.mem_append_left _ hx)
      have hcases := step_cases hstep
      have h₁ : Sched c₁ := hrun.induction Sched (fun hs hst => hs.step hst) h
      obtain ⟨hs₂, hview₂, hnot⟩ := hs₁.step h₁ hcases
        (hresume ⟨c₁, a, o, c₂⟩ (List.mem_append_right _ List.mem_cons_self))
      refine ⟨hs₂, hview₂.trans hview, ?_, ?_, ?_, ?_⟩
      · intro x hx currentSp hpendsv
        rcases List.mem_append.mp hx with hx | hx
        · exact hselected x hx currentSp hpendsv
        · obtain rfl := List.mem_singleton.mp hx
          exact hnot currentSp hpendsv
      · rw [List.filterMap_append, List.length_append]
        by_cases ha : ∃ currentSp, a = .pendsv currentSp
        · obtain ⟨currentSp, rfl⟩ := ha
          rw [if_neg (hnot currentSp rfl)]
          by_cases hcur : c₁.current = t
          · rw [if_pos hcur] at hlength
            simp only [List.filterMap_cons, Transition.switchesOut, if_pos hcur,
              List.filterMap_nil, List.length_singleton]
            omega
          · simp only [List.filterMap_cons, Transition.switchesOut, if_neg hcur,
              List.filterMap_nil, List.length_nil]
            omega
        · have hno : ∀ currentSp, a ≠ .pendsv currentSp := fun sp heq => ha ⟨sp, heq⟩
          have hnone : Transition.switchesOut t ⟨c₁, a, o, c₂⟩ = none := by
            cases a with
            | pendsv currentSp => exact absurd rfl (hno currentSp)
            | _ => rfl
          rw [hcases.current_eq hno, List.filterMap_cons, hnone]
          exact hlength
      · rw [hcases.sp h₁, hsp, List.filterMap_append]
        cases hout : Transition.switchesOut t ⟨c₁, a, o, c₂⟩ with
        | none => simp [hout]
        | some currentSp => simp [hout]
      · intro x hx
        rcases List.mem_append.mp hx with hx | hx
        · exact htakes x hx
        · obtain rfl := List.mem_singleton.mp hx
          exact hs₁.takes hcases

/-- From `c₁` along `tr` to `c` task `t` has stayed suspended: with its wait
record, base priority and private region, never selected, with the stack
pointer of its last switch-out (of which at most one was still to come),
and with all its notifications. -/
structure StaysSuspended (t : Nat) (c₁ : Cfg) (tr : List Transition) (c : Cfg) : Prop where
  state : (c.kernel.tasks t).state = .suspended
  wait : (c.kernel.tasks t).waitView = (c₁.kernel.tasks t).waitView
  setup : (c.kernel.tasks t).setup = (c₁.kernel.tasks t).setup
  never_selected : ∀ x ∈ tr, ∀ sp, x.action = .pendsv sp → x.post.current ≠ t
  one_switch_out : (tr.filterMap (Transition.switchesOut t)).length ≤ 1
  sp : (c.kernel.tasks t).sp
    = (tr.filterMap (Transition.switchesOut t)).getLast?.getD (c₁.kernel.tasks t).sp
  notifications : (c.kernel.tasks t).notificationValue
    = (c₁.kernel.tasks t).notificationValue + (tr.map fun x => x.action.notifies t).sum

theorem Suspended.stays {c₁ c : Cfg} {tr : List Transition} {t : Nat} (h : Sched c₁)
    (hs : Suspended t c₁) (hrun : Run c₁ tr c) (ht : t < c₁.kernel.taskCount)
    (hresume : ∀ x ∈ tr, x.resumes t = false) : StaysSuspended t c₁ tr c := by
  obtain ⟨hs', hview, hselected, hlength, hsp, htakes⟩ := hs.run h hrun hresume
  exact ⟨hs'.state, hview, hrun.setup t, hselected, by omega, hsp,
    hrun.notificationValue_of_no_take h ht htakes⟩

theorem step_call {c c' : Cfg} {o : Observation} {made : Call}
    (h : step c (.call made) = some (c', o)) :
    c.kernel.kernelStarted = true ∧ ∃ s, enter c.kernel made = .ok s ∧ c' = c.after s
      ∧ o.result = s.result := by
  have hcases := step_cases h
  cases hcases with
  | thread hstarted _ hseg =>
      cases hseg with
      | call _ _ hs => exact ⟨hstarted, _, hs, rfl, rfl⟩

/-- A resume of a suspended task is accepted, and makes it `READY`. -/
theorem resume_step {img : Image} {c c' : Cfg} {o : Observation} {t : Nat}
    (hreachable : Reachable img c) (ht : t < c.kernel.applicationTaskCount)
    (hstate : (c.kernel.tasks t).state = .suspended)
    (hstep : step c (.call (.taskResume t)) = some (c', o)) :
    o.result = some JrtStatus.ok.toWord
      ∧ c'.kernel.tasks = (c.kernel.setTask t ((c.kernel.tasks t).withState .ready)).tasks := by
  obtain ⟨hstarted, s, hs, rfl, hresult⟩ := step_call hstep
  obtain rfl := Except.ok.inj hs
  have hok := (kernelTaskResume_ok_iff hreachable.initialized hstarted t).mpr ⟨ht, hstate⟩
  refine ⟨?_, ?_⟩
  · rw [hresult]
    change some (kernelTaskResume c.kernel t).1.toWord = _
    rw [hok]
  · rcases kernelTaskResume_cases c.kernel t with ⟨hno, -⟩ | ⟨-, htasks⟩
    · exact absurd hok hno
    · exact htasks

/-- A suspension is accepted exactly for an application task that is `READY`
or runs, a resume exactly for a suspended one, by its identifier; otherwise
neither changes a task. From an accepted suspension on, through any run that
does not resume the task, it stays suspended, and a resume of it then makes
it `READY` and changes nothing else in the task table. -/
theorem suspension_ends_by_resume (img : Image) (c₀ : Cfg) (hreachable : Reachable img c₀)
    (requested t : Nat) (ht : t = c₀.kernel.suspendTarget requested) :
    (∀ c₁ o, step c₀ (.call (.taskSuspend requested)) = some (c₁, o) →
        (o.result = some JrtStatus.ok.toWord ↔ t < c₀.kernel.applicationTaskCount
          ∧ ((c₀.kernel.tasks t).state = .ready
            ∨ ((c₀.kernel.tasks t).state = .running ∧ t = c₀.current)))
        ∧ (o.result ≠ some JrtStatus.ok.toWord → c₁.kernel.tasks = c₀.kernel.tasks)
        ∧ (o.result = some JrtStatus.ok.toWord →
          ∀ tr c, Run c₁ tr c → (∀ x ∈ tr, x.resumes t = false) →
            StaysSuspended t c₁ tr c
              ∧ ∀ c' o', step c (.call (.taskResume t)) = some (c', o') →
                  o'.result = some JrtStatus.ok.toWord
                    ∧ c'.kernel.tasks
                      = (c.kernel.setTask t ((c.kernel.tasks t).withState .ready)).tasks))
      ∧ ∀ c₁ o, step c₀ (.call (.taskResume requested)) = some (c₁, o) →
        (o.result = some JrtStatus.ok.toWord ↔ requested < c₀.kernel.applicationTaskCount
          ∧ (c₀.kernel.tasks requested).state = .suspended)
        ∧ (o.result ≠ some JrtStatus.ok.toWord → c₁.kernel.tasks = c₀.kernel.tasks) := by
  have hinit := hreachable.initialized
  have h₀ := hreachable.sched
  constructor
  · intro c₁ o hstep
    have hreachable₁ : Reachable img c₁ := hreachable.step hstep
    obtain ⟨hstarted, s, hs, rfl, hresult⟩ := step_call hstep
    obtain rfl := Except.ok.inj hs
    have hok : o.result = some JrtStatus.ok.toWord
        ↔ (kernelTaskSuspend c₀.kernel requested).1 = .ok := by
      rw [hresult]
      change some (kernelTaskSuspend c₀.kernel requested).1.toWord = _ ↔ _
      rw [Option.some.injEq, toWord_eq_ok_iff]
    have hiff := kernelTaskSuspend_ok_iff hinit hstarted requested
    rw [← ht] at hiff
    refine ⟨hok.trans hiff, ?_, ?_⟩
    · intro hno
      rcases kernelTaskSuspend_cases c₀.kernel requested with ⟨-, hkept⟩ | ⟨hyes, -⟩
      · exact congrArg Kernel.tasks hkept
      · exact absurd (hok.mpr hyes) hno
    · intro hyes tr c hrun hresume
      obtain ⟨happ, -⟩ := hiff.mp (hok.mp hyes)
      have hframe := kernelTaskSuspend_frame c₀.kernel requested
      have hsuspended : Suspended t (c₀.after
          { Segment.ret (kernelTaskSuspend c₀.kernel requested).2
              (kernelTaskSuspend c₀.kernel requested).1.toWord with switch := true }) := by
        refine ⟨?_, fun _ => by simp [Cfg.after]⟩
        rcases kernelTaskSuspend_cases c₀.kernel requested with ⟨hno, -⟩ | ⟨-, htasks⟩
        · exact absurd (hok.mp hyes) hno
        · change (((kernelTaskSuspend c₀.kernel requested).2.tasks t).waitView).state = _
          rw [htasks, ← ht, Kernel.setTask_tasks_self]
          rfl
      have hcount : t < (kernelTaskSuspend c₀.kernel requested).2.taskCount := by
        rw [hframe.1, h₀.count]
        omega
      have hstays := hsuspended.stays hreachable₁.sched hrun hcount hresume
      refine ⟨hstays, fun c' o' hresumes => ?_⟩
      refine resume_step (hreachable₁.run hrun) ?_ hstays.state hresumes
      have happ' : c.kernel.applicationTaskCount
          = (kernelTaskSuspend c₀.kernel requested).2.applicationTaskCount :=
        hrun.induction (fun c => c.kernel.applicationTaskCount = _)
          (fun hn hst => hst.initialized.2.trans hn) rfl
      rw [happ', hframe.2.1]
      exact happ
  · intro c₁ o hstep
    obtain ⟨hstarted, s, hs, rfl, hresult⟩ := step_call hstep
    obtain rfl := Except.ok.inj hs
    have hok : o.result = some JrtStatus.ok.toWord
        ↔ (kernelTaskResume c₀.kernel requested).1 = .ok := by
      rw [hresult]
      change some (kernelTaskResume c₀.kernel requested).1.toWord = _ ↔ _
      rw [Option.some.injEq, toWord_eq_ok_iff]
    refine ⟨hok.trans (kernelTaskResume_ok_iff hinit hstarted requested), fun hno => ?_⟩
    rcases kernelTaskResume_cases c₀.kernel requested with ⟨-, hkept⟩ | ⟨hyes, -⟩
    · exact congrArg Kernel.tasks hkept
    · exact absurd (hok.mpr hyes) hno

/-- The first task suspends itself and is notified by the second. -/
theorem suspension_ends_by_resume_sample : ∃ c₀ c₁ o tr c,
    step c₀ (.call (.taskSuspend jrtTaskIdSelf)) = some (c₁, o)
      ∧ runActions c₁ [.pendsv (sampleSp 0), .tick, .pendsv (sampleSp 1),
          .call (.taskNotify 0 5)] = some (tr, c)
      ∧ StaysSuspended 0 c₁ tr c := by
  have hsome : ((sampleRun [2, 1] [.start]).bind fun r₀ =>
      (step r₀.2 (.call (.taskSuspend jrtTaskIdSelf))).bind fun r₁ =>
        (runActions r₁.1 [.pendsv (sampleSp 0), .tick, .pendsv (sampleSp 1),
          .call (.taskNotify 0 5)]).filter fun r =>
            r₀.2.kernel.suspendTarget jrtTaskIdSelf == 0
              && r₁.2.result == some JrtStatus.ok.toWord
              && r.1.all fun x => x.resumes 0 == false).isSome = true := by decide +kernel
  obtain ⟨⟨tr, c⟩, hbind⟩ := Option.isSome_iff_exists.mp hsome
  obtain ⟨⟨tr₀, c₀⟩, hrun₀, hbind⟩ := Option.bind_eq_some_iff.mp hbind
  obtain ⟨⟨c₁, o⟩, hstep, hbind⟩ := Option.bind_eq_some_iff.mp hbind
  obtain ⟨hrun, hchecks⟩ := Option.filter_eq_some_iff.mp hbind
  simp only [Bool.and_eq_true, beq_iff_eq, List.all_eq_true] at hchecks
  obtain ⟨⟨htarget, hresult⟩, hresume⟩ := hchecks
  obtain ⟨hsuspend, -⟩ := suspension_ends_by_resume .sample c₀ (sampleRun_reachable hrun₀)
    jrtTaskIdSelf 0 htarget.symm
  obtain ⟨-, -, hstays⟩ := hsuspend c₁ o hstep
  exact ⟨c₀, c₁, o, tr, c, hstep, hrun,
    (hstays hresult tr c (runActions_run hrun) hresume).1⟩

end JustRT
