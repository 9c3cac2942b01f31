import JustRT.Booted

/-!
# The scheduler's invariant

`Sched` says of a configuration which task may be `RUNNING`, that the idle
task always can run, and that a task that waits is inside the call its
record names. Every step keeps it, so every reachable configuration has
it; that every context switch finds a `READY` task follows.

It is proved first, and by itself: most other invariants of the system
rest on it, if only because a wake must find the call it is for. The
record of a task and its program counter are two accounts of the same
wait, and the fields `waiting` and `blocked` are where they are held
together, in both directions.
-/

namespace JustRT

/-! ## The invariant -/

/-- The wait record of task `i`, which is behind the critical section that
blocked it in `call`: while it is blocked it waits on the call's object,
and then it holds how the wait ended. -/
structure Waiting (call : WaitCall) (i : Nat) (v : WaitView) : Prop where
  eventFields : call.EventFields v
  on : v.state = .blocked → v.On (call.object i) call.kind
  result : v.state ≠ .blocked → v.waitResult = 0 ∨ v.waitResult = 1

/-- Task `i` is behind the critical section that blocked it in `call`. -/
def Cfg.Within (c : Cfg) (i : Nat) (call : WaitCall) : Prop :=
  c.pc i = .yielding call ∨ c.pc i = .resumed call

/-- The index of the idle task. -/
def Kernel.idle (k : Kernel) : Nat := k.taskCount - 1

/-- The scheduler's invariant. `thread` is the hard part: between the critical
section that blocks a task and its switch the task is `BLOCKED` and still on
the processor, unless an interrupt has woken it to `READY` by then, which pends
the switch. -/
structure Sched (c : Cfg) : Prop where
  count : c.kernel.taskCount = c.kernel.applicationTaskCount + 2
  count_lt : c.kernel.taskCount < uint32Max
  service : c.kernel.timerServiceTaskIndex = c.kernel.applicationTaskCount
  current_lt : c.current < c.kernel.taskCount
  currentTask : c.kernel.currentTask = c.current
  running : ∀ i < c.kernel.taskCount, (c.kernel.view i).state = .running → i = c.current
  idle : (c.kernel.view c.kernel.idle).state = .ready
    ∨ (c.kernel.view c.kernel.idle).state = .running
  idle_pc : c.pc c.kernel.idle = .idle
  waiting : ∀ i call, c.Within i call → Waiting call i (c.kernel.view i)
  blocked : ∀ i < c.kernel.taskCount, (c.kernel.view i).state = .blocked → ∃ call, c.Within i call
  thread : c.pending = false → (c.kernel.view c.current).state = .running
    ∨ ((c.kernel.view c.current).state = .blocked ∧ ∃ call, c.pc c.current = .yielding call)

theorem Waiting.woken {R : WaitView → UInt32 → Prop} (hR : ∀ v r, R v r → r = 0 ∨ r = 1)
    {call : WaitCall} {i : Nat} {v v' : WaitView} (h : Waiting call i v) (hw : Woken R v v') :
    Waiting call i v' := by
  cases hw with
  | kept => exact h
  | ended hb hr =>
      refine ⟨?_, by simp, fun _ => hR _ _ hr⟩
      have hfields := h.eventFields
      cases call <;> exact hfields
  | awoken hs =>
      refine ⟨?_, by simp, fun _ => h.result (by simp [hs])⟩
      have hfields := h.eventFields
      cases call <;> exact hfields

/-- A state is written that neither was nor becomes `BLOCKED`. -/
theorem Waiting.withState {call : WaitCall} {i : Nat} {v : WaitView} {state : TaskState}
    (h : Waiting call i v) (hold : v.state ≠ .blocked) (hnew : state ≠ .blocked) :
    Waiting call i (v.withState state) := by
  refine ⟨?_, fun hb => absurd hb hnew, fun _ => h.result hold⟩
  have hfields := h.eventFields
  cases call <;> exact hfields

namespace Sched

variable {c c' : Cfg}

/-- Steps that end waits and leave every task where it is. -/
theorem of_wakes {R : WaitView → UInt32 → Prop} (hR : ∀ v r, R v r → r = 0 ∨ r = 1)
    (h : Sched c) (hpc : c'.pc = c.pc)
    (hn : c'.kernel.taskCount = c.kernel.taskCount)
    (happ : c'.kernel.applicationTaskCount = c.kernel.applicationTaskCount)
    (hservice : c'.kernel.timerServiceTaskIndex = c.kernel.timerServiceTaskIndex)
    (hcur : c'.kernel.gCurrentTaskIndex = c.kernel.gCurrentTaskIndex)
    (htask : c'.kernel.currentTask = c.kernel.currentTask)
    (hw : WakesOnly R c.kernel c'.kernel)
    (hthread : c'.pending = false → c.pending = false ∧ c'.kernel.view = c.kernel.view) :
    Sched c' := by
  have hcurrent : c'.current = c.current := hcur
  have hidle : c'.kernel.idle = c.kernel.idle := by rw [Kernel.idle, hn, Kernel.idle]
  refine ⟨by rw [hn, happ, h.count], by rw [hn]; exact h.count_lt,
    by rw [hservice, happ, h.service], by rw [hcurrent, hn]; exact h.current_lt,
    by rw [htask, hcurrent, h.currentTask], ?_, ?_, by rw [hpc, hidle, h.idle_pc], ?_, ?_, ?_⟩
  · intro i hi hrun
    rw [hcurrent]
    refine h.running i (hn ▸ hi) ?_
    have hwi := hw i
    generalize c'.kernel.view i = v' at hwi hrun
    cases hwi with
    | kept => exact hrun
    | ended => simp at hrun
    | awoken => simp at hrun
  · have hkept := (hw c.kernel.idle).eq_of_not_waiting
      (by rcases h.idle with hi | hi <;> simp [hi])
      (by rcases h.idle with hi | hi <;> simp [hi])
    rw [hidle, hkept]
    exact h.idle
  · intro i call hwithin
    rw [Cfg.Within, hpc] at hwithin
    exact (h.waiting i call hwithin).woken hR (hw i)
  · intro i hi hb
    rw [(hw i).eq_of_blocked hb] at hb
    obtain ⟨call, hcall⟩ := h.blocked i (hn ▸ hi) hb
    exact ⟨call, by rwa [Cfg.Within, hpc]⟩
  · intro hp
    obtain ⟨hp, hview⟩ := hthread hp
    rw [hcurrent, hview, hpc]
    exact h.thread hp

/-- The running task of a thread segment is not the idle task. -/
theorem current_ne_idle (h : Sched c) {a : Action} {s : Segment} (hseg : ThreadSegment c a s) :
    c.current ≠ c.kernel.idle := fun heq => hseg.pc_ne_idle (heq ▸ h.idle_pc)

/-- The running task of a thread segment other than a blocked call's yield
is `RUNNING`. -/
theorem current_running (h : Sched c) (hp : c.pending = false)
    (hy : ∀ call, c.pc c.current ≠ .yielding call) :
    (c.kernel.view c.current).state = .running := by
  rcases h.thread hp with hrun | ⟨-, call, hcall⟩
  · exact hrun
  · exact absurd hcall (hy call)

theorem after_current (s : Segment) (hframe : ControlFrame c.kernel s.kernel) :
    (c.after s).current = c.current := hframe.2.2.1

theorem after_pc_of_ne (s : Segment) {i : Nat} (hi : i ≠ c.current) :
    (c.after s).pc i = c.pc i := by
  simp [Cfg.after, hi]

theorem after_pc_current (s : Segment) : (c.after s).pc c.current = s.pc := by
  simp [Cfg.after]

/-- The parts of the invariant no segment of the running task touches. -/
theorem after_control (h : Sched c) {a : Action} {s : Segment} (hseg : ThreadSegment c a s) :
    s.kernel.taskCount = s.kernel.applicationTaskCount + 2 ∧ s.kernel.taskCount < uint32Max
      ∧ s.kernel.timerServiceTaskIndex = s.kernel.applicationTaskCount
      ∧ (c.after s).current < s.kernel.taskCount ∧ s.kernel.currentTask = (c.after s).current
      ∧ s.kernel.idle = c.kernel.idle ∧ (c.after s).pc s.kernel.idle = .idle := by
  have hframe := hseg.frame
  obtain ⟨hn, happ, -, htask, -, -, hservice, -⟩ := hseg.frame
  have hidle : s.kernel.idle = c.kernel.idle := by rw [Kernel.idle, hn, Kernel.idle]
  refine ⟨by rw [hn, happ, h.count], by rw [hn]; exact h.count_lt,
    by rw [hservice, happ, h.service], ?_, ?_, hidle, ?_⟩
  · rw [after_current s hframe, hn]
    exact h.current_lt
  · rw [htask, after_current s hframe, h.currentTask]
  · rw [hidle, after_pc_of_ne s (h.current_ne_idle hseg).symm, h.idle_pc]

theorem after_wakes (h : Sched c) {a : Action} {s : Segment} (hseg : ThreadSegment c a s)
    (hrun : (c.kernel.view c.current).state = .running)
    (hw : WakesOnly (a.wakes c) c.kernel s.kernel) (hy : ∀ w, s.pc ≠ .yielding w)
    (hr : ∀ w, s.pc ≠ .resumed w) : Sched (c.after s) := by
  have hframe := hseg.frame
  obtain ⟨h1, h2, h3, h4, h5, hidle, h7⟩ := h.after_control hseg
  have hcurrent := after_current s hframe
  have hkept : s.kernel.view c.current = c.kernel.view c.current :=
    (hw c.current).eq_of_not_waiting (by simp [hrun]) (by simp [hrun])
  have hn : s.kernel.taskCount = c.kernel.taskCount := hframe.1
  refine ⟨h1, h2, h3, h4, h5, ?_, ?_, h7, ?_, ?_, ?_⟩
  · intro i hi hirun
    rw [hcurrent]
    refine h.running i (hn ▸ hi) ?_
    have hwi := hw i
    change (s.kernel.view i).state = .running at hirun
    generalize s.kernel.view i = v' at hwi hirun
    cases hwi with
    | kept => exact hirun
    | ended => simp at hirun
    | awoken => simp at hirun
  · have hkept := (hw c.kernel.idle).eq_of_not_waiting
      (by rcases h.idle with hi | hi <;> simp [hi])
      (by rcases h.idle with hi | hi <;> simp [hi])
    change (s.kernel.view s.kernel.idle).state = .ready
      ∨ (s.kernel.view s.kernel.idle).state = .running
    rw [hidle, hkept]
    exact h.idle
  · intro i call hwithin
    by_cases hi : i = c.current
    · subst hi
      rw [Cfg.Within, after_pc_current] at hwithin
      exact hwithin.elim (fun hpc => absurd hpc (hy call)) (fun hpc => absurd hpc (hr call))
    · rw [Cfg.Within, after_pc_of_ne s hi] at hwithin
      exact (h.waiting i call hwithin).woken (fun _ _ hR => Or.inr (Action.wakes_result hR)) (hw i)
  · intro i hi hb
    change (s.kernel.view i).state = .blocked at hb
    rw [(hw i).eq_of_blocked hb] at hb
    obtain ⟨call, hcall⟩ := h.blocked i (hn ▸ hi) hb
    have hic : i ≠ c.current := fun hic => by
      rw [hic, hrun] at hb
      cases hb
    exact ⟨call, by rwa [Cfg.Within, after_pc_of_ne s hic]⟩
  · intro _
    rw [hcurrent]
    exact Or.inl (hkept ▸ hrun)

theorem after_blocks (h : Sched c) {a : Action} {s : Segment} (hseg : ThreadSegment c a s)
    {w : WaitCall} {v : WaitView} (hpc : s.pc = .yielding w)
    (hview : s.kernel.view = Function.update c.kernel.view c.current v)
    (hv : w.Begun c.current v) : Sched (c.after s) := by
  have hframe := hseg.frame
  obtain ⟨h1, h2, h3, h4, h5, hidle, h7⟩ := h.after_control hseg
  have hcurrent := after_current s hframe
  have hn : s.kernel.taskCount = c.kernel.taskCount := hframe.1
  have hself : s.kernel.view c.current = v := by rw [hview, Function.update_self]
  have hother : ∀ i, i ≠ c.current → s.kernel.view i = c.kernel.view i := fun i hi => by
    rw [hview, Function.update_of_ne hi]
  refine ⟨h1, h2, h3, h4, h5, ?_, ?_, h7, ?_, ?_, ?_⟩
  · intro i hi hirun
    change (s.kernel.view i).state = .running at hirun
    by_cases hic : i = c.current
    · rw [hic, hself, hv.on.1] at hirun
      cases hirun
    · rw [hother i hic] at hirun
      rw [hcurrent]
      exact h.running i (hn ▸ hi) hirun
  · change (s.kernel.view s.kernel.idle).state = .ready
      ∨ (s.kernel.view s.kernel.idle).state = .running
    rw [hidle, hother _ (h.current_ne_idle hseg).symm]
    exact h.idle
  · intro i call hwithin
    by_cases hi : i = c.current
    · subst hi
      rw [Cfg.Within, after_pc_current, hpc] at hwithin
      have hcall : w = call := by
        rcases hwithin with hw | hw
        · exact Pc.yielding.inj hw
        · cases hw
      show Waiting call c.current (s.kernel.view c.current)
      rw [hself, ← hcall]
      exact ⟨hv.eventFields, fun _ => hv.on, fun hne => absurd hv.on.1 hne⟩
    · rw [Cfg.Within, after_pc_of_ne s hi] at hwithin
      show Waiting call i (s.kernel.view i)
      rw [hother i hi]
      exact h.waiting i call hwithin
  · intro i hi hb
    change (s.kernel.view i).state = .blocked at hb
    by_cases hic : i = c.current
    · exact ⟨w, Or.inl (by rw [hic, after_pc_current, hpc])⟩
    · rw [hother i hic] at hb
      obtain ⟨call, hcall⟩ := h.blocked i (hn ▸ hi) hb
      exact ⟨call, by rwa [Cfg.Within, after_pc_of_ne s hic]⟩
  · intro _
    rw [hcurrent]
    refine Or.inr ⟨?_, w, by rw [after_pc_current, hpc]⟩
    show (s.kernel.view c.current).state = .blocked
    rw [hself]
    exact hv.on.1

/-- A segment that writes one state and pends a switch. -/
theorem after_restates (h : Sched c) {a : Action} {s : Segment} (hseg : ThreadSegment c a s)
    {j : Nat} {state : TaskState} (hrun : (c.kernel.view c.current).state = .running)
    (hpc : s.pc = .user) (hswitch : s.switch = true)
    (hj : Restates c.kernel j state)
    (hview : s.kernel.view = Function.update c.kernel.view j
      ((c.kernel.view j).withState state)) : Sched (c.after s) := by
  have hframe := hseg.frame
  obtain ⟨h1, h2, h3, h4, h5, hidle, h7⟩ := h.after_control hseg
  have hcurrent := after_current s hframe
  have hn : s.kernel.taskCount = c.kernel.taskCount := hframe.1
  have hself : s.kernel.view j = (c.kernel.view j).withState state := by
    rw [hview, Function.update_self]
  have hother : ∀ i, i ≠ j → s.kernel.view i = c.kernel.view i := fun i hi => by
    rw [hview, Function.update_of_ne hi]
  -- The written task neither was nor becomes blocked, is not idle, and does
  -- not become `RUNNING`.
  have hstates : (c.kernel.view j).state ≠ .blocked ∧ state ≠ .blocked ∧ state ≠ .running
      ∧ j ≠ c.kernel.idle := by
    have hidx : ∀ {i}, i < c.kernel.applicationTaskCount → i ≠ c.kernel.idle := fun hi => by
      have := h.count
      unfold Kernel.idle
      omega
    cases hj with
    | delayed hs =>
        rw [h.currentTask]
        refine ⟨by simp [hrun], ?_, ?_, h.current_ne_idle hseg⟩ <;>
          rcases hs with rfl | rfl <;> simp
    | suspended happ hold =>
        refine ⟨?_, by simp, by simp, hidx happ⟩
        rcases hold with hold | ⟨hold, -⟩ <;> simp [hold]
    | resumed happ hold => exact ⟨by simp [hold], by simp, by simp, hidx happ⟩
  obtain ⟨hold, hnew, hnotrun, hjidle⟩ := hstates
  refine ⟨h1, h2, h3, h4, h5, ?_, ?_, h7, ?_, ?_, ?_⟩
  · intro i hi hirun
    change (s.kernel.view i).state = .running at hirun
    by_cases hij : i = j
    · rw [hij, hself] at hirun
      exact absurd hirun hnotrun
    · rw [hother i hij] at hirun
      rw [hcurrent]
      exact h.running i (hn ▸ hi) hirun
  · change (s.kernel.view s.kernel.idle).state = .ready
      ∨ (s.kernel.view s.kernel.idle).state = .running
    rw [hidle, hother _ hjidle.symm]
    exact h.idle
  · intro i call hwithin
    by_cases hi : i = c.current
    · subst hi
      rw [Cfg.Within, after_pc_current, hpc] at hwithin
      rcases hwithin with hw | hw <;> cases hw
    · rw [Cfg.Within, after_pc_of_ne s hi] at hwithin
      show Waiting call i (s.kernel.view i)
      have hwait := h.waiting i call hwithin
      by_cases hij : i = j
      · rw [hij] at hwait ⊢
        rw [hself]
        exact hwait.withState hold hnew
      · rw [hother i hij]
        exact hwait
  · intro i hi hb
    change (s.kernel.view i).state = .blocked at hb
    by_cases hij : i = j
    · rw [hij, hself] at hb
      exact absurd hb hnew
    · rw [hother i hij] at hb
      obtain ⟨call, hcall⟩ := h.blocked i (hn ▸ hi) hb
      have hic : i ≠ c.current := fun hic => by
        rw [hic, hrun] at hb
        cases hb
      exact ⟨call, by rwa [Cfg.Within, after_pc_of_ne s hic]⟩
  · intro hp
    simp [Cfg.after, hswitch] at hp

theorem after_yield (h : Sched c) {a : Action} {s : Segment} (hseg : ThreadSegment c a s)
    {w : WaitCall} (hpc : c.pc c.current = .yielding w)
    (hs : s = { kernel := c.kernel, pc := .resumed w, switch := true }) : Sched (c.after s) := by
  obtain ⟨h1, h2, h3, h4, h5, hidle, h7⟩ := h.after_control hseg
  subst hs
  have hwithin : ∀ i call,
      (c.after { kernel := c.kernel, pc := .resumed w, switch := true }).Within i call
        ↔ c.Within i call := by
    intro i call
    by_cases hi : i = c.current
    · subst hi
      simp [Cfg.Within, Cfg.after, hpc]
    · rw [Cfg.Within, after_pc_of_ne _ hi, Cfg.Within]
  refine ⟨h1, h2, h3, h4, h5, h.running, h.idle, h7, ?_, ?_, ?_⟩
  · exact fun i call hcall => h.waiting i call ((hwithin i call).mp hcall)
  · intro i hi hb
    obtain ⟨call, hcall⟩ := h.blocked i hi hb
    exact ⟨call, (hwithin i call).mpr hcall⟩
  · intro hp
    simp [Cfg.after] at hp

/-- Every segment of the running task keeps the invariant. -/
theorem after_segment (h : Sched c) (hp : c.pending = false) {a : Action} {s : Segment}
    (hseg : ThreadSegment c a s) : Sched (c.after s) := by
  rcases hseg.effect with ⟨heffect, hy⟩ | ⟨call, hpc, hs⟩
  · have hrun := h.current_running hp hy
    cases heffect with
    | wakes hw hyield hresume => exact h.after_wakes hseg hrun hw hyield hresume
    | blocks hpc _ _ hview hv =>
        rw [h.currentTask] at hview hv
        exact h.after_blocks hseg hpc hview hv
    | restates hpc hswitch hj hview => exact h.after_restates hseg hrun hpc hswitch hj hview
  · exact h.after_yield hseg hpc hs

/-! ## The context switch -/

/-- Behind the save of a context switch the idle task is `READY`. -/
theorem idle_ready (h : Sched c) {currentSp : Ptr} {k₁ : Kernel}
    (hsave : pendsvSave c.kernel currentSp = .ok k₁) : k₁.Ready c.kernel.idle := by
  obtain ⟨hframe, hview, -⟩ := pendsvSave_spec hsave
  have hlt := h.current_lt
  refine ⟨by rw [hframe.1, Kernel.idle]; omega, ?_⟩
  rw [hview, h.currentTask]
  by_cases hidle : c.kernel.idle = c.current
  · rw [hidle, Function.update_self, WaitView.withState_state, demoted_eq_ready_iff, ← hidle]
    exact h.idle
  · rw [Function.update_of_ne hidle]
    refine h.idle.resolve_right fun hrun => hidle (h.running _ ?_ hrun)
    rw [Kernel.idle]
    omega

/-- A context switch selects a task that was `READY` or `RUNNING`. -/
theorem selected_ready (h : Sched c) {currentSp : Ptr} {k₁ : Kernel}
    (hsave : pendsvSave c.kernel currentSp = .ok k₁) :
    k₁.Ready (pendsvNextIndex k₁ c.current) := by
  obtain ⟨hframe, -⟩ := pendsvSave_spec hsave
  have hb : c.current < k₁.taskCount := by rw [hframe.1]; exact h.current_lt
  exact (pendsvNextIndex_spec hb (h.idle_ready hsave)).1

/-- The save of a context switch keeps the waits of all tasks. -/
theorem saved_waiting (h : Sched c) {currentSp : Ptr} {k₁ : Kernel}
    (hsave : pendsvSave c.kernel currentSp = .ok k₁) {i : Nat} {call : WaitCall}
    (hwithin : c.Within i call) : Waiting call i (k₁.view i) := by
  obtain ⟨-, hview, -⟩ := pendsvSave_spec hsave
  have hwait := h.waiting i call hwithin
  rw [hview]
  by_cases hi : i = c.kernel.currentTask
  · subst hi
    rw [Function.update_self]
    by_cases hrun : (c.kernel.view c.kernel.currentTask).state = .running
    · rw [hrun]
      exact hwait.withState (by simp [hrun]) (by decide)
    · rw [demoted_of_ne hrun]
      exact hwait
  · rw [Function.update_of_ne hi]
    exact hwait

theorem saved_blocked {currentSp : Ptr} {k₁ : Kernel}
    (hsave : pendsvSave c.kernel currentSp = .ok k₁) {i : Nat}
    (hb : (k₁.view i).state = .blocked) : (c.kernel.view i).state = .blocked := by
  obtain ⟨-, hview, -⟩ := pendsvSave_spec hsave
  rw [hview] at hb
  by_cases hi : i = c.kernel.currentTask
  · subst hi
    rw [Function.update_self, WaitView.withState_state] at hb
    by_cases hrun : (c.kernel.view c.kernel.currentTask).state = .running
    · rw [hrun] at hb
      cases hb
    · rwa [demoted_of_ne hrun] at hb
  · rwa [Function.update_of_ne hi] at hb

/-- What is `READY` behind the save was `READY` or `RUNNING` before. -/
theorem saved_ready {currentSp : Ptr} {k₁ : Kernel}
    (hsave : pendsvSave c.kernel currentSp = .ok k₁) {i : Nat}
    (hready : (k₁.view i).state = .ready) :
    (c.kernel.view i).state = .ready ∨ (c.kernel.view i).state = .running := by
  obtain ⟨-, hview, -⟩ := pendsvSave_spec hsave
  rw [hview] at hready
  by_cases hi : i = c.kernel.currentTask
  · subst hi
    rwa [Function.update_self, WaitView.withState_state, demoted_eq_ready_iff] at hready
  · rw [Function.update_of_ne hi] at hready
    exact Or.inl hready

/-- A context switch writes states only, and of no blocked task. -/
theorem switched_view (h : Sched c) {currentSp sp : Ptr} {k : Kernel}
    (hswitch : pendsvSwitch c.kernel currentSp = .ok (sp, k)) (i : Nat) :
    ∃ state, k.view i = (c.kernel.view i).withState state
      ∧ (state = .blocked ↔ (c.kernel.view i).state = .blocked) := by
  obtain ⟨k₁, hsave, -, -, -, -, hview⟩ := pendsvSwitch_cases hswitch
  obtain ⟨-, hview₁, -⟩ := pendsvSave_spec hsave
  have hready := (h.selected_ready hsave).2
  change k.view = Function.update k₁.view (pendsvNextIndex k₁ c.current)
    ((k₁.view (pendsvNextIndex k₁ c.current)).withState .running) at hview
  generalize pendsvNextIndex k₁ c.current = next at *
  have hsaved : ∃ state, k₁.view i = (c.kernel.view i).withState state
      ∧ (state = .blocked ↔ (c.kernel.view i).state = .blocked) := by
    rw [hview₁]
    by_cases hi : i = c.kernel.currentTask
    · subst hi
      rw [Function.update_self]
      refine ⟨_, rfl, ?_⟩
      cases (c.kernel.view c.kernel.currentTask).state <;> simp [TaskState.demoted]
    · rw [Function.update_of_ne hi]
      exact ⟨(c.kernel.view i).state, rfl, Iff.rfl⟩
  obtain ⟨state, hstate, hblocked⟩ := hsaved
  rw [hview]
  by_cases hi : i = next
  · subst hi
    rw [Function.update_self, hstate]
    rw [hstate] at hready
    refine ⟨.running, rfl, ?_⟩
    rw [← hblocked, show state = .ready from hready]
    simp
  · rw [Function.update_of_ne hi]
    exact ⟨state, hstate, hblocked⟩

theorem after_pendsv (h : Sched c) {currentSp sp : Ptr} {k : Kernel}
    (hswitch : pendsvSwitch c.kernel currentSp = .ok (sp, k)) :
    Sched { c with kernel := k, pending := false } := by
  obtain ⟨k₁, hsave, hframe, -, hcur, htask, hview⟩ := pendsvSwitch_cases hswitch
  obtain ⟨-, hview₁, -⟩ := pendsvSave_spec hsave
  obtain ⟨hselected, hready⟩ := h.selected_ready hsave
  obtain ⟨hframe₁, -⟩ := pendsvSave_spec hsave
  change k.gCurrentTaskIndex = pendsvNextIndex k₁ c.current at hcur
  change k.currentTask = pendsvNextIndex k₁ c.current at htask
  change k.view = Function.update k₁.view (pendsvNextIndex k₁ c.current)
    ((k₁.view (pendsvNextIndex k₁ c.current)).withState .running) at hview
  generalize pendsvNextIndex k₁ c.current = next at *
  rw [h.currentTask] at hview₁
  obtain ⟨hn, happ, -, -, hservice, -⟩ := hframe
  have hidle : k.idle = c.kernel.idle := by rw [Kernel.idle, hn, Kernel.idle]
  have hdemoted : ∀ i < c.kernel.taskCount, (k₁.view i).state ≠ .running := by
    intro i hi hrun
    by_cases hic : i = c.current
    · rw [hic, hview₁, Function.update_self] at hrun
      exact demoted_ne_running _ hrun
    · rw [hview₁, Function.update_of_ne hic] at hrun
      exact hic (h.running i hi hrun)
  refine ⟨by rw [hn, happ, h.count], by rw [hn]; exact h.count_lt,
    by rw [hservice, happ, h.service], ?_, ?_, ?_, ?_, ?_, ?_, ?_, ?_⟩
  · show k.gCurrentTaskIndex < k.taskCount
    rw [hcur, hn, ← hframe₁.1]
    exact hselected
  · show k.currentTask = k.gCurrentTaskIndex
    rw [htask, hcur]
  · intro i hi hrun
    show i = k.gCurrentTaskIndex
    rw [hcur]
    by_contra hne
    rw [hview, Function.update_of_ne hne] at hrun
    exact hdemoted i (hn ▸ hi) hrun
  · show (k.view k.idle).state = .ready ∨ (k.view k.idle).state = .running
    rw [hidle, hview]
    by_cases hne : c.kernel.idle = next
    · rw [hne, Function.update_self]
      exact Or.inr rfl
    · rw [Function.update_of_ne hne]
      exact Or.inl (h.idle_ready hsave).2
  · show c.pc k.idle = .idle
    rw [hidle]
    exact h.idle_pc
  · intro i call hwithin
    show Waiting call i (k.view i)
    have hwait := h.saved_waiting hsave hwithin
    rw [hview]
    by_cases hi : i = next
    · subst hi
      rw [Function.update_self]
      exact hwait.withState (by simp [hready]) (by decide)
    · rw [Function.update_of_ne hi]
      exact hwait
  · intro i hi hb
    change (k.view i).state = .blocked at hb
    rw [hview] at hb
    by_cases hne : i = next
    · rw [hne, Function.update_self] at hb
      cases hb
    · rw [Function.update_of_ne hne] at hb
      exact h.blocked i (hn ▸ hi) (saved_blocked hsave hb)
  · intro _
    refine Or.inl ?_
    show (k.view k.gCurrentTaskIndex).state = .running
    rw [hcur, hview, Function.update_self]
    rfl

/-! ## Every reachable configuration -/

theorem step (h : Sched c) {a : Action} {o : Observation} (hstep : StepCases c a c' o) :
    Sched c' := by
  cases hstep with
  | start hstarted hk =>
      obtain rfl := jrtKernelStart_spec hk
      exact h.of_wakes (R := noWake) (fun _ _ => False.elim) rfl rfl rfl rfl rfl rfl
        (.of_view_eq rfl) fun hp => ⟨hp, rfl⟩
  | thread _ hp hseg => exact h.after_segment hp hseg
  | tick _ hk =>
      obtain ⟨hn, happ, hcur, htask, -, -, hservice, -⟩ := tickTasks_frame hk
      exact h.of_wakes (fun _ _ => tickWakes_result) rfl hn happ hservice hcur htask
        (tickTasks_wakes hk) fun hp => by cases hp
  | isr hstarted =>
      obtain ⟨hn, happ, hcur, htask, -, -, hservice, -⟩ := isrCall_frame c.kernel _
      refine h.of_wakes (fun _ _ hw => Or.inr (IsrCall.wakes_result hw)) rfl hn happ hservice hcur
        htask (isrCall_wakes c.kernel _) fun hp => ?_
      obtain ⟨hpending, hswitch⟩ := Bool.or_eq_false_iff.mp hp
      exact ⟨hpending, isrCall_view_eq hswitch⟩
  | pendsv _ _ hk => exact h.after_pendsv hk
  | store =>
      exact h.of_wakes (R := noWake) (fun _ _ => False.elim) rfl rfl rfl rfl rfl rfl
        (.of_view_eq rfl) fun hp => ⟨hp, rfl⟩
  | cycles =>
      exact h.of_wakes (R := noWake) (fun _ _ => False.elim) rfl rfl rfl rfl rfl rfl
        (.of_view_eq rfl) fun hp => ⟨hp, rfl⟩

theorem boot {k₀ k : Kernel} (h : Booted k₀ k) : Sched (bootCfg k) := by
  have happ := h.app_pos
  have hn := h.taskCount_eq
  have hidle : k.idle = k.applicationTaskCount + 1 := by rw [Kernel.idle]; omega
  have hservice : k.timerServiceTaskIndex = k.applicationTaskCount := h.service
  have hpc : ∀ i call, (bootCfg k).Within i call →
      i = k.applicationTaskCount ∧ call = .timerServiceClaim := by
    intro i call hwithin
    simp only [Cfg.Within, bootCfg, initialPc] at hwithin
    split at hwithin
    · simp at hwithin
    · split at hwithin
      · next hi =>
          rcases hwithin with hw | hw
          · cases hw
          · exact ⟨hi.trans hservice, (Pc.resumed.inj hw).symm⟩
      · simp at hwithin
  refine ⟨hn, h.taskCount_lt, hservice, ?_, ?_, ?_, ?_, ?_, ?_, ?_, ?_⟩
  · show k.gCurrentTaskIndex < k.taskCount
    rw [h.current]
    omega
  · show k.currentTask = k.gCurrentTaskIndex
    rw [h.currentTask, h.current]
  · intro i hi hrun
    change i < k.taskCount at hi
    change (k.view i).state = .running at hrun
    show i = k.gCurrentTaskIndex
    rw [h.current]
    by_contra hne
    by_cases hlt : i < k.applicationTaskCount
    · rw [h.view_app i hlt, if_neg hne] at hrun
      cases hrun
    · by_cases hserv : i = k.applicationTaskCount
      · rw [hserv, h.view_service.1] at hrun
        cases hrun
      · have hi' : i = k.applicationTaskCount + 1 := by omega
        rw [hi', h.view_idle] at hrun
        cases hrun
  · show (k.view k.idle).state = .ready ∨ (k.view k.idle).state = .running
    rw [hidle, h.view_idle]
    exact Or.inl rfl
  · show initialPc k k.idle = .idle
    rw [initialPc, Kernel.idle, if_pos rfl]
  · intro i call hwithin
    obtain ⟨rfl, rfl⟩ := hpc i call hwithin
    exact ⟨trivial, fun _ => h.view_service, fun hne => absurd h.view_service.1 hne⟩
  · intro i hi hb
    change i < k.taskCount at hi
    change (k.view i).state = .blocked at hb
    by_cases hlt : i < k.applicationTaskCount
    · rw [h.view_app i hlt] at hb
      split at hb <;> cases hb
    · by_cases hserv : i = k.applicationTaskCount
      · refine ⟨.timerServiceClaim, Or.inr ?_⟩
        show initialPc k i = _
        rw [initialPc, if_neg (by omega), if_pos (by omega)]
      · have hi' : i = k.applicationTaskCount + 1 := by omega
        rw [hi', h.view_idle] at hb
        cases hb
  · intro _
    refine Or.inl ?_
    show (k.view k.gCurrentTaskIndex).state = .running
    rw [h.current, h.view_app 0 happ]
    rfl

end Sched

/-- Every reachable configuration satisfies the scheduler's invariant. -/
theorem Reachable.sched {img : Image} {c : Cfg} (h : Reachable img c) : Sched c := by
  obtain ⟨c₀, tr, ⟨k₀, config, k, hinit, rfl⟩, hrun⟩ := h
  exact hrun.induction Sched (fun hs hstep => hs.step hstep)
    (.boot (jrtKernelInit_booted hinit))

/-! ## The lifecycle theorem -/

/-- In every reachable configuration at most the current task is `RUNNING`,
`current_task` points at its record, and the idle task is `READY` or
`RUNNING`; so whenever `pendsv_switch` gets past its save, its second scan
finds a candidate, and what it marks `RUNNING` was `READY` or `RUNNING`. -/
theorem scheduler_safe (img : Image) (c : Cfg) (h : Reachable img c) :
    (∀ i < c.kernel.taskCount, (c.kernel.tasks i).state = .running →
        i = c.kernel.gCurrentTaskIndex)
      ∧ ((c.kernel.tasks (c.kernel.taskCount - 1)).state = .ready
        ∨ (c.kernel.tasks (c.kernel.taskCount - 1)).state = .running)
      ∧ c.kernel.currentTask = c.kernel.gCurrentTaskIndex
      ∧ c.kernel.gCurrentTaskIndex < c.kernel.taskCount
      ∧ (∀ currentSp k₁, pendsvSave c.kernel currentSp = .ok k₁ →
          ∃ offset, pendsvSelectedOffset k₁ c.kernel.gCurrentTaskIndex
              (pendsvBestPriority k₁ c.kernel.gCurrentTaskIndex) = some offset
            ∧ (k₁.tasks (scanIndex k₁ c.kernel.gCurrentTaskIndex offset)).state = .ready)
      ∧ ∀ currentSp sp k', pendsvSwitch c.kernel currentSp = .ok (sp, k') →
          (k'.tasks k'.gCurrentTaskIndex).state = .running
            ∧ ((c.kernel.tasks k'.gCurrentTaskIndex).state = .ready
              ∨ (c.kernel.tasks k'.gCurrentTaskIndex).state = .running) := by
  have hs := h.sched
  refine ⟨hs.running, hs.idle, hs.currentTask, hs.current_lt, ?_, ?_⟩
  · intro currentSp k₁ hsave
    obtain ⟨hframe, -⟩ := pendsvSave_spec hsave
    have hb : c.current < k₁.taskCount := by rw [hframe.1]; exact hs.current_lt
    obtain ⟨offset, hoffset⟩ := pendsvSelectedOffset_isSome hb (hs.idle_ready hsave)
    refine ⟨offset, hoffset, ?_⟩
    have hready := (hs.selected_ready hsave).2
    simp only [pendsvNextIndex] at hready
    change pendsvSelectedOffset k₁ c.current (pendsvBestPriority k₁ c.current) = _ at hoffset
    rw [hoffset] at hready
    exact hready
  · intro currentSp sp k' hswitch
    obtain ⟨k₁, hsave, -, -, hcur, -, hview⟩ := pendsvSwitch_cases hswitch
    rw [hcur]
    refine ⟨?_, Sched.saved_ready hsave (hs.selected_ready hsave).2⟩
    show (k'.view _).state = .running
    rw [hview, Function.update_self]
    rfl

/-- A run in which the first task takes a semaphore and waits, and the
second gives it: the first is `READY`, the second still `RUNNING`. -/
def giveActions : List Action :=
  [.start, .call (.semaphoreTake 8 100), .proceed fun _ => 0, .proceed fun _ => 0,
    .pendsv (sampleSp 0), .tick, .pendsv (sampleSp 1), .call (.semaphoreGive 8)]

theorem scheduler_safe_sample : ∃ tr c, sampleRun [2, 1] giveActions = some (tr, c)
    ∧ c.kernel.gCurrentTaskIndex = 1
    ∧ (∀ i < c.kernel.taskCount, (c.kernel.tasks i).state = .running →
        i = c.kernel.gCurrentTaskIndex) := by
  have hsome : ((sampleRun [2, 1] giveActions).any fun r => r.2.kernel.gCurrentTaskIndex == 1)
      = true := by decide +kernel
  obtain ⟨⟨tr, c⟩, hrun, hcur⟩ := (Option.any_eq_true _ _).mp hsome
  exact ⟨tr, c, hrun, eq_of_beq hcur, (scheduler_safe .sample c (sampleRun_reachable hrun)).1⟩

end JustRT
