import JustRT.Restoration
import JustRT.QueueStep
import JustRT.Semaphore
import JustRT.RoundRobin

/-!
# Who runs while others are ready

A context switch selects a task of the highest priority, and a tick pends
one. In between a task may wake another one, or lose a priority it
inherited, and run on: the calls that notify a task or set event bits pend
a switch, while a give, an unlock and the queue operations do not, and the
first task is started whatever the priorities. `Cfg.Orderly` says when
these leave nobody stronger ready.

`Cfg.Preemptive` is asked of the states in which the running task may
execute, kernel code included, with one exception: a call that ends in
`arch_request_switch` has woken its waiter in a section that lies before
the request, and between the two the switch is not pended yet. The task
gets no further than the request without it.
-/

namespace JustRT

open Relation Inheritance

/-! ## No stronger task is ready -/

/-- No `READY` task has a higher priority than task `t`. -/
def Kernel.Tops (k : Kernel) (t : Nat) : Prop :=
  ∀ i < k.taskCount, (k.view i).state = .ready → k.prio i ≤ k.prio t

instance (k : Kernel) (t : Nat) : Decidable (k.Tops t) :=
  inferInstanceAs (Decidable (∀ i < k.taskCount, _ → _))

/-- While the `RUNNING` task executes, other than to pend a switch, and no
switch is pending, no stronger task is `READY`. -/
def Cfg.Preemptive (c : Cfg) : Prop :=
  c.threadRuns = true → (c.kernel.view c.current).state = .running →
    (∀ r, c.pc c.current ≠ .requestSwitch r) → c.kernel.Tops c.current

/-- Task `w` is the waiter to wake: the first one of the highest priority. -/
structure Kernel.FirstWaiter (k : Kernel) (p : WaitPlace) (w : Nat) : Prop where
  lt : w < k.taskCount
  waits : k.WaitsAt p w
  highest : ∀ j < k.taskCount, k.WaitsAt p j → k.prio j ≤ k.prio w
  first : ∀ j < k.taskCount, k.WaitsAt p j → k.prio j = k.prio w → w ≤ j

/-- No waiter at the place is stronger than the running task. -/
def Kernel.WaitersBelow (k : Kernel) (p : WaitPlace) : Prop :=
  ∀ u < k.taskCount, k.WaitsAt p u → k.prio u ≤ k.prio k.gCurrentTaskIndex

/-- Without the mutex `m` the running task still has priority `p`, or more, by
itself or by who waits for it elsewhere. -/
def Kernel.Retains (k : Kernel) (m : Ptr) (p : Nat) : Prop :=
  ∃ x ∈ offers (fun u t => k.WaitsFor u t ∧ ¬k.WaitsAt (mutexPlace m) u) k.basePrio k.prio
    k.gCurrentTaskIndex, p ≤ x

/-- The priority that the running task has without the mutex `m` is still the
highest of a task that is ready then. -/
structure Kernel.UnlocksOnTop (k : Kernel) (m : Ptr) : Prop where
  ready : ∀ i < k.taskCount, (k.view i).state = .ready → k.Retains m (k.prio i)
  handed : ∀ w, k.FirstWaiter (mutexPlace m) w →
    ∀ p ∈ offers (k.WaitsOnceHanded m w) k.basePrio k.prio w, k.Retains m p

/-- The step leaves nobody stronger than the running task ready without a
switch pending. Of the operations that wake, semaphores, queues and the unlock
of a mutex ask for no switch, so it is on the waiters; a start must find the
first task on top. -/
def Cfg.Orderly (c : Cfg) : Action → Prop
  | .start => c.kernel.Tops c.current
  | .call (.semaphoreGive s) => c.kernel.WaitersBelow (semaphorePlace s)
  | .call (.mutexUnlock m) => c.kernel.FinalUnlock m → c.kernel.UnlocksOnTop m
  | .proceed _ => ∀ call r, c.pc c.current = .entered call r →
      match call with
      | .queueSend q _ _ => queueSendAccepts (c.kernel.queues q) r = true →
          c.kernel.WaitersBelow (receivePlace q)
      | .queueReceive q _ _ => queueReceiveAccepts (c.kernel.queues q) r = true →
          c.kernel.WaitersBelow (sendPlace q)
      | _ => True
  | _ => True

section Wake

variable {k k' : Kernel} {p : WaitPlace} {t w : Nat}

theorem Kernel.FirstWaiter.unique {w' : Nat} (h : k.FirstWaiter p w) (h' : k.FirstWaiter p w') :
    w = w' := by
  have hprio : k.prio w = k.prio w' :=
    Nat.le_antisymm (h'.highest w h.lt h.waits) (h.highest w' h'.lt h'.waits)
  exact Nat.le_antisymm (h.first w' h'.lt h'.waits hprio.symm) (h'.first w h.lt h.waits hprio)

/-- The scan of a wake selects the first waiter of the highest priority. -/
theorem selected_firstWaiter (h : k.selected p = some w) : k.FirstWaiter p w := by
  obtain ⟨hlt, hwaits, hhighest⟩ := wakeSelect_spec h
  refine ⟨hlt, hwaits, hhighest, fun j hj hon hprio => ?_⟩
  rw [Kernel.selected, wakeSelect, wakeScanStep_eq] at h
  exact Scan.best_le _ _ List.pairwise_lt_range h (List.mem_range.mpr hj) (waitsOn_iff.mpr hon)
    (Nat.le_of_eq hprio.symm)

theorem tops_congr (hcount : k'.taskCount = k.taskCount) (hview : k'.view = k.view)
    (hprio : PrioFrame k k') : k'.Tops t ↔ k.Tops t := by
  rw [Kernel.Tops, Kernel.Tops, hcount, hview, hprio.1]

theorem tops_ended_iff {r : UInt32} (hcount : k'.taskCount = k.taskCount)
    (hview : k'.view = Function.update k.view w ((k.view w).ended r)) (hw : w < k.taskCount)
    (hstate : (k.view w).state ≠ .ready) :
    k'.Tops t ↔ (∀ i < k.taskCount, (k.view i).state = .ready → k'.prio i ≤ k'.prio t)
      ∧ k'.prio w ≤ k'.prio t := by
  rw [Kernel.Tops, hcount, hview]
  constructor
  · intro h
    refine ⟨fun i hi hready => h i hi ?_, h w hw (by rw [Function.update_self]; rfl)⟩
    have hne : i ≠ w := fun heq => hstate (heq ▸ hready)
    rwa [Function.update_of_ne hne]
  · rintro ⟨hothers, hself⟩ i hi hready
    by_cases hiw : i = w
    · exact hiw ▸ hself
    · rw [Function.update_of_ne hiw] at hready
      exact hothers i hi hready

/-- A wake leaves the running task on top exactly if no waiter was stronger. -/
theorem tops_woken_iff (hcount : k'.taskCount = k.taskCount) (hview : k'.view = k.wokenView p)
    (hprio : PrioFrame k k') (htops : k.Tops k.gCurrentTaskIndex) :
    k'.Tops k.gCurrentTaskIndex ↔ k.WaitersBelow p := by
  cases hselected : k.selected p with
  | none =>
      rw [Kernel.wokenView, hselected] at hview
      rw [tops_congr hcount hview hprio]
      exact iff_of_true htops fun u hu hon =>
        absurd hon (wakeSelect_eq_none_iff.mp hselected u hu)
  | some w =>
      have hfirst := selected_firstWaiter hselected
      rw [Kernel.wokenView, hselected] at hview
      have hstate : (k.view w).state ≠ .ready := by
        rw [hfirst.waits.1]
        decide
      rw [tops_ended_iff hcount hview hfirst.lt hstate, hprio.1]
      constructor
      · exact fun h u hu hon => (hfirst.highest u hu hon).trans h.2
      · exact fun h => ⟨htops, h w hfirst.lt hfirst.waits⟩

end Wake

/-! ## Steps -/

section Step

variable {c c' : Cfg} {a : Action} {o : Observation} {s : Segment} {m : Ptr}

/-- A context switch leaves the selected task on top. -/
theorem switched_tops (hs : Sched c) {currentSp sp : Ptr} {k : Kernel}
    (hswitch : pendsvSwitch c.kernel currentSp = .ok (sp, k)) : k.Tops k.gCurrentTaskIndex := by
  obtain ⟨k₁, hsave, hframe, hprio, hcur, -, hview⟩ := pendsvSwitch_cases hswitch
  obtain ⟨ht, hcandidate⟩ := (ready_saved_iff hsave _).mp (hs.selected_ready hsave)
  obtain ⟨-, -, hrunning, hhighest, -⟩ := switch_spec hswitch hs.current_lt ht hcandidate
  intro i hi hready
  rw [hprio.1]
  rw [hframe.1] at hi
  refine hhighest i hi ?_
  have hne : i ≠ k.gCurrentTaskIndex := fun heq => by
    rw [heq, view_state, hrunning] at hready
    cases hready
  rw [hview, ← hcur, Function.update_of_ne hne] at hready
  exact ((ready_saved_iff hsave i).mp ⟨by rwa [(pendsvSave_spec hsave).1.1], hready⟩).2

/-- A task that a segment makes `READY` without pending a switch waited for
what the segment wakes. -/
theorem ThreadSegment.ready (hs : Sched c) (hp : c.pending = false) (hseg : ThreadSegment c a s)
    (hswitch : s.switch = false) {i : Nat} (hready : (s.kernel.view i).state = .ready) :
    (c.kernel.view i).state = .ready ∨ ∃ r, a.wakes c (c.kernel.view i) r := by
  rcases hseg.effect with ⟨heffect, hyield⟩ | ⟨call, -, rfl⟩
  · cases heffect with
    | wakes hwakes =>
        have hwoken := hwakes i
        generalize hbehind : s.kernel.view i = v at hwoken
        cases hwoken with
        | kept =>
            rw [hbehind] at hready
            exact Or.inl hready
        | ended _ hr => exact Or.inr ⟨_, hr⟩
        | awoken hsleeping =>
            have hne : i ≠ c.current := fun heq => by
              rw [heq, hs.current_running hp hyield] at hsleeping
              cases hsleeping
            have hsleep : s.kernel.sleep i = c.kernel.sleep i := by
              rw [hseg.sleep hs hp]
              cases a.delay c with
              | none => rfl
              | some n => exact Function.update_of_ne hne _ _
            rw [sleep_eq_none_iff.mpr (by simp [hready])] at hsleep
            exact absurd hsleeping (sleep_eq_none_iff.mp hsleep.symm)
    | @blocks w v _ _ _ hview hbegun =>
        rw [hview] at hready
        by_cases hi : i = c.kernel.currentTask
        · rw [hi, Function.update_self, hbegun.on.1] at hready
          cases hready
        · rw [Function.update_of_ne hi] at hready
          exact Or.inl hready
    | restates _ hpends => cases hswitch.symm.trans hpends
  · cases hswitch

theorem after_preemptive (hseg : ThreadSegment c a s)
    (htops : s.switch = false → (∀ r, s.pc ≠ .requestSwitch r) → s.kernel.Tops c.current) :
    (c.after s).Preemptive := by
  intro hthread _ hpc
  rw [Sched.after_current s hseg.frame] at hpc ⊢
  simp only [Cfg.threadRuns, Cfg.after, Bool.and_eq_true, Bool.not_eq_true',
    Bool.or_eq_false_iff] at hthread
  refine htops hthread.2.2 fun r hr => hpc r ?_
  rw [Sched.after_pc_current, hr]

/-- Where a segment returns to the running task without pending a switch, that
task has to be on top. -/
theorem after_preemptive_iff (hseg : ThreadSegment c a s)
    (hstarted : c.kernel.kernelStarted = true) (hp : c.pending = false)
    (hswitch : s.switch = false) (hpc : s.pc = .user)
    (hrun : (s.kernel.view c.current).state = .running) :
    (c.after s).Preemptive ↔ s.kernel.Tops c.current := by
  refine ⟨fun h => ?_, fun h => after_preemptive hseg fun _ _ => h⟩
  have hcurrent := Sched.after_current s hseg.frame
  rw [Cfg.Preemptive, hcurrent, Sched.after_pc_current, hpc] at h
  refine h ?_ hrun fun r hr => nomatch hr
  have hafter : s.kernel.kernelStarted = true := hseg.frame.2.2.2.2.2.1.trans hstarted
  simp [Cfg.threadRuns, Cfg.after, hafter, hp, hswitch]

/-- A segment that makes nobody `READY` and writes no priority. -/
theorem kept_preemptive (hseg : ThreadSegment c a s)
    (hready : s.switch = false → ∀ i, (s.kernel.view i).state = .ready →
      (c.kernel.view i).state = .ready)
    (hprio : PrioFrame c.kernel s.kernel) (htops : c.kernel.Tops c.current) :
    (c.after s).Preemptive := by
  refine after_preemptive hseg fun hswitch _ i hi hstate => ?_
  rw [hprio.1]
  rw [hseg.frame.1] at hi
  exact htops i hi (hready hswitch i hstate)

theorem quiet_preemptive (hs : Sched c) (hp : c.pending = false) (hseg : ThreadSegment c a s)
    (hwakes : ∀ v r, ¬a.wakes c v r) (hprio : PrioFrame c.kernel s.kernel)
    (htops : c.kernel.Tops c.current) : (c.after s).Preemptive := by
  refine kept_preemptive hseg (fun hswitch i hready => ?_) hprio htops
  rcases hseg.ready hs hp hswitch hready with hold | ⟨r, hr⟩
  · exact hold
  · exact absurd hr (hwakes _ r)

/-- A segment that pends a switch, or is about to. -/
theorem pended_preemptive (hseg : ThreadSegment c a s)
    (hpends : s.switch = true ∨ ∃ r, s.pc = .requestSwitch r) : (c.after s).Preemptive := by
  refine after_preemptive hseg fun hswitch hpc => ?_
  rcases hpends with h | ⟨r, h⟩
  · cases h.symm.trans hswitch
  · exact absurd h (hpc r)

/-- The critical section of a lock raises nobody over the running task. -/
theorem lock_preemptive (hs : Sched c) (hp : c.pending = false) {source : Nat → UInt8}
    {timeout : UInt32} {deadline : TaskWaitDeadline} {r : Bool}
    (hseg : ThreadSegment c (.proceed source) s)
    (hpc : c.pc c.current = .entered (.mutexLock m timeout deadline) r)
    (htops : c.kernel.Tops c.current) : (c.after s).Preemptive := by
  have hwakes : ∀ v r, ¬Action.wakes c (.proceed source) v r := by
    intro v r h
    rw [Action.wakes, hpc] at h
    exact h
  have hkernel : s.kernel = (jrtMutexLock c.kernel m timeout deadline false).2 := by
    obtain rfl := Except.ok.inj (hseg.of_entered hpc)
    exact ofFlow_kernel _ _
  have hexit := jrtMutexLock_exit c.kernel m timeout deadline
  generalize hflow : jrtMutexLock c.kernel m timeout deadline false = r at hexit hkernel
  -- The chain is raised to the priority of the running task.
  have hraises : s.kernel.prio = (taskInheritPriority c.kernel (c.kernel.mutexes m).owner
      (c.kernel.prio c.kernel.currentTask)).prio → (c.after s).Preemptive := by
    intro hprio
    have hraised : ∀ i < c.kernel.taskCount, c.kernel.prio i ≤ s.kernel.prio i
        ∧ s.kernel.prio i ≤ max (c.kernel.prio i) (c.kernel.prio c.current) := by
      intro i hi
      rw [hprio, hs.currentTask]
      obtain ⟨hreached, hmissed⟩ := taskInheritPriority_prio (k := c.kernel)
        (o := (c.kernel.mutexes m).owner) (p := c.kernel.prio c.current) hi
      by_cases hreach : ReflTransGen c.kernel.WaitsFor (c.kernel.mutexes m).owner i
      · rw [hreached hreach]
        exact ⟨le_max_left _ _, le_rfl⟩
      · rw [hmissed hreach]
        exact ⟨le_rfl, le_max_left _ _⟩
    refine after_preemptive hseg fun hswitch _ i hi hready => ?_
    rw [hseg.frame.1] at hi
    rcases hseg.ready hs hp hswitch hready with hold | ⟨r, hr⟩
    · calc s.kernel.prio i ≤ max (c.kernel.prio i) (c.kernel.prio c.current) := (hraised i hi).2
        _ ≤ c.kernel.prio c.current := max_le (htops i hi hold) le_rfl
        _ ≤ s.kernel.prio c.current := (hraised c.current hs.current_lt).1
    · exact absurd hr (hwakes _ r)
  cases hexit with
  | acquired | reentered =>
      refine quiet_preemptive hs hp hseg hwakes ?_ htops
      rw [hkernel]
      exact setMutex_prioFrame _ _ _
  | polled =>
      refine quiet_preemptive hs hp hseg hwakes ?_ htops
      rw [hkernel]
      exact .refl _
  | abandoned => exact hraises (by rw [hkernel])
  | blocked =>
      refine hraises ?_
      rw [hkernel]
      exact (taskWaitBeginUntil_prioFrame _ _ _ _ _).1

theorem woken_preemptive_iff {p : WaitPlace} (hstarted : c.kernel.kernelStarted = true)
    (hp : c.pending = false) (hseg : ThreadSegment c a s) (hrun : (c.kernel.view c.current).state = .running)
    (hswitch : s.switch = false) (hpc : s.pc = .user) (hview : s.kernel.view = c.kernel.wokenView p)
    (hprio : PrioFrame c.kernel s.kernel) (htops : c.kernel.Tops c.current) :
    (c.after s).Preemptive ↔ c.kernel.WaitersBelow p := by
  have hrun' : (s.kernel.view c.current).state = .running := by
    have hwakes := wakeSelected_wakes c.kernel p.object p.kind c.current
    have hkept := hwakes.eq_of_not_waiting (by simp [hrun]) (by simp [hrun])
    rw [hview, ← wakeSelected_view]
    exact (congrArg WaitView.state hkept).trans hrun
  rw [after_preemptive_iff hseg hstarted hp hswitch hpc hrun']
  exact tops_woken_iff hseg.frame.1 hview hprio htops

theorem retains_iff {l : List Nat} {p : Nat} (hrestored : Restored c.kernel l c'.kernel)
    (hcur : c.current ∈ l)
    (hwaits : ∀ u, c'.kernel.WaitsFor u c.current
      ↔ c.kernel.WaitsFor u c.current ∧ ¬c.kernel.WaitsAt (mutexPlace m) u)
    (hl : ∀ u, c'.kernel.WaitsFor u c.current → u ∉ l) :
    p ≤ c'.kernel.prio c.current ↔ c.kernel.Retains m p := by
  have hgreatest := hrestored.restored c.current hcur
  have hoffers : offers c'.kernel.WaitsFor c'.kernel.basePrio c'.kernel.prio c.current
      = offers (fun u t => c.kernel.WaitsFor u t ∧ ¬c.kernel.WaitsAt (mutexPlace m) u)
        c.kernel.basePrio c.kernel.prio c.current := by
    rw [hrestored.base]
    exact offers_congr hwaits fun u hu => hrestored.others u (hl u ((hwaits u).mpr hu))
  rw [LocalAt, hoffers] at hgreatest
  refine ⟨fun h => ⟨_, hgreatest.1, h⟩, ?_⟩
  rintro ⟨x, hx, hle⟩
  exact hle.trans (hgreatest.2 hx)

/-- Nobody waits for the mutex: the others keep their priorities. -/
theorem released_tops_iff (hrun : (c.kernel.view c.current).state = .running)
    (hcount : c'.kernel.taskCount = c.kernel.taskCount) (hview : c'.kernel.view = c.kernel.view)
    (hrestored : Restored c.kernel [c.current] c'.kernel)
    (hretains : ∀ p, p ≤ c'.kernel.prio c.current ↔ c.kernel.Retains m p)
    (hnobody : ∀ u < c.kernel.taskCount, ¬c.kernel.WaitsAt (mutexPlace m) u) :
    c'.kernel.Tops c.current ↔ c.kernel.UnlocksOnTop m := by
  have hothers : ∀ i, (c.kernel.view i).state = .ready → c'.kernel.prio i = c.kernel.prio i := by
    intro i hready
    refine hrestored.others i fun hmem => ?_
    rw [List.mem_singleton.mp hmem, hrun] at hready
    cases hready
  rw [Kernel.Tops, hcount, hview]
  constructor
  · intro h
    refine ⟨fun i hi hready => ?_, fun w hfirst => absurd hfirst.waits (hnobody w hfirst.lt)⟩
    rw [← hretains, ← hothers i hready]
    exact h i hi hready
  · intro h i hi hready
    rw [hothers i hready, hretains]
    exact h.ready i hi hready

/-- The waiter that gets the mutex inherits from those who still wait for
it. -/
theorem handed_tops_iff {w : Nat} (hrun : (c.kernel.view c.current).state = .running)
    (hcount : c'.kernel.taskCount = c.kernel.taskCount)
    (hview : c'.kernel.view = Function.update c.kernel.view w ((c.kernel.view w).ended 1))
    (hwaits : c'.kernel.WaitsFor = c.kernel.WaitsOnceHanded m w)
    (hrestored : Restored c.kernel [c.current, w] c'.kernel)
    (hretains : ∀ p, p ≤ c'.kernel.prio c.current ↔ c.kernel.Retains m p)
    (hfirst : c.kernel.FirstWaiter (mutexPlace m) w)
    (hl : ∀ u t, c'.kernel.WaitsFor u t → u ∉ [c.current, w]) :
    c'.kernel.Tops c.current ↔ c.kernel.UnlocksOnTop m := by
  have hstate : (c.kernel.view w).state ≠ .ready := by
    rw [hfirst.waits.1]
    decide
  have hothers : ∀ i, (c.kernel.view i).state = .ready → c'.kernel.prio i = c.kernel.prio i := by
    intro i hready
    refine hrestored.others i fun hmem => ?_
    rcases List.mem_pair.mp hmem with rfl | rfl
    · rw [hrun] at hready
      cases hready
    · exact hstate hready
  have hnext := hrestored.restored w (List.mem_pair.mpr (Or.inr rfl))
  have hoffers : offers c'.kernel.WaitsFor c'.kernel.basePrio c'.kernel.prio w
      = offers (c.kernel.WaitsOnceHanded m w) c.kernel.basePrio c.kernel.prio w := by
    rw [hrestored.base]
    refine offers_congr (fun u => by rw [hwaits]) fun u hu => hrestored.others u (hl u w ?_)
    rw [hwaits]
    exact hu
  rw [LocalAt, hoffers] at hnext
  rw [tops_ended_iff hcount hview hfirst.lt hstate]
  constructor
  · rintro ⟨hready, hhanded⟩
    refine ⟨fun i hi hstate => ?_, fun w' hfirst' p hp => ?_⟩
    · rw [← hretains, ← hothers i hstate]
      exact hready i hi hstate
    · obtain rfl := hfirst'.unique hfirst
      rw [← hretains]
      exact (hnext.2 hp).trans hhanded
  · intro h
    refine ⟨fun i hi hstate => ?_, ?_⟩
    · rw [hothers i hstate, hretains]
      exact h.ready i hi hstate
    · rw [hretains]
      exact h.handed w hfirst _ hnext.1

theorem unlock_returns (hstep : StepCases c (.call (.mutexUnlock m)) c' o)
    (hstarted : c.kernel.kernelStarted = true) (hp : c.pending = false)
    (hrun : (c'.kernel.view c.current).state = .running) :
    c'.Preemptive ↔ c'.kernel.Tops c.current := by
  cases hstep with
  | thread _ _ hseg =>
      have hreturns := after_preemptive_iff hseg hstarted hp
      cases hseg with
      | call _ _ he =>
          obtain rfl := Except.ok.inj he
          exact hreturns rfl rfl hrun

theorem unlock_preemptive_iff (hs : Sched c)
    (hstep : StepCases c (.call (.mutexUnlock m)) c' o) (hstarted : c.kernel.kernelStarted = true)
    (hp : c.pending = false) (htops : c.kernel.Tops c.current) :
    c'.Preemptive ↔ c.Orderly (.call (.mutexUnlock m)) := by
  have hpc := hstep.unlock.1
  have hcur : ∀ p, ¬c.kernel.WaitsAt p c.current := fun _ =>
    not_waitsAt_of_user hs hs.current_lt hpc
  have hsink := not_waitsFor_current hs hcur
  have hrun : (c.kernel.view c.current).state = .running := hs.current_running hp (by simp [hpc])
  have hreturns := unlock_returns hstep hstarted hp
  cases hstep.unlockStep hs with
  | kept hnot hview _ hprio =>
      rw [hreturns (by rw [hview]; exact hrun), tops_congr hstep.taskCount hview hprio]
      exact iff_of_true htops fun hfinal => absurd hfinal hnot
  | released hfinal hnone hview hwaits hrestored =>
      have hnobody := wakeSelect_eq_none_iff.mp hnone
      have hretains : ∀ p, p ≤ c'.kernel.prio c.current ↔ c.kernel.Retains m p := by
        intro p
        refine retains_iff hrestored List.mem_cons_self (fun u => ?_) fun u hu => ?_
        · rw [hwaits]
          exact (and_iff_left_of_imp fun h => hnobody u h.1).symm
        · rw [hwaits] at hu
          intro hmem
          rw [List.mem_singleton.mp hmem] at hu
          exact hsink _ hu
      rw [hreturns (by rw [hview]; exact hrun),
        released_tops_iff hrun hstep.taskCount hview hrestored hretains hnobody]
      exact ⟨fun h _ => h, fun h => h hfinal⟩
  | @handed w hfinal hselect hview hwaits hrestored =>
      have hfirst := selected_firstWaiter hselect
      have hcw : c.current ≠ w := fun heq => hcur (mutexPlace m) (heq.symm ▸ hfirst.waits)
      -- Nobody whose priority is restored waits behind the unlock.
      have hl : ∀ u t, c'.kernel.WaitsFor u t → u ∉ [c.current, w] := by
        intro u t hu hmem
        rw [hwaits] at hu
        rcases List.mem_pair.mp hmem with rfl | rfl
        · exact hu.elim (fun h => hsink t h.1) fun h => hsink _ h.2.2.1
        · exact hu.elim (fun h => h.2 hfirst.waits) fun h => h.2.1 rfl
      have hretains : ∀ p, p ≤ c'.kernel.prio c.current ↔ c.kernel.Retains m p := by
        intro p
        refine retains_iff hrestored List.mem_cons_self (fun u => ?_) fun u => hl u _
        rw [hwaits, Kernel.WaitsOnceHanded, or_iff_left fun h => hcw h.1]
      have hrun' : (c'.kernel.view c.current).state = .running := by
        rw [hview, Function.update_of_ne hcw]
        exact hrun
      rw [hreturns hrun',
        handed_tops_iff hrun hstep.taskCount hview hwaits hrestored hretains hfirst hl]
      exact ⟨fun h _ => h, fun h => h hfinal⟩

theorem ready_of_waitBegun {k : Kernel} {task i : Nat} {object : WaitObject} {kind : TaskWaitKind}
    {deadline : TaskWaitDeadline}
    (hready : ((taskWaitBeginUntil k task object kind deadline).view i).state = .ready) :
    (k.view i).state = .ready := by
  rw [taskWaitBeginUntil_view] at hready
  by_cases hi : i = task
  · rw [hi, Function.update_self] at hready
    cases hready
  · rwa [Function.update_of_ne hi] at hready

/-- The critical section of a queue operation: it wakes a waiter on the other
side if it is accepted, and otherwise nobody. -/
theorem queue_preemptive_iff {p : WaitPlace} {accepts : Bool}
    (hstarted : c.kernel.kernelStarted = true) (hp : c.pending = false)
    (hseg : ThreadSegment c a s) (hrun : (c.kernel.view c.current).state = .running)
    (hcases : (accepts = true ∧ s.switch = false ∧ s.pc = .user
        ∧ s.kernel.view = c.kernel.wokenView p)
      ∨ (accepts = false ∧ ∀ i, (s.kernel.view i).state = .ready →
        (c.kernel.view i).state = .ready))
    (hprio : PrioFrame c.kernel s.kernel) (htops : c.kernel.Tops c.current) :
    (c.after s).Preemptive ↔ (accepts = true → c.kernel.WaitersBelow p) := by
  rcases hcases with ⟨haccepts, hswitch, hpc, hview⟩ | ⟨hrefused, hready⟩
  · rw [woken_preemptive_iff hstarted hp hseg hrun hswitch hpc hview hprio htops]
    exact ⟨fun h _ => h, fun h => h haccepts⟩
  · refine iff_of_true (kept_preemptive hseg (fun _ => hready) hprio htops) fun haccepts => ?_
    cases hrefused.symm.trans haccepts

/-- Only the critical sections of the queue operations may wake a task on the
way of a blocking call. -/
theorem entered_preemptive_iff (hs : Sched c) (hstarted : c.kernel.kernelStarted = true)
    (hp : c.pending = false) {call : WaitCall} {r : Bool} {source : Nat → UInt8}
    (hseg : ThreadSegment c (.proceed source) s) (hpc : c.pc c.current = .entered call r)
    (htops : c.kernel.Tops c.current) : (c.after s).Preemptive ↔ c.Orderly (.proceed source) := by
  have hrun := hs.current_running hp fun w hw => by
    rw [hpc] at hw
    cases hw
  have hentered := hseg.of_entered hpc
  have hcalls : ∀ {w r'}, c.pc c.current = .entered w r' → w = call ∧ r' = r := fun h =>
    Pc.entered.inj (h.symm.trans hpc)
  have hquiet : (∀ v r, ¬call.wakes v r) → (∀ m timeout deadline, call ≠ .mutexLock m timeout deadline) →
      (c.after s).Preemptive := by
    intro hwakes hnolock
    refine quiet_preemptive hs hp hseg ?_ (proceedEntered_prioFrame hentered hnolock) htops
    rwa [Action.wakes, hpc]
  cases call with
  | queueSend q timeout deadline =>
      obtain rfl := Except.ok.inj hentered
      have hprio := proceedEntered_prioFrame hentered (by simp)
      have horderly : c.Orderly (.proceed source)
          ↔ (queueSendAccepts (c.kernel.queues q) r = true →
            c.kernel.WaitersBelow (receivePlace q)) := by
        refine ⟨fun h => h _ r hpc, fun h w r' hpc' => ?_⟩
        obtain ⟨rfl, rfl⟩ := hcalls hpc'
        exact h
      rw [horderly]
      refine queue_preemptive_iff hstarted hp hseg hrun ?_ hprio htops
      rcases jrtQueueSend_cases c.kernel q source timeout deadline r with
        ⟨haccepts, k', heq, hview, -⟩ | ⟨hrefused, heq | heq⟩
      · rw [heq]
        exact Or.inl ⟨haccepts, rfl, rfl, hview⟩
      · rw [heq]
        exact Or.inr ⟨hrefused, fun _ h => h⟩
      · rw [heq]
        exact Or.inr ⟨hrefused, fun _ h => ready_of_waitBegun h⟩
  | queueReceive q timeout deadline =>
      obtain rfl := Except.ok.inj hentered
      have hprio := proceedEntered_prioFrame hentered (by simp)
      have horderly : c.Orderly (.proceed source)
          ↔ (queueReceiveAccepts (c.kernel.queues q) r = true →
            c.kernel.WaitersBelow (sendPlace q)) := by
        refine ⟨fun h => h _ r hpc, fun h w r' hpc' => ?_⟩
        obtain ⟨rfl, rfl⟩ := hcalls hpc'
        exact h
      rw [horderly]
      refine queue_preemptive_iff hstarted hp hseg hrun ?_ hprio htops
      rcases jrtQueueReceive_cases c.kernel q timeout deadline r with
        ⟨haccepts, k', heq, hview, -⟩ | ⟨hrefused, heq | heq⟩
      · rw [heq]
        exact Or.inl ⟨haccepts, rfl, rfl, hview⟩
      · rw [heq]
        exact Or.inr ⟨hrefused, fun _ h => h⟩
      · rw [heq]
        exact Or.inr ⟨hrefused, fun _ h => ready_of_waitBegun h⟩
  | mutexLock m timeout deadline =>
      refine iff_of_true (lock_preemptive hs hp hseg hpc htops) fun w r' hpc' => ?_
      obtain ⟨rfl, -⟩ := hcalls hpc'
      trivial
  | _ =>
      refine iff_of_true (hquiet (fun _ _ h => h) (by simp)) fun w r' hpc' => ?_
      obtain ⟨rfl, -⟩ := hcalls hpc'
      trivial

theorem thread_preemptive_iff (hs : Sched c) (hstarted : c.kernel.kernelStarted = true)
    (hp : c.pending = false) (hseg : ThreadSegment c a s) (hpreemptive : c.Preemptive)
    (hstep : StepCases c a (c.after s) o) : (c.after s).Preemptive ↔ c.Orderly a := by
  have hthread : c.threadRuns = true := by simp [Cfg.threadRuns, hstarted, hp]
  have htops : (∀ w, c.pc c.current ≠ .yielding w) → (∀ r, c.pc c.current ≠ .requestSwitch r) →
      c.kernel.Tops c.current := fun hyield =>
    hpreemptive hthread (hs.current_running hp hyield)
  -- Outside of a critical section no condition is put on a call that is under way.
  have hfree : ∀ source, (∀ w r, c.pc c.current ≠ .entered w r) → c.Orderly (.proceed source) :=
    fun source hnot w r hpc => absurd hpc (hnot w r)
  have hsegment := hseg
  cases hseg with
  | @call made s hpc _ he =>
      have htops := htops (by simp [hpc]) (by simp [hpc])
      have hquiet : (∀ v r, ¬made.wakes v r) → (∀ m, made ≠ .mutexUnlock m) →
          (c.after s).Preemptive := fun hwakes hnounlock =>
        quiet_preemptive hs hp hsegment hwakes ((enter_cases he).prioFrame hnounlock) htops
      cases made with
      | semaphoreGive semaphore =>
          obtain rfl := Except.ok.inj he
          have hrun := hs.current_running hp (by simp [hpc])
          exact woken_preemptive_iff hstarted hp hsegment hrun rfl rfl
            (semaphoreGiveLocked_spec c.kernel semaphore).1
            (semaphoreGiveLocked_prioFrame _ _) htops
      | mutexUnlock m => exact unlock_preemptive_iff hs hstep hstarted hp htops
      | taskNotify task value =>
          refine iff_of_true ?_ trivial
          simp only [enter] at he
          split at he <;> obtain rfl := Except.ok.inj he
          · exact kept_preemptive hsegment (fun _ _ h => h) (.refl _) htops
          · exact pended_preemptive hsegment (Or.inr ⟨1, rfl⟩)
      | eventGroupSetBits g bits =>
          refine iff_of_true ?_ trivial
          simp only [enter] at he
          split at he <;> obtain rfl := Except.ok.inj he
          · exact kept_preemptive hsegment (fun _ _ h => h) (.refl _) htops
          · exact pended_preemptive hsegment (Or.inr ⟨_, rfl⟩)
      | timerSetCallback t callback argument =>
          refine iff_of_true ?_ trivial
          have hprio := (enter_cases he).prioFrame (by simp)
          simp only [enter, jrtTimerSetCallback] at he
          split_ifs at he
          · obtain rfl := Except.ok.inj he
            exact kept_preemptive hsegment (fun _ _ h => h) hprio htops
          · obtain rfl := Except.ok.inj he
            exact pended_preemptive hsegment (Or.inr ⟨0, rfl⟩)
          · obtain rfl := Except.ok.inj he
            exact kept_preemptive hsegment (fun _ _ h => h) hprio htops
      | _ => exact iff_of_true (hquiet (fun _ _ h => h) (by simp)) trivial
  | entered hpc he =>
      exact entered_preemptive_iff hs hstarted hp hsegment hpc
        (htops (by simp [hpc]) (by simp [hpc]))
  | yielding hpc =>
      exact iff_of_true (pended_preemptive hsegment (Or.inl rfl)) (hfree _ (by simp [hpc]))
  | @resumed w source hpc =>
      refine iff_of_true (kept_preemptive hsegment (fun _ i hready => ?_)
        (proceedResumed_prioFrame _ _) (htops (by simp [hpc]) (by simp [hpc])))
        (hfree _ (by simp [hpc]))
      rwa [(proceedResumed_view c.kernel w).1] at hready
  | requestSwitch hpc =>
      exact iff_of_true (pended_preemptive hsegment (Or.inl rfl))
        (hfree _ (by simp [hpc]))
  | inTime hpc =>
      exact iff_of_true (kept_preemptive hsegment (fun _ _ h => h) (.refl _)
        (htops (by simp [hpc]) (by simp [hpc]))) (hfree _ (by simp [hpc]))
  | delayed hpc =>
      exact iff_of_true (pended_preemptive hsegment (Or.inl rfl))
        (hfree _ (by simp [hpc]))

/-- Before the start the first task stands in its own code, and nothing is
pending. -/
def Cfg.Fresh (c : Cfg) : Prop :=
  c.kernel.kernelStarted = false → c.pending = false ∧ c.pc c.current = .user

theorem StepCases.fresh (hstep : StepCases c a c' o) (h : c.Fresh) : c'.Fresh := by
  intro hstopped
  cases hstep with
  | start _ hk =>
      obtain rfl := jrtKernelStart_spec hk
      cases hstopped
  | thread hstarted _ hseg =>
      have hafter := hseg.frame.2.2.2.2.2.1.trans hstarted
      cases hstopped.symm.trans hafter
  | tick hstarted hk =>
      have hafter := (tickTasks_frame hk).2.2.2.2.2.1.trans hstarted
      cases hstopped.symm.trans hafter
  | @isr call hstarted =>
      have hafter := (isrCall_frame c.kernel call).2.2.2.2.2.1.trans hstarted
      cases hstopped.symm.trans hafter
  | pendsv hstarted _ hk =>
      obtain ⟨-, -, ⟨-, -, -, hsame, -⟩, -⟩ := pendsvSwitch_cases hk
      have hafter := hsame.trans hstarted
      cases hstopped.symm.trans hafter
  | store => exact h hstopped
  | cycles => exact h hstopped

/-- Behind a step of a system without stronger ready tasks there are none
exactly if the step is orderly. -/
theorem StepCases.preemptive_iff (hs : Sched c) (hstep : StepCases c a c' o)
    (hfresh : c.Fresh) (hpreemptive : c.Preemptive) : c'.Preemptive ↔ c.Orderly a := by
  have hstepped := hstep
  cases hstep with
  | start hstopped hk =>
      obtain ⟨hp, hpc⟩ := hfresh hstopped
      obtain rfl := jrtKernelStart_spec hk
      refine ⟨fun h => h ?_ (hs.current_running hp (by simp [hpc])) fun r hr => ?_,
        fun h _ _ _ => h⟩
      · simp [Cfg.threadRuns, hp]
      · cases hpc.symm.trans hr
  | thread hstarted hp hseg =>
      exact thread_preemptive_iff hs hstarted hp hseg hpreemptive hstepped
  | tick =>
      refine iff_of_true (fun hthread => ?_) trivial
      simp [Cfg.threadRuns] at hthread
  | @isr call hstarted =>
      refine iff_of_true (fun hthread hrun hpc => ?_) trivial
      simp only [Cfg.threadRuns, Bool.and_eq_true, Bool.not_eq_true', Bool.or_eq_false_iff]
        at hthread
      obtain ⟨-, hp, hswitch⟩ := hthread
      have hview := isrCall_view_eq hswitch
      obtain ⟨hn, -, hcur, -⟩ := isrCall_frame c.kernel call
      have hcurrent : Cfg.current { c with
          kernel := (isrCall c.kernel call).1
          pending := c.pending || (isrCall c.kernel call).2.2 } = c.current := hcur
      rw [hcurrent] at hrun hpc ⊢
      rw [tops_congr hn hview (isrCall_prioFrame _ _)]
      refine hpreemptive (by simp [Cfg.threadRuns, hstarted, hp]) ?_ hpc
      rwa [← hview]
  | pendsv _ _ hk => exact iff_of_true (fun _ _ _ => switched_tops hs hk) trivial
  | store => exact iff_of_true (fun hthread hrun hpc => hpreemptive hthread hrun hpc) trivial
  | cycles => exact iff_of_true (fun hthread hrun hpc => hpreemptive hthread hrun hpc) trivial

end Step

/-! ## Runs -/

section Run

variable {img : Image} {c₀ c : Cfg} {tr : List Transition}

theorem Boot.fresh (h : Boot img c) : c.Fresh := by
  obtain ⟨k₀, config, k, hinit, rfl⟩ := h
  have hb := jrtKernelInit_booted hinit
  intro _
  refine ⟨rfl, ?_⟩
  have happ := hb.app_pos
  have hn := hb.taskCount_eq
  have hservice := hb.service
  show initialPc k k.gCurrentTaskIndex = .user
  rw [hb.current, initialPc, if_neg (by omega), if_neg (by omega)]

theorem Boot.preemptive (h : Boot img c) : c.Preemptive := by
  obtain ⟨k₀, config, k, hinit, rfl⟩ := h
  intro hthread
  simp [Cfg.threadRuns, bootCfg, (jrtKernelInit_booted hinit).started] at hthread

theorem Run.preemptive_iff (hboot : Boot img c₀) (hrun : Run c₀ tr c) :
    ((∀ x ∈ tr, x.pre.Orderly x.action) ↔ ∀ x ∈ tr, x.post.Preemptive)
      ∧ ((∀ x ∈ tr, x.post.Preemptive) → c.Preemptive) := by
  have hs : Sched c₀ := Reachable.sched ⟨c₀, [], hboot, .nil⟩
  exact hrun.kept_iff (fun c => Sched c ∧ c.Fresh) Cfg.Preemptive Cfg.Orderly
    (fun h hstep => ⟨h.1.step hstep, hstep.fresh h.2⟩)
    (fun h hstep hpreemptive => hstep.preemptive_iff h.1 h.2 hpreemptive) ⟨hs, hboot.fresh⟩
    hboot.preemptive

end Run

/-- Over every run no stronger task is ever `READY` without a switch pending
exactly if every step is orderly: the first task is started on top, what a
give or a queue operation wakes is no stronger than the caller, and neither is
anybody once an unlock has taken from the caller what it inherited. -/
theorem preemption_iff (img : Image) (c₀ c : Cfg) (tr : List Transition) (hboot : Boot img c₀)
    (hrun : Run c₀ tr c) :
    ((∀ x ∈ tr, x.pre.Orderly x.action) ↔ ∀ x ∈ tr, x.post.Preemptive)
      ∧ ((∀ x ∈ tr, x.pre.Orderly x.action) → c.Preemptive) := by
  obtain ⟨hiff, hlast⟩ := hrun.preemptive_iff hboot
  exact ⟨hiff, fun horderly => hlast (hiff.mp horderly)⟩

/-- The stronger of two tasks delays, and is back when the weaker one waits for
a semaphore, which it gives. -/
def giveDownActions : List Action :=
  [.start, .call (.taskDelay 1), .pendsv (sampleSp 0), .call (.semaphoreTake 8 100),
    .proceed fun _ => 0, .proceed fun _ => 0, .tick, .pendsv (sampleSp 1),
    .call (.semaphoreGive 8)]

theorem preemption_iff_sample : ∃ tr c, sampleRun [2, 1] giveDownActions = some (tr, c)
    ∧ c.current = 0 ∧ (c.kernel.view 1).state = .ready
    ∧ (∀ x ∈ tr, x.pre.Orderly x.action) ∧ c.Preemptive := by
  have hsome : ((sampleRun [2, 1] giveDownActions).any fun r =>
      decide (r.2.current = 0 ∧ (r.2.kernel.view 1).state = .ready)
        && r.1.all fun x => !x.post.threadRuns || decide (x.post.kernel.Tops x.post.current))
      = true := by
    decide +kernel
  obtain ⟨⟨tr, c⟩, hsample, hchecks⟩ := (Option.any_eq_true _ _).mp hsome
  simp only [Bool.and_eq_true, decide_eq_true_eq, List.all_eq_true, Bool.or_eq_true,
    Bool.not_eq_true'] at hchecks
  obtain ⟨⟨hcurrent, hready⟩, htops⟩ := hchecks
  obtain ⟨c₀, hboot, hrun⟩ := sampleRun_run hsample
  obtain ⟨hiff, hlast⟩ := preemption_iff .sample c₀ c tr (sampleBoot_boot hboot) hrun
  have horderly := hiff.mpr fun x hx hthread _ _ => (htops x hx).resolve_left (by simp [hthread])
  exact ⟨tr, c, hsample, hcurrent, hready, horderly, hlast horderly⟩

/-- A give wakes a stronger task and returns to the weaker one. -/
theorem give_leaves_stronger_ready : ∃ tr c, sampleRun [2, 1] giveActions = some (tr, c)
    ∧ Reachable .sample c ∧ c.threadRuns = true ∧ c.pc c.current = .user
    ∧ (c.kernel.view c.current).state = .running ∧ (c.kernel.view 0).state = .ready
    ∧ c.kernel.prio c.current < c.kernel.prio 0 ∧ ¬c.Preemptive := by
  have hsome : ((sampleRun [2, 1] giveActions).any fun r =>
      decide (r.2.threadRuns = true ∧ r.2.pc r.2.current = .user
        ∧ (r.2.kernel.view r.2.current).state = .running ∧ (r.2.kernel.view 0).state = .ready
        ∧ r.2.kernel.prio r.2.current < r.2.kernel.prio 0 ∧ 0 < r.2.kernel.taskCount)) = true := by
    decide +kernel
  obtain ⟨⟨tr, c⟩, hsample, hchecks⟩ := (Option.any_eq_true _ _).mp hsome
  obtain ⟨hthread, hpc, hrun, hready, hlt, hcount⟩ := of_decide_eq_true hchecks
  refine ⟨tr, c, hsample, sampleRun_reachable hsample, hthread, hpc, hrun, hready, hlt, fun h => ?_⟩
  have hle := h hthread hrun (fun r hr => nomatch hpc.symm.trans hr) 0 hcount hready
  exact absurd hlt (Nat.not_lt_of_le hle)

end JustRT
