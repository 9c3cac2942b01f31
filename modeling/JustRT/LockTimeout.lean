import JustRT.Restoration

/-!
# A lock call that gives up

`JRT_MutexLock` boosts the chain of the mutex's owner before
`task_block_until_locked` tests the deadline. A call that never blocks and
returns 0 leaves the priorities alone exactly if it does not get as far as
the boost, or the boost raises nobody.
-/

namespace JustRT

open Relation

/-- The tasks the owner of the mutex waits for, and the owner, are no weaker
than the running task. -/
def Kernel.ChainAbove (k : Kernel) (m : Ptr) : Prop :=
  ∀ i < k.taskCount, ReflTransGen k.WaitsFor (k.mutexes m).owner i →
    k.prio k.gCurrentTaskIndex ≤ k.prio i

section LockTimeout

variable {c c' c₁ c₂ : Cfg} {a : Action} {o : Observation} {m : Ptr} {t : Nat} {timeout : UInt32}
  {deadline : TaskWaitDeadline} {r : Bool}

/-- A call that neither returns nor blocks stays ahead of its critical
section. -/
theorem StepCases.lock_ahead (hs : Sched c) (hstep : StepCases c a c' o)
    (hpc : c.pc t = .entered (.mutexLock m timeout deadline) r)
    (hnone : Transition.lockResult m t ⟨c, a, o, c'⟩ = none)
    (hnever : (c'.kernel.tasks t).state ≠ .blocked) :
    c'.pc t = .entered (.mutexLock m timeout deadline) r := by
  have hcases := hstep
  cases hstep with
  | @thread a s _ _ hseg =>
      by_cases ht : t = c.current
      · subst ht
        have hproceed : ∃ source, a = .proceed source := by
          cases hseg with
          | call hc =>
              rw [hpc] at hc
              cases hc
          | _ => exact ⟨_, rfl⟩
        obtain ⟨source, rfl⟩ := hproceed
        obtain ⟨hresult, hkernel⟩ := hcases.lock hpc
        rw [lockResult_eq (by rw [hpc]; rfl) rfl source, hresult] at hnone
        have hexit := jrtMutexLock_exit c.kernel m timeout deadline
        generalize jrtMutexLock c.kernel m timeout deadline false = result at hexit hkernel hnone
        cases hexit with
        | acquired | reentered | polled | abandoned => cases hnone
        | blocked =>
            refine absurd ?_ hnever
            rw [hkernel, ← hs.currentTask]
            simp only [taskWaitBeginUntil, Kernel.setTask_tasks_self]
            rfl
      · rw [Sched.after_pc_of_ne s ht]
        exact hpc
  | start | tick | isr | pendsv | store | cycles => exact hpc

theorem Run.lock_ahead {tr : List Transition} (hs : Sched c₁) (hrun : Run c₁ tr c₂)
    (hpc : c₁.pc t = .entered (.mutexLock m timeout deadline) r)
    (hnone : ∀ x ∈ tr, x.lockResult m t = none)
    (hnever : ∀ x ∈ tr, (x.post.kernel.tasks t).state ≠ .blocked) :
    c₂.pc t = .entered (.mutexLock m timeout deadline) r := by
  induction hrun with
  | nil => exact hpc
  | @snoc tr c c' a o hrun hstep ih =>
      have hahead := ih (fun x hx => hnone x (List.mem_append_left _ hx))
        fun x hx => hnever x (List.mem_append_left _ hx)
      have hs' : Sched c := hrun.induction Sched (fun hs hst => hs.step hst) hs
      have hlast : (⟨c, a, o, c'⟩ : Transition) ∈ tr ++ [⟨c, a, o, c'⟩] :=
        List.mem_append_right _ List.mem_cons_self
      exact (step_cases hstep).lock_ahead hs' hahead (hnone _ hlast) (hnever _ hlast)

/-- The critical section of a lock that returns 0. -/
theorem StepCases.lock_zero (hs : Sched c) {source : Nat → UInt8}
    (hstep : StepCases c (.proceed source) c' o)
    (hpc : c.pc c.current = .entered (.mutexLock m timeout deadline) r)
    (hzero : o.result = some 0) :
    (∀ i < c.kernel.taskCount, c'.kernel.prio i = c.kernel.prio i)
      ↔ timeout = 0 ∨ c.kernel.ChainAbove m := by
  obtain ⟨hresult, hkernel⟩ := hstep.lock hpc
  rw [hresult] at hzero
  have hexit := jrtMutexLock_exit c.kernel m timeout deadline
  generalize jrtMutexLock c.kernel m timeout deadline false = result at hexit hkernel hzero
  cases hexit with
  | acquired | reentered => exact absurd (Option.some.inj hzero) (by decide)
  | polled _ _ htimeout =>
      rw [hkernel]
      exact iff_of_true (fun _ _ => rfl) (Or.inl htimeout)
  | abandoned _ _ htimeout _ =>
      have hcurrent : c.kernel.prio c.kernel.currentTask
          = c.kernel.prio c.kernel.gCurrentTaskIndex := by
        rw [hs.currentTask]
        rfl
      rw [hkernel, hcurrent, or_iff_right htimeout]
      refine forall_congr' fun i => forall_congr' fun hi => ?_
      obtain ⟨hreached, hmissed⟩ := taskInheritPriority_prio (o := (c.kernel.mutexes m).owner)
        (p := c.kernel.prio c.kernel.gCurrentTaskIndex) hi
      by_cases hreach : ReflTransGen c.kernel.WaitsFor (c.kernel.mutexes m).owner i
      · rw [hreached hreach, max_eq_left_iff]
        exact ⟨fun h _ => h, fun h => h hreach⟩
      · exact iff_of_true (hmissed hreach) fun h => absurd h hreach
  | blocked => cases hzero

/-- The entry of a lock call computes the deadline and nothing else. -/
theorem lock_entry (hstep : StepCases c (.call (.mutexLock m timeout)) c' o) :
    c'.kernel = c.kernel ∧ c'.pc c.current
      = .entered (.mutexLock m timeout (taskWaitDeadline c.kernel timeout)) false := by
  cases hstep with
  | thread _ _ hseg =>
      cases hseg with
      | call _ _ he =>
          obtain rfl := Except.ok.inj he
          exact ⟨rfl, Sched.after_pc_current _⟩

end LockTimeout

/-- A lock call that returns 0 and whose caller was never blocked, however many
ticks land between its entry and its critical section: its entry leaves every
priority alone, and its critical section does so exactly if the call only
polls, or no task on the owner's chain is weaker than the caller. Where
nothing else moves a priority meanwhile, these are the priorities at the
call. -/
theorem lock_abandoned_iff (img : Image) (c c₁ c₂ c₃ : Cfg) (m : Ptr) (timeout : UInt32)
    (window : List Transition) (a : Action) (o₁ o : Observation) (hreachable : Reachable img c)
    (hcall : step c (.call (.mutexLock m timeout)) = some (c₁, o₁)) (hwindow : Run c₁ window c₂)
    (hnone : ∀ x ∈ window, x.lockResult m c.current = none)
    (hnever : ∀ x ∈ window, (x.post.kernel.tasks c.current).state ≠ .blocked)
    (hlast : step c₂ a = some (c₃, o))
    (hzero : Transition.lockResult m c.current ⟨c₂, a, o, c₃⟩ = some 0) :
    (∀ i < c.kernel.taskCount, c₁.kernel.prio i = c.kernel.prio i)
      ∧ ((∀ i < c.kernel.taskCount, c₃.kernel.prio i = c₂.kernel.prio i)
        ↔ timeout = 0 ∨ c₂.kernel.ChainAbove m)
      ∧ ((∀ i < c.kernel.taskCount, c₂.kernel.prio i = c₁.kernel.prio i) →
        ((∀ i < c.kernel.taskCount, c₃.kernel.prio i = c.kernel.prio i)
          ↔ timeout = 0 ∨ c₂.kernel.ChainAbove m)) := by
  obtain ⟨hkernel, hentered⟩ := lock_entry (step_cases hcall)
  have hs₁ : Sched c₁ := (hreachable.step hcall).sched
  have hs₂ : Sched c₂ := ((hreachable.step hcall).run hwindow).sched
  have hahead := hwindow.lock_ahead hs₁ hentered hnone hnever
  obtain ⟨hcurrent, source, rfl⟩ := lockResult_proceed hzero
  rw [hcurrent] at hahead hzero
  have hresult : o.result = some 0 := by
    rw [← hzero]
    exact (lockResult_eq (by rw [hahead]; rfl) rfl source).symm
  have hcount : c₂.kernel.taskCount = c.kernel.taskCount := by
    rw [hwindow.taskCount, hkernel]
  have hsection := (step_cases hlast).lock_zero hs₂ hahead hresult
  rw [hcount] at hsection
  have hentry : ∀ i < c.kernel.taskCount, c₁.kernel.prio i = c.kernel.prio i := fun i _ => by
    rw [hkernel]
  refine ⟨hentry, hsection, fun hquiet => ?_⟩
  rw [← hsection]
  refine forall_congr' fun i => forall_congr' fun hi => ?_
  rw [hquiet i hi, hentry i hi]

/-- A task of priority 1 is about to call for a mutex that one of priority 2,
which sleeps, has locked. -/
def lockBelowActions : List Action :=
  [.start, .call .taskYield, .pendsv (sampleSp 0), .call (.mutexCreateRecursiveStatic 16),
    .call (.mutexLock 16 0), .proceed fun _ => 0, .call (.taskDelay 5), .pendsv (sampleSp 1)]

/-- The deadline of the call is over before its critical section. -/
def lateWindow : List Action := [.tick, .pendsv (sampleSp 0)]

/-- The window of a sample call as the checks of the closed statements see it. -/
def lateWindowTest (t : Nat) (window : List Transition) : Bool :=
  window.all fun x => x.lockResult 16 t == none
    && decide ((x.post.kernel.tasks t).state ≠ .blocked)

theorem lock_abandoned_iff_sample : ∃ c c₁ c₂ c₃ window o₁ o, Reachable .sample c
    ∧ step c (.call (.mutexLock 16 1)) = some (c₁, o₁) ∧ runActions c₁ lateWindow = some (window, c₂)
    ∧ step c₂ (.proceed fun _ => 0) = some (c₃, o) ∧ o.result = some 0
    ∧ ∀ i < c.kernel.taskCount, c₃.kernel.prio i = c₂.kernel.prio i := by
  have hsome : ((sampleRun [1, 2] lockBelowActions).any fun r =>
      (step r.2 (.call (.mutexLock 16 1))).any fun r₁ =>
        (runActions r₁.1 lateWindow).any fun w =>
          (step w.2 (.proceed fun _ => 0)).any fun r₃ =>
            decide (r.2.current = 0) && lateWindowTest 0 w.1
              && (decide (r₃.2.result = some 0)
                && Transition.lockResult 16 0 ⟨w.2, .proceed fun _ => 0, r₃.2, r₃.1⟩ == some 0)
              && (decide (w.2.kernel.taskCount = 4 ∧ (w.2.kernel.mutexes 16).owner = 1
                  ∧ w.2.kernel.prio w.2.kernel.gCurrentTaskIndex ≤ w.2.kernel.prio 1)
                && (List.range 4).all fun t => decide ¬w.2.kernel.WaitsFor 1 t)) = true := by
    decide +kernel
  obtain ⟨⟨tr, c⟩, hsample, hcalled⟩ := (Option.any_eq_true _ _).mp hsome
  obtain ⟨⟨c₁, o₁⟩, hcall, hran⟩ := (Option.any_eq_true _ _).mp hcalled
  obtain ⟨⟨window, c₂⟩, hwindow, hended⟩ := (Option.any_eq_true _ _).mp hran
  obtain ⟨⟨c₃, o⟩, hlast, hchecks⟩ := (Option.any_eq_true _ _).mp hended
  simp only [Bool.and_eq_true, decide_eq_true_eq, beq_iff_eq, lateWindowTest, List.all_eq_true,
    List.mem_range] at hchecks
  obtain ⟨⟨⟨hcurrent, htest⟩, hresult, hzero⟩, ⟨hcount, howner, hle⟩, hedges⟩ := hchecks
  have hreachable := sampleRun_reachable hsample
  rw [← hcurrent] at htest hzero
  have habove : c₂.kernel.ChainAbove 16 := by
    intro i _ hreach
    rw [howner] at hreach
    rcases hreach.cases_head with rfl | ⟨t, hedge, -⟩
    · exact hle
    · exact absurd hedge (hedges t (hcount ▸ hedge.2.1))
  have hkept := (lock_abandoned_iff .sample c c₁ c₂ c₃ 16 1 window _ o₁ o hreachable hcall
    (runActions_run hwindow) (fun x hx => (htest x hx).1) (fun x hx => (htest x hx).2) hlast
    hzero).2.1.mpr (Or.inr habove)
  exact ⟨c, c₁, c₂, c₃, window, o₁, o, hreachable, hcall, hwindow, hlast, hresult, hkept⟩

/-- A task of priority 2 is about to call for a mutex of one of priority 1. -/
def lockAboveActions : List Action :=
  [.start, .call (.taskDelay 1), .pendsv (sampleSp 0), .call (.mutexCreateRecursiveStatic 16),
    .call (.mutexLock 16 0), .proceed fun _ => 0, .tick, .pendsv (sampleSp 1)]

/-- A lock with a timeout of one tick, of which one lands between its entry and
its critical section: it returns 0, its caller was never blocked, and the
owner keeps the caller's priority. -/
theorem lock_boost_stays : ∃ c c₁ c₂ c₃ window o₁ o, Reachable .sample c ∧ c.current = 0
    ∧ step c (.call (.mutexLock 16 1)) = some (c₁, o₁) ∧ runActions c₁ lateWindow = some (window, c₂)
    ∧ (∀ x ∈ window, x.lockResult 16 0 = none ∧ (x.post.kernel.tasks 0).state ≠ .blocked)
    ∧ step c₂ (.proceed fun _ => 0) = some (c₃, o)
    ∧ Transition.lockResult 16 0 ⟨c₂, .proceed fun _ => 0, o, c₃⟩ = some 0
    ∧ c.kernel.prio 1 = 1 ∧ c₂.kernel.prio 1 = 1 ∧ c₃.kernel.prio 1 = 2 := by
  have hsome : ((sampleRun [2, 1] lockAboveActions).any fun r =>
      (step r.2 (.call (.mutexLock 16 1))).any fun r₁ =>
        (runActions r₁.1 lateWindow).any fun w =>
          (step w.2 (.proceed fun _ => 0)).any fun r₃ =>
            decide (r.2.current = 0) && lateWindowTest 0 w.1
              && Transition.lockResult 16 0 ⟨w.2, .proceed fun _ => 0, r₃.2, r₃.1⟩ == some 0
              && decide (r.2.kernel.prio 1 = 1 ∧ w.2.kernel.prio 1 = 1
                ∧ r₃.1.kernel.prio 1 = 2)) = true := by
    decide +kernel
  obtain ⟨⟨tr, c⟩, hsample, hcalled⟩ := (Option.any_eq_true _ _).mp hsome
  obtain ⟨⟨c₁, o₁⟩, hcall, hran⟩ := (Option.any_eq_true _ _).mp hcalled
  obtain ⟨⟨window, c₂⟩, hwindow, hended⟩ := (Option.any_eq_true _ _).mp hran
  obtain ⟨⟨c₃, o⟩, hlast, hchecks⟩ := (Option.any_eq_true _ _).mp hended
  simp only [Bool.and_eq_true, decide_eq_true_eq, beq_iff_eq, lateWindowTest, List.all_eq_true]
    at hchecks
  obtain ⟨⟨⟨hcurrent, htest⟩, hzero⟩, hprio⟩ := hchecks
  exact ⟨c, c₁, c₂, c₃, window, o₁, o, sampleRun_reachable hsample, hcurrent, hcall, hwindow, htest,
    hlast, hzero, hprio⟩

end JustRT
