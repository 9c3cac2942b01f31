import JustRT.Booted

/-!
# Round robin under preemption

The scan for the next task starts behind the one that ran last. While `t`
stays `READY` it passes by `u` once; it comes by `u` a second time only if
a task of higher priority ran in between whose place is behind `t` and
ahead of `u`. So the selections of `u` are counted by the switches that
find such a task.
-/

namespace JustRT

/-- A context switch may select task `i`: it is `READY`, or the `RUNNING`
task that is switched out. -/
def Kernel.candidate (k : Kernel) (i : Nat) : Bool :=
  (k.tasks i).state == .ready || (i == k.currentTask && (k.tasks i).state == .running)

/-- A candidate of the highest priority, which is higher than that of `t`,
has its place strictly between `t` and `u`, and the outgoing task has not: a
task that stays selected there, or hands over to another one there, has moved
the place the scan starts from when it cut in. -/
def Kernel.cutsIn (k : Kernel) (t u : Nat) : Bool :=
  decide (Cyclic.ahead k.taskCount t u ≤ Cyclic.ahead k.taskCount t k.gCurrentTaskIndex)
    && (List.range k.taskCount).any fun h =>
      k.candidate h && decide (k.prio t < k.prio h)
        && decide (Cyclic.ahead k.taskCount t h < Cyclic.ahead k.taskCount t u)
        && (List.range k.taskCount).all fun j => !k.candidate j || decide (k.prio j ≤ k.prio h)

def Transition.selects (u : Nat) (x : Transition) : Bool :=
  match x.action with
  | .pendsv _ => x.post.current == u
  | _ => false

/-- The step is a context switch that moves the place the scan starts from to
between `t` and `u`. -/
def Transition.cutsIn (t u : Nat) (x : Transition) : Bool :=
  match x.action with
  | .pendsv _ => x.pre.kernel.cutsIn t u
  | _ => false

/-- Around the step `t` is `READY`, with the effective priority of `u`. -/
def Transition.keepsReady (t u : Nat) (x : Transition) : Bool :=
  (x.pre.kernel.tasks t).state == .ready && (x.post.kernel.tasks t).state == .ready
    && x.pre.kernel.prio t == x.pre.kernel.prio u

/-- The task that ran last has its place from `u` on, ahead of `t`. -/
def Cfg.Passed (c : Cfg) (t u : Nat) : Prop :=
  c.current ≠ t
    ∧ Cyclic.ahead c.kernel.taskCount t u ≤ Cyclic.ahead c.kernel.taskCount t c.current

instance (c : Cfg) (t u : Nat) : Decidable (c.Passed t u) :=
  inferInstanceAs (Decidable (_ ∧ _))

section Switch

variable {k k₁ k' : Kernel} {currentSp sp : Ptr} {t u : Nat}

theorem keepsReady_iff {x : Transition} : x.keepsReady t u = true
    ↔ (x.pre.kernel.tasks t).state = .ready ∧ (x.post.kernel.tasks t).state = .ready
      ∧ x.pre.kernel.prio t = x.pre.kernel.prio u := by
  simp [Transition.keepsReady, and_assoc]

theorem candidate_of_ready (h : (k.tasks t).state = .ready) : k.candidate t = true := by
  simp [Kernel.candidate, h]

theorem cutsIn_iff : k.cutsIn t u = true
    ↔ Cyclic.ahead k.taskCount t u ≤ Cyclic.ahead k.taskCount t k.gCurrentTaskIndex
      ∧ ∃ h < k.taskCount, k.candidate h = true ∧ k.prio t < k.prio h
        ∧ Cyclic.ahead k.taskCount t h < Cyclic.ahead k.taskCount t u
        ∧ ∀ j < k.taskCount, k.candidate j = true → k.prio j ≤ k.prio h := by
  simp only [Kernel.cutsIn, List.any_eq_true, List.mem_range, Bool.and_eq_true,
    decide_eq_true_eq, List.all_eq_true, Bool.or_eq_true, Bool.not_eq_true', and_assoc]
  refine and_congr_right fun _ => exists_congr fun h => and_congr_right fun _ => and_congr_right fun _ =>
    and_congr_right fun _ => and_congr_right fun _ => forall_congr' fun j =>
      imp_congr_right fun _ => ?_
  cases k.candidate j <;> simp

/-- Behind the save the candidates are the `READY` tasks. -/
theorem ready_saved_iff (hsave : pendsvSave k currentSp = .ok k₁) (i : Nat) :
    k₁.Ready i ↔ i < k.taskCount ∧ k.candidate i = true := by
  obtain ⟨hframe, hview, -⟩ := pendsvSave_spec hsave
  rw [Kernel.Ready, hframe.1, hview]
  refine and_congr_right fun _ => ?_
  by_cases hi : i = k.currentTask
  · subst hi
    rw [Function.update_self, WaitView.withState_state, demoted_eq_ready_iff]
    simp [Kernel.candidate, view_state]
  · rw [Function.update_of_ne hi, view_state]
    simp [Kernel.candidate, hi]

/-- A switch with a candidate in the table selects a candidate of the
highest priority, the first of these behind the task that ran last. -/
theorem switch_spec (hswitch : pendsvSwitch k currentSp = .ok (sp, k'))
    (hb : k.gCurrentTaskIndex < k.taskCount) (ht : t < k.taskCount)
    (hc : k.candidate t = true) :
    k'.gCurrentTaskIndex < k.taskCount ∧ k.candidate k'.gCurrentTaskIndex = true
      ∧ (k'.tasks k'.gCurrentTaskIndex).state = .running
      ∧ (∀ j < k.taskCount, k.candidate j = true → k.prio j ≤ k.prio k'.gCurrentTaskIndex)
      ∧ ∀ j < k.taskCount, k.candidate j = true → k.prio j = k.prio k'.gCurrentTaskIndex →
          Cyclic.ahead k.taskCount k.gCurrentTaskIndex k'.gCurrentTaskIndex
            ≤ Cyclic.ahead k.taskCount k.gCurrentTaskIndex j := by
  obtain ⟨k₁, hsave, -, -, hcur, -, hview⟩ := pendsvSwitch_cases hswitch
  obtain ⟨hframe, -, hprio⟩ := pendsvSave_spec hsave
  have hn : k₁.taskCount = k.taskCount := hframe.1
  have hexists : k₁.Ready t := (ready_saved_iff hsave t).mpr ⟨ht, hc⟩
  obtain ⟨hsel, hbest, hfirst⟩ := pendsvNextIndex_spec (hn ▸ hb) hexists
  rw [← hcur] at hsel hbest hfirst hview
  rw [hprio.1] at hbest hfirst
  rw [hn] at hfirst
  obtain ⟨hlt, hcandidate⟩ := (ready_saved_iff hsave _).mp hsel
  refine ⟨hlt, hcandidate, ?_, fun j hj hc => ?_, fun j hj hc => ?_⟩
  · rw [← view_state, hview, Function.update_self]
    rfl
  · exact hbest j ((ready_saved_iff hsave j).mpr ⟨hj, hc⟩)
  · exact hfirst j ((ready_saved_iff hsave j).mpr ⟨hj, hc⟩)

end Switch

section Run

variable {c c' : Cfg} {a : Action} {o : Observation} {t u : Nat} {tr : List Transition}

/-- Only a context switch changes the current task. -/
theorem StepCases.current_eq (h : StepCases c a c' o) (ha : ∀ sp, a ≠ .pendsv sp) :
    c'.current = c.current := by
  cases h with
  | start _ hk =>
      obtain rfl := jrtKernelStart_spec hk
      rfl
  | thread _ _ hseg => exact hseg.frame.2.2.1
  | tick _ hk => exact (tickTasks_frame hk).2.2.1
  | isr => exact (isrCall_frame c.kernel _).2.2.1
  | @pendsv currentSp => exact absurd rfl (ha currentSp)
  | store => rfl
  | cycles => rfl

/-- One step: it selects `u` only if the scan starts outside the places from
`u` to `t`, and the scan leaves these only where a task cuts in. -/
theorem selects_step (hstep : StepCases c a c' o) (hb : c.current < c.kernel.taskCount)
    (ht : t < c.kernel.taskCount) (hu : u < c.kernel.taskCount)
    (hkeeps : Transition.keepsReady t u ⟨c, a, o, c'⟩ = true) :
    c'.current < c'.kernel.taskCount
      ∧ (Transition.selects u ⟨c, a, o, c'⟩ = true → ¬c.Passed t u ∧ c'.Passed t u)
      ∧ (c.Passed t u → c'.Passed t u ∨ Transition.cutsIn t u ⟨c, a, o, c'⟩ = true) := by
  have hn := hstep.taskCount
  by_cases ha : ∃ sp, a = .pendsv sp
  · obtain ⟨currentSp, rfl⟩ := ha
    obtain ⟨hready, hready', hprio⟩ := keepsReady_iff.mp hkeeps
    cases hstep with
    | thread _ _ hseg => cases hseg
    | @pendsv _ sp k _ _ hswitch =>
        change (k.tasks t).state = .ready at hready'
        change c.kernel.prio t = c.kernel.prio u at hprio
        change k.taskCount = c.kernel.taskCount at hn
        obtain ⟨hlt, hcandidate, hrunning, hbest, hfirst⟩ :=
          switch_spec hswitch hb ht (candidate_of_ready hready)
        -- `t` stays `READY`, so it is not the one selected.
        have hnt : k.gCurrentTaskIndex ≠ t := fun heq => by
          rw [heq, hready'] at hrunning
          cases hrunning
        have htprio := hbest t ht (candidate_of_ready hready)
        have hpassed : ∀ j < c.kernel.taskCount, j ≠ t → k.gCurrentTaskIndex = j →
            c.kernel.prio t = c.kernel.prio j → c.Passed t u →
            Cyclic.ahead c.kernel.taskCount t c.current < Cyclic.ahead c.kernel.taskCount t j := by
          rintro j hj hjt rfl hsame ⟨hct, -⟩
          by_contra hle
          have hnear := Cyclic.ahead_lt_of_le hb ht hct hjt (Nat.le_of_not_lt hle)
          have hfar := hfirst t ht (candidate_of_ready hready) hsame
          exact absurd hnear (Nat.not_lt_of_le hfar)
        refine ⟨?_, fun hselects => ?_, fun hbefore => ?_⟩
        · show k.gCurrentTaskIndex < k.taskCount
          rw [hn]
          exact hlt
        · have hsel : k.gCurrentTaskIndex = u := eq_of_beq hselects
          have hut : u ≠ t := hsel ▸ hnt
          refine ⟨fun hbefore => ?_, ⟨hnt, ?_⟩⟩
          · have hfar := hpassed u hu hut hsel hprio hbefore
            exact absurd hbefore.2 (Nat.not_le_of_lt hfar)
          · show Cyclic.ahead k.taskCount t u ≤ Cyclic.ahead k.taskCount t k.gCurrentTaskIndex
            rw [hsel]
        · by_cases hbehind : Cyclic.ahead c.kernel.taskCount t u
              ≤ Cyclic.ahead c.kernel.taskCount t k.gCurrentTaskIndex
          · refine Or.inl ⟨hnt, ?_⟩
            show Cyclic.ahead k.taskCount t u ≤ Cyclic.ahead k.taskCount t k.gCurrentTaskIndex
            rwa [hn]
          · refine Or.inr (cutsIn_iff.mpr
              ⟨hbefore.2, _, hlt, hcandidate, ?_, Nat.lt_of_not_le hbehind, hbest⟩)
            refine Nat.lt_of_le_of_ne htprio fun hsame => hbehind ?_
            exact hbefore.2.trans (hpassed _ hlt hnt rfl hsame hbefore).le
  · have hno : ∀ sp, a ≠ .pendsv sp := fun sp heq => ha ⟨sp, heq⟩
    have hcur := hstep.current_eq hno
    have hselects : Transition.selects u ⟨c, a, o, c'⟩ = false := by
      cases a with
      | pendsv sp => exact absurd rfl (hno sp)
      | _ => rfl
    refine ⟨by rw [hcur, hn]; exact hb, fun hs => ?_, fun hbefore => Or.inl ?_⟩
    · rw [hselects] at hs
      cases hs
    · rw [Cfg.Passed, hcur, hn]
      exact hbefore

/-- A run selects `u` once more than it finds a task that cuts in, at most. -/
theorem selects_run (hrun : Run c tr c') (hb : c.current < c.kernel.taskCount)
    (ht : t < c.kernel.taskCount) (hu : u < c.kernel.taskCount)
    (hkeeps : ∀ x ∈ tr, x.keepsReady t u = true) :
    c'.current < c'.kernel.taskCount
      ∧ tr.countP (Transition.selects u)
        ≤ tr.countP (Transition.cutsIn t u) + if c'.Passed t u then 1 else 0 := by
  induction hrun with
  | nil => exact ⟨hb, Nat.zero_le _⟩
  | @snoc tr c₁ c₂ a o hrun hstep ih =>
      obtain ⟨hb₁, hcount⟩ := ih fun x hx => hkeeps x (List.mem_append_left _ hx)
      have hn : c₁.kernel.taskCount = c.kernel.taskCount := hrun.taskCount
      obtain ⟨hb₂, hselects, hleaves⟩ := selects_step (step_cases hstep) hb₁ (hn ▸ ht) (hn ▸ hu)
        (hkeeps _ (List.mem_append_right _ List.mem_cons_self))
      refine ⟨hb₂, ?_⟩
      rw [List.countP_append, List.countP_append, List.countP_singleton, List.countP_singleton]
      by_cases hsel : Transition.selects u ⟨c₁, a, o, c₂⟩ = true
      · obtain ⟨hbefore, hbehind⟩ := hselects hsel
        rw [if_neg hbefore] at hcount
        rw [if_pos hsel, if_pos hbehind]
        omega
      · rw [if_neg hsel]
        by_cases hbefore : c₁.Passed t u
        · rw [if_pos hbefore] at hcount
          rcases hleaves hbefore with hbehind | hcuts
          · rw [if_pos hbehind]
            omega
          · rw [if_pos hcuts]
            omega
        · rw [if_neg hbefore] at hcount
          omega

end Run

/-- While `t` stays `READY` with the priority of `u`, a run in which fewer
switches than there are tasks find a task of higher priority to select
between `t` and `u` selects `u` at most as often as there are tasks. -/
theorem round_robin_bound (c c' : Cfg) (tr : List Transition) (t u : Nat) (hrun : Run c tr c')
    (hcurrent : c.current < c.kernel.taskCount) (ht : t < c.kernel.taskCount)
    (hu : u < c.kernel.taskCount) (hkeeps : ∀ x ∈ tr, x.keepsReady t u = true)
    (hcuts : tr.countP (Transition.cutsIn t u) < c.kernel.taskCount) :
    tr.countP (Transition.selects u) ≤ c.kernel.taskCount := by
  obtain ⟨-, hcount⟩ := selects_run hrun hcurrent ht hu hkeeps
  have hlast : (if c'.Passed t u then 1 else 0) ≤ 1 := by
    split
    · exact Nat.le_refl 1
    · exact Nat.zero_le 1
  omega

/-- Task 1 has the higher priority and sits between tasks 0 and 2. It wakes
when task 2 runs, and goes back to sleep: the scan behind it comes to task 2
first, every time. -/
def bypassActions : List Action :=
  (List.replicate 6
    [.call (.taskDelay 1), .pendsv (sampleSp 1), .tick, .pendsv (sampleSp 2)]).flatten

theorem round_robin_bypassed : ∃ tr₀ c tr c',
    sampleRun [1, 2, 1] [.start, .tick, .pendsv (sampleSp 0)] = some (tr₀, c)
      ∧ runActions c bypassActions = some (tr, c')
      ∧ (∀ x ∈ tr, x.keepsReady 0 2 = true)
      ∧ c.kernel.taskCount < tr.countP (Transition.selects 2) := by
  have hsome : ((sampleRun [1, 2, 1] [.start, .tick, .pendsv (sampleSp 0)]).bind fun r =>
      (runActions r.2 bypassActions).filter fun r' => r'.1.all (Transition.keepsReady 0 2)
        && decide (r.2.kernel.taskCount < r'.1.countP (Transition.selects 2))).isSome = true := by
    decide +kernel
  obtain ⟨⟨tr, c'⟩, hbind⟩ := Option.isSome_iff_exists.mp hsome
  obtain ⟨⟨tr₀, c⟩, hstart, hbind⟩ := Option.bind_eq_some_iff.mp hbind
  obtain ⟨hrun, hchecks⟩ := Option.filter_eq_some_iff.mp hbind
  obtain ⟨hkeeps, hcount⟩ := Bool.and_eq_true_iff.mp hchecks
  exact ⟨tr₀, c, tr, c', hstart, hrun, List.all_eq_true.mp hkeeps, of_decide_eq_true hcount⟩

/-- Two rounds of that run. -/
theorem round_robin_bound_sample : ∃ tr₀ c tr c',
    sampleRun [1, 2, 1] [.start, .tick, .pendsv (sampleSp 0)] = some (tr₀, c)
      ∧ runActions c (bypassActions.take 8) = some (tr, c')
      ∧ tr.countP (Transition.cutsIn 0 2) = 2
      ∧ tr.countP (Transition.selects 2) ≤ c.kernel.taskCount := by
  have hsome : ((sampleRun [1, 2, 1] [.start, .tick, .pendsv (sampleSp 0)]).bind fun r =>
      (runActions r.2 (bypassActions.take 8)).filter fun r' =>
        (r'.1.all (Transition.keepsReady 0 2) && r'.1.countP (Transition.cutsIn 0 2) == 2)
          && decide (r.2.current < r.2.kernel.taskCount ∧ r.2.kernel.taskCount = 5)).isSome
        = true := by
    decide +kernel
  obtain ⟨⟨tr, c'⟩, hbind⟩ := Option.isSome_iff_exists.mp hsome
  obtain ⟨⟨tr₀, c⟩, hstart, hbind⟩ := Option.bind_eq_some_iff.mp hbind
  obtain ⟨hrun, hchecks⟩ := Option.filter_eq_some_iff.mp hbind
  simp only [Bool.and_eq_true, List.all_eq_true, beq_iff_eq, decide_eq_true_eq] at hchecks
  obtain ⟨⟨hkeeps, hcuts⟩, hcurrent, hn⟩ := hchecks
  refine ⟨tr₀, c, tr, c', hstart, hrun, hcuts, ?_⟩
  exact round_robin_bound c c' tr 0 2 (runActions_run hrun) hcurrent (by omega) (by omega) hkeeps
    (by omega)

end JustRT
