import JustRT.Ledger
import Mathlib.Data.UInt

/-!
# Notification values are conserved

A notification adds to its task's value and a take clears it, on two
paths: at once, or behind its yield, where it does not look at why it was
woken. What one step does to a task's value is read off the ledgers; over
a run the values taken and the value left are the values notified, modulo
2 ^ 32.
-/

namespace JustRT

/-! ## Notified and taken -/

def Action.notifies (t : Nat) : Action → UInt32
  | .call (.taskNotify task value) => if task = t then value else 0
  | .isr (.taskNotifyFromIsr task value) => if task = t then value else 0
  | _ => 0

/-- Ahead of a segment of `JRT_TaskNotifyTake` that may store a value. -/
def Pc.taking : Pc → Bool
  | .entered (.taskNotifyTake _ _) _ => true
  | .resumed (.taskNotifyTake _ _) => true
  | _ => false

/-- The word a call stored through its pointer. -/
def Observation.value (o : Observation) : Option UInt32 :=
  match o.output with
  | some (.value word) => some word
  | _ => none

/-- The value a take of task `t` stores in this step. -/
def Transition.takes (t : Nat) (x : Transition) : Option UInt32 :=
  match x.action with
  | .proceed _ => if t = x.pre.current ∧ (x.pre.pc t).taking then x.observation.value else none
  | _ => none

section Step

variable {c c' : Cfg} {a : Action} {o : Observation} {t : Nat}

/-- The first exit of a take stores the whole value, or has found none. -/
theorem jrtTaskNotifyTake_value (k : Kernel) {value : Ptr} (hvalue : value ≠ 0)
    (timeout : UInt32) :
    (jrtTaskNotifyTake k value timeout false).2.1.getD 0
        = (k.tasks k.currentTask).notificationValue
      ∧ ∀ v, (jrtTaskNotifyTake k value timeout false).2.1 = some v →
          v = (k.tasks k.currentTask).notificationValue := by
  simp only [jrtTaskNotifyTake]
  rw [if_neg (by simp [hvalue])]
  split
  · exact ⟨rfl, fun v hv => (Option.some.inj hv).symm⟩
  · next hzero =>
      rw [ne_eq, not_not] at hzero
      rw [hzero]
      split
      · exact ⟨rfl, fun v hv => by cases hv⟩
      · exact ⟨rfl, fun v hv => by cases hv⟩

theorem notifiedLedger_notificationValue (k : Kernel) (ht : t < k.taskCount) (task : Nat)
    (value : UInt32) :
    (k.notifiedLedger task value t).notificationValue
      = (k.ledger t).notificationValue + if task = t then value else 0 := by
  unfold Kernel.notifiedLedger
  by_cases htask : task = t
  · rw [if_pos htask, htask, if_pos ht, Function.update_self]
    rfl
  · rw [if_neg htask, UInt32.add_zero]
    split
    · rw [Function.update_of_ne (Ne.symm htask)]
    · rfl

theorem takenLedger_notificationValue (k : Kernel) (task : Nat) :
    (k.takenLedger task t).notificationValue
      = if t = task then 0 else (k.ledger t).notificationValue := by
  unfold Kernel.takenLedger
  by_cases htask : t = task
  · rw [if_pos htask, htask, Function.update_self]
    rfl
  · rw [if_neg htask, Function.update_of_ne htask]

/-- A segment of a take: what it stores is the value there was, and none is
left. -/
theorem ThreadSegment.takes (h : Sched c) {source : Nat → UInt8} {s : Segment}
    (hseg : ThreadSegment c (.proceed source) s) (htaking : (c.pc c.current).taking = true) :
    let o : Observation := { result := s.result, output := s.output }
    (s.kernel.ledger c.current).notificationValue + o.value.getD 0
        = (c.kernel.ledger c.current).notificationValue
      ∧ ∀ v, o.value = some v → v = (c.kernel.ledger c.current).notificationValue
          ∧ (s.kernel.ledger c.current).notificationValue = 0 := by
  intro o
  have hledger := hseg.ledger
  have hcurrent := h.currentTask
  cases hseg with
  | @entered call reserved _ s hpc hs =>
      rw [hpc] at htaking
      rw [Action.ledger, hpc] at hledger
      cases call with
      | taskNotifyTake value timeout =>
          obtain rfl := Except.ok.inj hs
          simp only [Pc.ledger, WaitCall.enteredLedger] at hledger
          rw [hledger]
          have hvalue : o.value = (jrtTaskNotifyTake c.kernel value timeout false).2.1 := by
            change (match (jrtTaskNotifyTake c.kernel value timeout false).2.1.map Output.value with
              | some (.value word) => some word
              | _ => none) = _
            cases (jrtTaskNotifyTake c.kernel value timeout false).2.1 <;> rfl
          rw [hvalue]
          split
          · next hnull =>
              rw [hnull]
              exact ⟨UInt32.add_zero _, fun v hv => by cases hv⟩
          · next hnonnull =>
              obtain ⟨hsum, hall⟩ := jrtTaskNotifyTake_value c.kernel hnonnull timeout
              rw [hcurrent] at hsum hall ⊢
              rw [takenLedger_notificationValue, if_pos rfl, UInt32.zero_add]
              exact ⟨hsum, fun v hv => ⟨hall v hv, rfl⟩⟩
      | _ => cases htaking
  | @resumed call _ hpc =>
      rw [hpc] at htaking
      rw [Action.ledger, hpc] at hledger
      cases call with
      | taskNotifyTake value timeout =>
          change _ = c.kernel.takenLedger c.kernel.currentTask at hledger
          rw [hledger, hcurrent, takenLedger_notificationValue, if_pos rfl, UInt32.zero_add]
          have hvalue : o.value = some (c.kernel.ledger c.current).notificationValue := by
            change some (c.kernel.tasks c.kernel.currentTask).notificationValue = _
            rw [hcurrent]
            rfl
          rw [hvalue]
          exact ⟨rfl, fun v hv => ⟨(Option.some.inj hv).symm, rfl⟩⟩
      | _ => cases htaking
  | yielding hpc => rw [hpc] at htaking; cases htaking
  | requestSwitch hpc => rw [hpc] at htaking; cases htaking
  | inTime hpc => rw [hpc] at htaking; cases htaking
  | delayed hpc => rw [hpc] at htaking; cases htaking

/-- Where no take runs, no segment writes the value. -/
theorem proceed_notificationValue {k : Kernel} {pc : Pc} (hpc : pc.taking = false) :
    pc.ledger k = k.ledger := by
  cases pc with
  | entered call reserved => cases call <;> first | rfl | cases hpc
  | resumed call => cases call <;> first | rfl | cases hpc
  | _ => rfl

/-- One step: what is notified is added, what is taken is all there was. -/
theorem StepCases.notificationValue (h : Sched c) (hstep : StepCases c a c' o)
    (ht : t < c.kernel.taskCount) :
    (c'.kernel.ledger t).notificationValue + (Transition.takes t ⟨c, a, o, c'⟩).getD 0
        = (c.kernel.ledger t).notificationValue + a.notifies t
      ∧ ∀ v, Transition.takes t ⟨c, a, o, c'⟩ = some v →
          v = (c.kernel.ledger t).notificationValue
            ∧ (c'.kernel.ledger t).notificationValue = 0 := by
  have hledger := hstep.ledger
  -- Away from the takes only the notifications count.
  have hother : Transition.takes t ⟨c, a, o, c'⟩ = none →
      (a.ledger c t).notificationValue = (c.kernel.ledger t).notificationValue + a.notifies t →
      (c'.kernel.ledger t).notificationValue + (Transition.takes t ⟨c, a, o, c'⟩).getD 0
          = (c.kernel.ledger t).notificationValue + a.notifies t
        ∧ ∀ v, Transition.takes t ⟨c, a, o, c'⟩ = some v →
            v = (c.kernel.ledger t).notificationValue
              ∧ (c'.kernel.ledger t).notificationValue = 0 := by
    intro hnone hvalue
    rw [hnone, hledger]
    exact ⟨by rw [Option.getD_none, UInt32.add_zero, hvalue], fun v hv => nomatch hv⟩
  have hzero : (c.kernel.ledger t).notificationValue
      = (c.kernel.ledger t).notificationValue + 0 := (UInt32.add_zero _).symm
  cases a with
  | call made =>
      refine hother rfl ?_
      cases made with
      | taskNotify task value => exact notifiedLedger_notificationValue c.kernel ht task value
      | _ => exact hzero
  | isr made =>
      refine hother rfl ?_
      cases made with
      | taskNotifyFromIsr task value =>
          exact notifiedLedger_notificationValue c.kernel ht task value
      | _ => exact hzero
  | pendsv currentSp =>
      refine hother rfl ?_
      simp only [Action.ledger]
      by_cases hj : t = c.kernel.currentTask
      · rw [hj, Function.update_self]
        exact (UInt32.add_zero _).symm
      · rw [Function.update_of_ne hj]
        exact hzero
  | proceed source =>
      by_cases htakes : t = c.current ∧ (c.pc t).taking = true
      · obtain ⟨rfl, htaking⟩ := htakes
        have htake : Transition.takes c.current ⟨c, .proceed source, o, c'⟩ = o.value :=
          if_pos ⟨rfl, htaking⟩
        rw [htake]
        change _ = _ + 0 ∧ _
        rw [UInt32.add_zero]
        cases hstep with
        | thread _ _ hseg => exact hseg.takes h htaking
      · refine hother (if_neg htakes) ?_
        change ((c.pc c.current).ledger c.kernel t).notificationValue = _
        by_cases htaking : (c.pc c.current).taking = true
        · -- Another task takes: its own value only.
          have hne : t ≠ c.current := fun heq => htakes ⟨heq, heq ▸ htaking⟩
          have htaken : (c.kernel.takenLedger c.kernel.currentTask t).notificationValue
              = (c.kernel.ledger t).notificationValue := by
            rw [takenLedger_notificationValue, h.currentTask, if_neg hne]
          cases hpc : c.pc c.current with
          | entered call reserved =>
              cases call with
              | taskNotifyTake value timeout =>
                  simp only [Pc.ledger, WaitCall.enteredLedger]
                  split
                  · exact hzero
                  · exact htaken.trans hzero
              | _ => rw [hpc] at htaking; cases htaking
          | resumed call =>
              cases call with
              | taskNotifyTake value timeout => exact htaken.trans hzero
              | _ => rw [hpc] at htaking; cases htaking
          | _ => rw [hpc] at htaking; cases htaking
        · rw [proceed_notificationValue (Bool.not_eq_true _ ▸ htaking)]
          exact hzero
  | start | tick | store | cycles => exact hother rfl hzero

end Step

/-! ## Whole runs -/

/-- A run: the values taken and the value left are the value there was and
the values notified. -/
theorem Run.notificationValue {c c' : Cfg} {tr : List Transition} {t : Nat} (h : Sched c)
    (hrun : Run c tr c') (ht : t < c.kernel.taskCount) :
    (tr.map fun x => (x.takes t).getD 0).sum + (c'.kernel.ledger t).notificationValue
      = (c.kernel.ledger t).notificationValue + (tr.map fun x => x.action.notifies t).sum := by
  induction hrun with
  | nil =>
      rw [List.map_nil, List.map_nil, List.sum_nil, UInt32.zero_add, UInt32.add_zero]
  | @snoc tr c₁ c₂ a o hrun hstep ih =>
      have h₁ : Sched c₁ := hrun.induction Sched (fun hs hst => hs.step hst) h
      obtain ⟨hone, -⟩ := (step_cases hstep).notificationValue h₁ (hrun.taskCount ▸ ht)
      simp only [List.map_append, List.map_cons, List.map_nil, List.sum_append, List.sum_cons,
        List.sum_nil, UInt32.add_zero]
      grind

/-- A run in which the task takes nothing: its notifications add up. -/
theorem Run.notificationValue_of_no_take {c c' : Cfg} {tr : List Transition} {t : Nat}
    (h : Sched c) (hrun : Run c tr c') (ht : t < c.kernel.taskCount)
    (hnone : ∀ x ∈ tr, x.takes t = none) :
    (c'.kernel.ledger t).notificationValue
      = (c.kernel.ledger t).notificationValue + (tr.map fun x => x.action.notifies t).sum := by
  have hsum := hrun.notificationValue h ht
  have hzeros : (tr.map fun x => (x.takes t).getD 0) = List.replicate tr.length 0 := by
    rw [List.eq_replicate_iff]
    refine ⟨List.length_map _, fun v hv => ?_⟩
    obtain ⟨x, hx, rfl⟩ := List.mem_map.mp hv
    rw [hnone x hx]
    rfl
  have hnothing : ∀ n : Nat, (List.replicate n (0 : UInt32)).sum = 0 := by
    intro n
    induction n with
    | zero => rfl
    | succ n ih => rw [List.replicate_succ, List.sum_cons, ih, UInt32.zero_add]
  rw [hzeros, hnothing, UInt32.zero_add] at hsum
  exact hsum

/-- Behind its yield a take stores whatever there is, however it was woken. -/
theorem take_resumed {c c' : Cfg} {o : Observation} {source : Nat → UInt8} {value : Ptr}
    {timeout : UInt32} (h : Sched c) (hpc : c.pc c.current = .resumed (.taskNotifyTake value timeout))
    (hstep : step c (.proceed source) = some (c', o)) :
    Transition.takes c.current ⟨c, .proceed source, o, c'⟩
        = some (c.kernel.tasks c.current).notificationValue
      ∧ o.result = some (if (c.kernel.tasks c.current).notificationValue ≠ 0 then 1 else 0) := by
  have htake : Transition.takes c.current ⟨c, .proceed source, o, c'⟩ = o.value :=
    if_pos ⟨rfl, by rw [hpc]; rfl⟩
  rw [htake, ← h.currentTask]
  have hcases := step_cases hstep
  cases hcases with
  | thread _ _ hseg =>
      rw [hseg.of_resumed hpc]
      exact ⟨rfl, rfl⟩

/-- From `JRT_KernelInit` on, what the takes of a task stored and its
notification value add up to what it was notified. A value notified while
no take of the task stores one stays in its notification value; the next
take that stores one stores all of it, and a take that was woken, or timed
out, stores one. -/
theorem notifications_conserved (img : Image) (c₀ c : Cfg) (tr : List Transition) (t : Nat)
    (hboot : Boot img c₀) (hrun : Run c₀ tr c) (ht : t < c.kernel.taskCount) :
    (tr.map fun x => (x.takes t).getD 0).sum + (c.kernel.tasks t).notificationValue
        = (tr.map fun x => x.action.notifies t).sum
      ∧ ∀ next c₁, Run c next c₁ → (∀ x ∈ next, x.takes t = none) →
          (c₁.kernel.tasks t).notificationValue = (c.kernel.tasks t).notificationValue
              + (next.map fun x => x.action.notifies t).sum
            ∧ (∀ a c₂ o v, step c₁ a = some (c₂, o) → Transition.takes t ⟨c₁, a, o, c₂⟩ = some v →
                v = (c₁.kernel.tasks t).notificationValue
                  ∧ (c₂.kernel.tasks t).notificationValue = 0)
            ∧ ∀ value timeout source c₂ o, c₁.current = t →
                c₁.pc t = .resumed (.taskNotifyTake value timeout) →
                step c₁ (.proceed source) = some (c₂, o) →
                Transition.takes t ⟨c₁, .proceed source, o, c₂⟩
                    = some (c₁.kernel.tasks t).notificationValue
                  ∧ o.result = some
                    (if (c₁.kernel.tasks t).notificationValue ≠ 0 then 1 else 0) := by
  have h₀ : Sched c₀ := Reachable.sched ⟨c₀, [], hboot, .nil⟩
  have h : Sched c := Reachable.sched ⟨c₀, tr, hboot, hrun⟩
  constructor
  · have ht₀ : t < c₀.kernel.taskCount := hrun.taskCount ▸ ht
    obtain ⟨tasks, hfresh⟩ := hboot.ledger
    have hzero : (c₀.kernel.ledger t).notificationValue = 0 := by rw [hfresh t ht₀]; rfl
    have hsum := hrun.notificationValue h₀ ht₀
    rw [hzero, UInt32.zero_add] at hsum
    exact hsum
  · intro next c₁ hnext hnone
    have h₁ : Sched c₁ := hnext.induction Sched (fun hs hst => hs.step hst) h
    refine ⟨hnext.notificationValue_of_no_take h ht hnone, ?_, ?_⟩
    · intro a c₂ o v hstep htakes
      exact ((step_cases hstep).notificationValue h₁ (hnext.taskCount ▸ ht)).2 v htakes
    · rintro value timeout source c₂ o rfl hpc hstep
      exact take_resumed h₁ hpc hstep

/-- The first task waits for a notification and times out; the second
notifies it twice before it runs, and its take returns both. -/
def lateNotifyActions : List Action :=
  [.start, .call (.taskNotifyTake 4 1), .proceed fun _ => 0, .proceed fun _ => 0,
    .pendsv (sampleSp 0), .tick, .isr (.taskNotifyFromIsr 0 5), .isr (.taskNotifyFromIsr 0 6),
    .pendsv (sampleSp 1), .proceed fun _ => 0]

theorem notifications_conserved_sample : ∃ tr c, sampleRun [2, 1] lateNotifyActions = some (tr, c)
    ∧ (c.kernel.tasks 0).notificationValue = 0
    ∧ (tr.map fun x => (x.takes 0).getD 0).sum = 11 := by
  have hsome : ((sampleRun [2, 1] lateNotifyActions).any fun r =>
      decide (0 < r.2.kernel.taskCount) && (r.2.kernel.tasks 0).notificationValue == 0
        && (r.1.map fun x => x.action.notifies 0).sum == 11) = true := by decide +kernel
  obtain ⟨⟨tr, c⟩, hrun, hchecks⟩ := (Option.any_eq_true _ _).mp hsome
  simp only [Bool.and_eq_true, decide_eq_true_eq, beq_iff_eq] at hchecks
  obtain ⟨⟨hcount, hvalue⟩, hnotified⟩ := hchecks
  obtain ⟨c₀, hboot, htr⟩ := sampleRun_run hrun
  obtain ⟨hsum, -⟩ := notifications_conserved .sample c₀ c tr 0 (sampleBoot_boot hboot) htr hcount
  rw [hvalue, UInt32.add_zero, hnotified] at hsum
  exact ⟨tr, c, hrun, hvalue, hsum⟩

end JustRT
