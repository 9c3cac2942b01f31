import JustRT.Timeout

/-!
# A blocking call as a whole

A call that may wait is several segments of its task, with any number of
steps of others in between: a critical section, which returns or blocks the
task, the yield, and what comes behind it. Most theorems follow such a call
by an invariant of their own. This module says what a call as a whole is,
from its critical section to its return, and that a call which does not ask
again returns from behind its yield.
-/

namespace JustRT

section Within

variable {c c' : Cfg} {a : Action} {o : Observation} {i : Nat}

/-- A task behind the section that blocked it stays there, or returns to its
call. -/
theorem StepCases.within {w : WaitCall} (hstep : StepCases c a c' o) (hwithin : c.Within i w) :
    c'.Within i w ∨ (i = c.current ∧ c.pc i = .resumed w ∧ c.pending = false
      ∧ (∃ source, a = .proceed source) ∧ o.result = (proceedResumed c.kernel w).result) := by
  cases hstep with
  | @thread a s _ hp hseg =>
      by_cases hi : i = c.current
      · subst hi
        have hafter : (c.after s).pc c.current = s.pc := Sched.after_pc_current s
        cases hseg with
        | call hpc | entered hpc | requestSwitch hpc | inTime hpc | delayed hpc =>
            rcases hwithin with hw | hw <;> rw [hpc] at hw <;> cases hw
        | yielding hpc =>
            rcases hwithin with hw | hw
            · rw [hpc] at hw
              obtain rfl := Pc.yielding.inj hw
              exact Or.inl (Or.inr hafter)
            · rw [hpc] at hw
              cases hw
        | @resumed w' source hpc =>
            rcases hwithin with hw | hw
            · rw [hpc] at hw
              cases hw
            · rw [hpc] at hw
              obtain rfl := Pc.resumed.inj hw
              exact Or.inr ⟨rfl, hpc, hp, ⟨source, rfl⟩, rfl⟩
      · refine Or.inl ?_
        rw [Cfg.Within, Sched.after_pc_of_ne s hi]
        exact hwithin
  | start | tick | isr | pendsv | store | cycles => exact Or.inl hwithin

/-- How a wait ended stays in the record until the task returns. -/
theorem StepCases.ended_kept {w : WaitCall} (hs : Sched c) (hstep : StepCases c a c' o)
    (hwithin : c.Within i w) (hb : (c.kernel.view i).state ≠ .blocked) :
    (c'.kernel.view i).state ≠ .blocked
      ∧ (c'.kernel.view i).waitResult = (c.kernel.view i).waitResult := by
  have hwoken : ∀ {R : WaitView → UInt32 → Prop} {v : WaitView}, Woken R (c.kernel.view i) v →
      v.state ≠ .blocked ∧ v.waitResult = (c.kernel.view i).waitResult := by
    intro R v hw
    cases hw with
    | kept => exact ⟨hb, rfl⟩
    | ended hblocked => exact absurd hblocked hb
    | awoken => exact ⟨fun hblocked => (by cases hblocked), rfl⟩
  have hothers : a ≠ .tick → (∀ s, ThreadSegment c a s → i ≠ c.current) →
      (c'.kernel.view i).state ≠ .blocked
        ∧ (c'.kernel.view i).waitResult = (c.kernel.view i).waitResult := by
    intro ha hown
    rcases hstep.view_others hs ha hown with hw | ⟨state, hstate, hblocked⟩
    · exact hwoken hw
    · rw [hstate]
      exact ⟨fun heq => hb (hblocked.mp heq), rfl⟩
  cases hstep with
  | @thread a s _ _ hseg =>
      by_cases hi : i = c.current
      · subst hi
        have hsame : s.kernel.view = c.kernel.view → (s.kernel.view c.current).state ≠ .blocked
            ∧ (s.kernel.view c.current).waitResult = (c.kernel.view c.current).waitResult := by
          intro hview
          rw [hview]
          exact ⟨hb, rfl⟩
        cases hseg with
        | call hpc | entered hpc | requestSwitch hpc | inTime hpc | delayed hpc =>
            rcases hwithin with hw | hw <;> rw [hpc] at hw <;> cases hw
        | yielding => exact hsame rfl
        | @resumed w' => exact hsame (proceedResumed_view c.kernel w').1
      · refine hothers (fun ha => ?_) fun _ _ => hi
        subst ha
        cases hseg
  | tick _ hk => exact hwoken (tickTasks_wakes hk i)
  | start | isr | pendsv | store | cycles =>
      exact hothers (fun ha => by cases ha) fun _ hseg => by cases hseg

end Within

/-- The call `call` of one task, from its critical section on. It returns from
there in the step `first`, which is then the `last` one too; or it is left
waiting behind `first`, the steps `waited` are taken, of this task and of
others, before it is back with its caller, and `last` is the step in which it
gets there. -/
inductive WaitRun (call : WaitCall) (first : Transition) :
    List Transition → Transition → UInt32 → Prop where
  | atOnce {source : Nat → UInt8} {reserved : Bool} {result : UInt32} :
      first.pre.pc first.pre.current = .entered call reserved →
      first.action = .proceed source →
      step first.pre first.action = some (first.post, first.observation) →
      first.post.pc first.pre.current = .user →
      first.observation.result = some result → WaitRun call first [] first result
  | behindYield {last : Transition} {source source' : Nat → UInt8} {reserved : Bool}
      {waited : List Transition} {result : UInt32} :
      first.pre.pc first.pre.current = .entered call reserved →
      first.action = .proceed source →
      step first.pre first.action = some (first.post, first.observation) →
      first.post.pc first.pre.current ≠ .user →
      Run first.post waited last.pre →
      (∀ x ∈ waited, x.post.pc first.pre.current ≠ .user) →
      last.action = .proceed source' →
      step last.pre last.action = some (last.post, last.observation) →
      last.pre.current = first.pre.current →
      last.post.pc first.pre.current = .user →
      last.observation.result = some result → WaitRun call first waited last result

/-- The call returns from behind its yield: it does not go back to its
critical section, as the calls of a queue do. -/
def WaitCall.Returns (call : WaitCall) : Prop := ∀ k, (proceedResumed k call).pc = .user

section Calls

variable {c c' : Cfg} {a : Action} {o : Observation} {i : Nat} {call : WaitCall}
  {first last : Transition} {waited : List Transition} {result : UInt32}

/-- Where a critical section that does not return leaves its task. -/
theorem within_of_blocked {source : Nat → UInt8} {reserved : Bool}
    (hpc : c.pc c.current = .entered call reserved)
    (hstep : StepCases c (.proceed source) c' o) (hblocks : c'.pc c.current ≠ .user) :
    c'.Within c.current call := by
  cases hstep with
  | thread _ _ hseg =>
      have hafter := Sched.after_pc_current (c := c)
      cases proceedEntered_exit (hseg.of_entered hpc) with
      | served _ huser | late _ _ huser => exact absurd ((hafter _).trans huser) hblocks
      | blocked _ _ hyield => exact Or.inl ((hafter _).trans hyield)

theorem Cfg.Within.step (hwithin : c.Within i call) (hreturns : call.Returns)
    (hstep : StepCases c a c' o) (hin : c'.pc i ≠ .user) : c'.Within i call := by
  rcases hstep.within hwithin with hkept | ⟨rfl, hpc, -, ⟨source, rfl⟩, -⟩
  · exact hkept
  · refine absurd ?_ hin
    cases hstep with
    | thread _ _ hseg =>
        rw [Sched.after_pc_current, hseg.of_resumed hpc]
        exact hreturns c.kernel

/-- As long as the task is not back with its caller, it is behind its critical
section. -/
theorem Cfg.Within.run (hwithin : c.Within i call) (hreturns : call.Returns)
    (hrun : Run c waited c') (hin : ∀ x ∈ waited, x.post.pc i ≠ .user) : c'.Within i call := by
  induction hrun with
  | nil => exact hwithin
  | snoc _ hstep ih =>
      have hbefore := ih fun x hx => hin x (List.mem_append_left _ hx)
      exact hbefore.step hreturns (step_cases hstep) (hin _ List.mem_concat_self)

/-- The step in which a task gets back to its caller is the one behind its
yield. -/
theorem Cfg.Within.resumed (hwithin : c.Within i call) (hstep : StepCases c a c' o)
    (huser : c'.pc i = .user) : c.pending = false ∧ c.pc i = .resumed call := by
  rcases hstep.within hwithin with hw | ⟨-, hpc, hp, -, -⟩
  · rcases hw with hw | hw <;> rw [huser] at hw <;> cases hw
  · exact ⟨hp, hpc⟩

end Calls

/-- The first task of the sample system takes the actions `before`, the last
of which makes the call, and waits while `during` happens. -/
def sampleCall (priorities : List Nat) (before : List Action) (call : WaitCall)
    (during : List Action) : Option (Transition × List Transition × Transition × UInt32) :=
  (sampleRun priorities before).bind fun r =>
    (step r.2 (.proceed fun _ => 0)).bind fun r₁ =>
      (runActions r₁.1 during).bind fun r₂ =>
        (step r₂.2 (.proceed fun _ => 0)).bind fun r₃ =>
          if r.2.pc r.2.current = .entered call false
              ∧ r₁.1.pc r.2.current ≠ .user ∧ (∀ x ∈ r₂.1, x.post.pc r.2.current ≠ .user)
              ∧ r₂.2.current = r.2.current ∧ r₃.1.pc r.2.current = .user then
            r₃.2.result.map fun result =>
              (⟨r.2, .proceed fun _ => 0, r₁.2, r₁.1⟩, r₂.1,
                ⟨r₂.2, .proceed fun _ => 0, r₃.2, r₃.1⟩, result)
          else none

theorem sampleCall_run {priorities : List Nat} {before during : List Action} {call : WaitCall}
    {first last : Transition} {waited : List Transition} {result : UInt32}
    (h : sampleCall priorities before call during = some (first, waited, last, result)) :
    Reachable .sample first.pre ∧ WaitRun call first waited last result := by
  obtain ⟨⟨tr, c⟩, hrun, h⟩ := Option.bind_eq_some_iff.mp h
  obtain ⟨⟨c₁, o₁⟩, hstep₁, h⟩ := Option.bind_eq_some_iff.mp h
  obtain ⟨⟨waited', c₂⟩, hwaited, h⟩ := Option.bind_eq_some_iff.mp h
  obtain ⟨⟨c₃, o⟩, hstep, h⟩ := Option.bind_eq_some_iff.mp h
  split at h
  · next hchecks =>
      obtain ⟨hpc, hblocks, hin, hcurrent, huser⟩ := hchecks
      obtain ⟨result', hresult, heq⟩ := Option.map_eq_some_iff.mp h
      obtain ⟨rfl, rfl, rfl, rfl⟩ := by simpa using heq
      exact ⟨sampleRun_reachable hrun, .behindYield hpc rfl hstep₁ hblocks
        (runActions_run hwaited) hin rfl hstep hcurrent huser hresult⟩
  · cases h

end JustRT
