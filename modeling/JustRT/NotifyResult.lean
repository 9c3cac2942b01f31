import JustRT.Mutex
import JustRT.Notification

/-!
# What a take of notifications returns

A notification wakes a waiting take, and the take recomputes its result
from the value it finds when it runs. A value of 0, or values that add up
to 0, wake it and leave nothing to take: it fails although its timeout has
not elapsed.
-/

namespace JustRT

/-! ## One call -/

def Action.notifiesTask (t : Nat) : Action → Bool
  | .call (.taskNotify task _) => task == t
  | .isr (.taskNotifyFromIsr task _) => task == t
  | _ => false

/-- The running task's call of `JRT_TaskNotifyTake`, from its critical
section in `c` on: what happens while it waits, and its result. -/
def TakeCall (c : Cfg) (value : Ptr) (timeout : UInt32) (waited : List Transition)
    (result : UInt32) : Prop :=
  ∃ first last, first.pre = c ∧ WaitRun (.taskNotifyTake value timeout) first waited last result

/-- A failed take has a finite timeout, and it has elapsed. -/
def FailsByTimeout (timeout : UInt32) (waited : List Transition) (result : UInt32) : Prop :=
  result = 0 → timeout ≠ jrtWaitForever ∧ timeout.toNat ≤ ticksIn waited

/-! ## The wait -/

section Wait

variable {c c' : Cfg} {a : Action} {o : Observation} {t n : Nat} {value : Ptr} {timeout : UInt32}

/-- A notification of another task leaves the wait alone. -/
theorem taskNotifyCommon_view_of_ne {k k' : Kernel} {task : Nat} {value : UInt32}
    {fromIsr inIsr : Bool} (h : taskNotifyCommon k task value fromIsr inIsr = some k')
    (ht : t ≠ task) : k'.view t = k.view t := by
  obtain ⟨-, k₁, coalesced, rfl, hcases⟩ := taskNotifyCommon_cases h
  rcases hcases with ⟨-, -, rfl⟩ | ⟨-, rfl | rfl⟩
  · rw [taskWaitEnd_view, Function.update_of_ne ht, setTask_view, Function.update_of_ne ht]
  · rw [setTask_view, Function.update_of_ne ht]
  · rw [taskBenchmarkCoalescedLocked_view, setTask_view, Function.update_of_ne ht]

/-- Only a tick or a notification ends a wait for notifications. -/
theorem StepCases.notificationWait_kept (hs : Sched c) (hstep : StepCases c a c' o)
    (htick : a ≠ .tick) (hnotify : a.notifiesTask t = false)
    (hb : (c.kernel.view t).state = .blocked) (hkind : (c.kernel.view t).waitKind = .notification) :
    c'.kernel.view t = c.kernel.view t := by
  have hkept : (∀ task v, a ≠ .call (.taskNotify task v)) →
      (∀ task v, a ≠ .isr (.taskNotifyFromIsr task v)) → c'.kernel.view t = c.kernel.view t := by
    intro hcall hisr
    refine hstep.wait_kept hs htick hb (fun r hr => ?_) fun call ha r hr => ?_
    · cases a with
      | call made =>
          cases made with
          | taskNotify task v => exact hcall task v rfl
          | semaphoreGive | mutexUnlock | eventGroupSetBits | timerSetCallback =>
              have hother := hr.2.1
              rw [hkind] at hother
              cases hother
          | _ => exact hr
      | proceed source =>
          rw [Action.wakes] at hr
          cases hpc : c.pc c.current with
          | entered w reserved =>
              rw [hpc] at hr
              cases w with
              | queueSend | queueReceive =>
                  have hother := hr.2.1
                  rw [hkind] at hother
                  cases hother
              | _ => exact hr
          | _ =>
              rw [hpc] at hr
              exact hr
      | _ => exact hr
    · cases call with
      | taskNotifyFromIsr task v => exact hisr task v ha
      | _ =>
          have hother := hr.2.1
          rw [hkind] at hother
          cases hother
  cases a with
  | call made =>
      cases made with
      | taskNotify task v =>
          have ht : t ≠ task := fun heq => by simp [Action.notifiesTask, heq] at hnotify
          cases hstep with
          | thread _ _ hseg =>
              cases hseg with
              | call _ _ hs =>
                  simp only [enter] at hs
                  split at hs
                  · obtain rfl := Except.ok.inj hs
                    rfl
                  · next hk =>
                      obtain rfl := Except.ok.inj hs
                      exact taskNotifyCommon_view_of_ne hk ht
      | _ => exact hkept (by simp) (by simp)
  | isr made =>
      cases made with
      | taskNotifyFromIsr task v =>
          have ht : t ≠ task := fun heq => by simp [Action.notifiesTask, heq] at hnotify
          cases hstep with
          | thread _ _ hseg => cases hseg
          | isr =>
              show (isrCall c.kernel (.taskNotifyFromIsr task v)).1.view t = _
              simp only [isrCall]
              split
              · rfl
              · next hk => exact taskNotifyCommon_view_of_ne hk ht
      | _ => exact hkept (by simp) (by simp)
  | _ => exact hkept (by simp) (by simp)

/-- Who is woken from a wait for notifications was notified. -/
theorem StepCases.notified_of_wokenUp (hs : Sched c) (ht : t < c.kernel.taskCount)
    (hstep : StepCases c a c' o) (hb : (c.kernel.view t).state = .blocked)
    (hkind : (c.kernel.view t).waitKind = .notification) (hwoken : c'.kernel.WokenUp t) :
    a.notifiesTask t = true := by
  obtain ⟨hready, hresult⟩ := hwoken
  change (c'.kernel.view t).state = .ready at hready
  change (c'.kernel.view t).waitResult = 1 at hresult
  by_contra hnotify
  rw [Bool.not_eq_true] at hnotify
  by_cases htick : a = .tick
  · subst htick
    cases hstep with
    | thread _ _ hseg => cases hseg
    | @tick k _ hk =>
        have hview := tickTasks_blocked hk ht hb (by rw [hkind]; decide)
        change (k.view t).state = .ready at hready
        change (k.view t).waitResult = 1 at hresult
        rw [hview] at hready hresult
        split at hready
        · next hexpired =>
            rw [if_pos hexpired] at hresult
            cases hresult
        · rw [hb] at hready
          cases hready
  · rw [hstep.notificationWait_kept hs htick hnotify hb hkind, hb] at hready
    cases hready

/-- The task waits in its take, `n` ticks behind its critical section; if
its wait has ended, it was notified or its timeout has elapsed. -/
structure TakeWait (value : Ptr) (timeout : UInt32) (t : Nat) (c : Cfg) (n : Nat)
    (notified : Prop) : Prop where
  within : c.Within t (.taskNotifyTake value timeout)
  waiting : (c.kernel.view t).state = .blocked → Timed t c (some (timeout, n))
  ended : (c.kernel.view t).state ≠ .blocked →
    notified ∨ (timeout ≠ jrtWaitForever ∧ timeout.toNat ≤ n)

theorem Cfg.Within.event (hwithin : c.Within t (.taskNotifyTake value timeout))
    (hstep : StepCases c a c' o) :
    Transition.event Action.takesDeadline t ⟨c, a, o, c'⟩ = a.passing := by
  rw [Transition.event]
  by_cases htc : c.current = t
  · subst htc
    rw [if_pos rfl]
    have hnone : a.takesDeadline c = none := by
      cases hstep with
      | thread _ _ hseg =>
          cases hseg with
          | call hpc | entered hpc | requestSwitch hpc | inTime hpc | delayed hpc =>
              rcases hwithin with hw | hw <;> rw [hpc] at hw <;> cases hw
          | yielding hpc | resumed hpc => simp [Action.takesDeadline, hpc]
      | _ => rfl
    rw [hnone]
    rfl
  · rw [if_neg htc]

/-- A task that waits takes nothing before it returns. -/
theorem Cfg.Within.takes_nothing (hwithin : c.Within t (.taskNotifyTake value timeout))
    (hstep : StepCases c a c' o) (hin : c'.pc t ≠ .user) :
    Transition.takes t ⟨c, a, o, c'⟩ = none := by
  cases a with
  | proceed source =>
      refine if_neg fun hand => hin ?_
      obtain ⟨rfl, htaking⟩ := hand
      rcases hwithin with hw | hw
      · change (c.pc c.current).taking = true at htaking
        rw [hw] at htaking
        cases htaking
      · cases hstep with
        | thread _ _ hseg =>
            change (c.after _).pc c.current = .user
            rw [Sched.after_pc_current, hseg.of_resumed hw]
            rfl
  | _ => rfl

theorem TakeWait.step {notified : Prop} (h : TakeWait value timeout t c n notified) (hs : Sched c)
    (ht : t < c.kernel.taskCount) (hstep : StepCases c a c' o) (hin : c'.pc t ≠ .user) :
    TakeWait value timeout t c' (n + a.isTick.toNat) (notified ∨ a.notifiesTask t = true) := by
  have hwithin : c'.Within t (.taskNotifyTake value timeout) :=
    h.within.step (fun _ => rfl) hstep hin
  by_cases hb : (c.kernel.view t).state = .blocked
  · have hkind : (c.kernel.view t).waitKind = .notification :=
      ((hs.waiting t _ h.within).on hb).2.2
    have htimed := h.waiting hb
    refine ⟨hwithin, fun _ => ?_, fun hended => ?_⟩
    · have hnext := htimed.step hs ht hstep fun hblock htc => by
        obtain ⟨source, call, reserved, -, hpc, -⟩ := hblock
        change c.pc c.current = _ at hpc
        rw [← htc] at hpc
        rcases h.within with hw | hw <;> rw [hpc] at hw <;> cases hw
      rw [h.within.event hstep] at hnext
      cases a <;> exact hnext
    · obtain ⟨timeout', elapsed, hshown, -, hout, hcases⟩ :=
        htimed.law hs ht hstep hb (by rw [hkind]; decide)
      obtain ⟨rfl, rfl⟩ := Prod.mk.inj (Option.some.inj hshown)
      rcases hcases with htimedOut | hwoken | hblocked
      · obtain ⟨rfl, hfinite, hlast⟩ := hout.mp htimedOut
        exact Or.inr ⟨hfinite, hlast.ge⟩
      · exact Or.inl (Or.inr (hstep.notified_of_wokenUp hs ht hb hkind hwoken))
      · exact absurd hblocked hended
  · obtain ⟨hended, -⟩ := hstep.ended_kept hs h.within hb
    refine ⟨hwithin, fun hblocked => absurd hblocked hended, fun _ => ?_⟩
    rcases h.ended hb with hnotified | ⟨hfinite, hle⟩
    · exact Or.inl (Or.inl hnotified)
    · exact Or.inr ⟨hfinite, Nat.le_add_right_of_le hle⟩

/-- The wait, as far as the task has not returned from it. -/
theorem TakeWait.run {waited : List Transition} (h : TakeWait value timeout t c 0 False)
    (hs : Sched c) (ht : t < c.kernel.taskCount) (hrun : Run c waited c')
    (hin : ∀ x ∈ waited, x.post.pc t ≠ .user) :
    TakeWait value timeout t c' (ticksIn waited) (∃ x ∈ waited, x.action.notifiesTask t = true)
      ∧ ∀ x ∈ waited, x.takes t = none := by
  induction hrun with
  | nil =>
      refine ⟨⟨h.within, h.waiting, fun hended => ?_⟩, fun x hx => absurd hx List.not_mem_nil⟩
      exact (h.ended hended).imp False.elim id
  | @snoc tr c₁ c₂ a o hrun hstep ih =>
      have hs₁ : Sched c₁ := hrun.induction Sched (fun hs hst => hs.step hst) hs
      obtain ⟨hbefore, hnone⟩ := ih fun x hx => hin x (List.mem_append_left _ hx)
      have hlast := hin _ List.mem_concat_self
      have hcases := step_cases hstep
      have hafter := hbefore.step hs₁ (hrun.taskCount ▸ ht) hcases hlast
      constructor
      · rw [ticksIn, countP_snoc]
        refine ⟨hafter.within, hafter.waiting, fun hended => (hafter.ended hended).imp_left ?_⟩
        rintro (⟨x, hx, hnotifies⟩ | hnotifies)
        · exact ⟨x, List.mem_append_left _ hx, hnotifies⟩
        · exact ⟨_, List.mem_concat_self, hnotifies⟩
      · intro x hx
        rcases List.mem_append.mp hx with hx | hx
        · exact hnone x hx
        · obtain rfl := List.mem_singleton.mp hx
          exact hbefore.within.takes_nothing hcases hlast

end Wait

/-! ## Both ends of the call -/

section Ends

variable {c c' : Cfg} {o : Observation} {source : Nat → UInt8} {value : Ptr} {timeout : UInt32}
  {reserved : Bool} {result : UInt32}

/-- A take that returns at once fails only without a place for the value. -/
theorem take_atOnce (hpc : c.pc c.current = .entered (.taskNotifyTake value timeout) reserved)
    (hstep : StepCases c (.proceed source) c' o) (huser : c'.pc c.current = .user)
    (hresult : o.result = some result) (htimeout : timeout ≠ 0) : result = 0 ↔ value = 0 := by
  cases hstep with
  | thread _ _ hseg =>
      obtain rfl := Except.ok.inj (hseg.of_entered hpc)
      rw [Sched.after_pc_current] at huser
      simp only [jrtTaskNotifyTake] at hresult huser
      split at hresult
      · next hnull =>
          obtain rfl := Option.some.inj hresult
          exact iff_of_true rfl (hnull.resolve_right (by decide))
      · next hvalue =>
          have hvalue' : value ≠ 0 := fun hnull => hvalue (Or.inl hnull)
          rw [if_neg hvalue] at huser
          split at hresult
          · obtain rfl := Option.some.inj hresult
            exact iff_of_false (by decide) hvalue'
          · next hnone =>
              rw [if_neg hnone, if_neg htimeout] at huser
              cases huser

/-- A take that does not return at once waits, with nothing left to take. -/
theorem take_blocks (hs : Sched c)
    (hpc : c.pc c.current = .entered (.taskNotifyTake value timeout) reserved)
    (hstep : StepCases c (.proceed source) c' o) (huser : c'.pc c.current ≠ .user) :
    value ≠ 0 ∧ (c'.kernel.tasks c.current).notificationValue = 0
      ∧ TakeWait value timeout c.current c' 0 False := by
  cases hstep with
  | @thread _ s _ hp hseg =>
      have hrun := hs.current_running hp (by simp [hpc])
      have hledger := hseg.ledger
      cases proceedEntered_exit (hseg.of_entered hpc) with
      | served _ hu => exact absurd ((Sched.after_pc_current s).trans hu) huser
      | late _ _ hu => exact absurd ((Sched.after_pc_current s).trans hu) huser
      | @blocked v hblock _ hyield hview hon _ =>
          have htimed : Timed c.current c none := by
            refine ⟨fun call d hcall hd => ?_, fun hb => ?_, fun hb => ?_⟩
            · rw [hpc] at hcall
              obtain rfl := Option.some.inj hcall
              cases hd
            · rw [hrun] at hb
              cases hb
            · rw [hrun] at hb
              cases hb
          have hshown : Transition.event Action.takesDeadline c.current
              ⟨c, .proceed source, { result := s.result, output := s.output }, c.after s⟩
                = .set timeout := by
            simp only [Transition.event, if_true, Action.takesDeadline, hpc]
            rfl
          have hafter := htimed.after_segment hs hp hseg (o := _) fun _ r hr _ => by
            rw [hshown] at hr
            obtain rfl := Option.some.inj hr
            exact Nat.two_pow_pos 32
          rw [hshown] at hafter
          refine ⟨hblock.1, ?_, Or.inl ((Sched.after_pc_current s).trans hyield),
            fun _ => hafter, fun hended => absurd ?_ hended⟩
          · show (s.kernel.ledger c.current).notificationValue = 0
            simp only [Action.ledger, hpc, Pc.ledger, WaitCall.enteredLedger] at hledger
            rw [hledger, if_neg hblock.1, takenLedger_notificationValue, hs.currentTask, if_pos rfl]
          · show (s.kernel.view c.current).state = .blocked
            rw [hview, hs.currentTask, Function.update_self]
            exact hon.1

end Ends

/-- A take fails only by its timeout exactly if it has a place for the
value, and the values notified to it while it waited, if any, do not add up
to 0, or its timeout has elapsed besides. -/
theorem takeFailsByTimeout_iff (img : Image) (c : Cfg) (value : Ptr) (timeout : UInt32)
    (waited : List Transition) (result : UInt32) (hreach : Reachable img c)
    (htimeout : timeout ≠ 0) (hcall : TakeCall c value timeout waited result) :
    FailsByTimeout timeout waited result
      ↔ value ≠ 0 ∧ ((∃ x ∈ waited, x.action.notifiesTask c.current = true) →
          (waited.map fun x => x.action.notifies c.current).sum ≠ 0
            ∨ timeout ≠ jrtWaitForever ∧ timeout.toNat ≤ ticksIn waited) := by
  obtain ⟨first, last, rfl, hcall⟩ := hcall
  have hs := hreach.sched
  cases hcall with
  | atOnce hpc haction hstep huser hresult =>
      rw [haction] at hstep
      have hzero := take_atOnce hpc (step_cases hstep) huser hresult htimeout
      constructor
      · intro hfails
        refine ⟨fun hnull => ?_, fun hnotified => ?_⟩
        · obtain ⟨-, hle⟩ := hfails (hzero.mpr hnull)
          exact htimeout (UInt32.toNat_inj.mp (Nat.le_zero.mp hle))
        · obtain ⟨x, hx, -⟩ := hnotified
          cases hx
      · rintro ⟨hvalue, -⟩ hresult
        exact absurd (hzero.mp hresult) hvalue
  | behindYield hpc haction₁ hstep₁ hblocks hrun hin haction hstep hcurrent huser hresult =>
      rw [haction₁] at hstep₁
      rw [haction] at hstep
      generalize first.post = c₁ at hstep₁ hblocks hrun
      generalize last.pre = c₂ at hrun hstep hcurrent
      generalize first.pre = c at *
      have hlt := hs.current_lt
      have hcases₁ := step_cases hstep₁
      obtain ⟨hvalue, hnone, hwait₁⟩ := take_blocks hs hpc hcases₁ hblocks
      have hs₁ := hs.step hcases₁
      have hlt₁ : c.current < c₁.kernel.taskCount := hcases₁.taskCount ▸ hlt
      have hs₂ : Sched c₂ := hrun.induction Sched (fun hs hst => hs.step hst) hs₁
      obtain ⟨hwait, hnothing⟩ := hwait₁.run hs₁ hlt₁ hrun hin
      have hcases := step_cases hstep
      -- The task returns, so it is running, behind its yield.
      obtain ⟨hp, hresumed⟩ := hwait.within.resumed hcases huser
      rw [← hcurrent] at hresumed
      have hended : (c₂.kernel.view c.current).state ≠ .blocked := by
        rw [← hcurrent, hs₂.current_running hp (by simp [hresumed])]
        decide
      have htaken := (take_resumed hs₂ hresumed hstep).2
      rw [hresult, hcurrent] at htaken
      have hvalue₂ : (c₂.kernel.tasks c.current).notificationValue
          = (waited.map fun x => x.action.notifies c.current).sum := by
        have hsum := hrun.notificationValue_of_no_take hs₁ hlt₁ hnothing
        rw [ledger_notificationValue, ledger_notificationValue, hnone, UInt32.zero_add] at hsum
        exact hsum
      rw [hvalue₂] at htaken
      obtain rfl := Option.some.inj htaken
      have hover := hwait.ended hended
      constructor
      · intro hfails
        refine ⟨hvalue, fun _ => ?_⟩
        by_cases hsum : (waited.map fun x => x.action.notifies c.current).sum = 0
        · exact Or.inr (hfails (by rw [hsum]; rfl))
        · exact Or.inl hsum
      · rintro ⟨-, hnotified⟩ hresult
        rcases hover with hsome | helapsed
        · rcases hnotified hsome with hsum | helapsed
          · rw [if_pos hsum] at hresult
            cases hresult
          · exact helapsed
        · exact helapsed

/-- The first of two tasks takes a notification with `timeout` and waits
while `actions` happen. -/
def takeRun (timeout : UInt32) (actions : List Action) : Option (Cfg × List Transition × UInt32) :=
  (sampleCall [2, 1] [.start, .call (.taskNotifyTake 4 timeout)] (.taskNotifyTake 4 timeout)
    actions).map fun r => (r.1.pre, r.2.1, r.2.2.2)

theorem takeRun_call {timeout result : UInt32} {actions : List Action} {c : Cfg}
    {waited : List Transition} (h : takeRun timeout actions = some (c, waited, result)) :
    Reachable .sample c ∧ TakeCall c 4 timeout waited result := by
  obtain ⟨⟨first, waited', last, result'⟩, hcall, heq⟩ := Option.map_eq_some_iff.mp h
  obtain ⟨rfl, rfl, rfl⟩ : first.pre = c ∧ waited' = waited ∧ result' = result := by
    simpa using heq
  obtain ⟨hreach, hrun⟩ := sampleCall_run hcall
  exact ⟨hreach, first, last, rfl, hrun⟩

/-- Notified of the value 0, a take that waits forever fails. -/
theorem take_fails_woken : ∃ c waited result,
    takeRun jrtWaitForever [.proceed fun _ => 0, .pendsv (sampleSp 0),
        .isr (.taskNotifyFromIsr 0 0), .pendsv (sampleSp 1)] = some (c, waited, result)
      ∧ Reachable .sample c ∧ TakeCall c 4 jrtWaitForever waited result
      ∧ ¬FailsByTimeout jrtWaitForever waited result := by
  have hsome : ((takeRun jrtWaitForever [.proceed fun _ => 0, .pendsv (sampleSp 0),
      .isr (.taskNotifyFromIsr 0 0), .pendsv (sampleSp 1)]).any fun r => r.2.2 == 0) = true := by
    decide +kernel
  obtain ⟨⟨c, waited, result⟩, hrun, hzero⟩ := (Option.any_eq_true _ _).mp hsome
  obtain ⟨hreach, hcall⟩ := takeRun_call hrun
  exact ⟨c, waited, result, hrun, hreach, hcall, fun hfails => (hfails (beq_iff_eq.mp hzero)).1 rfl⟩

/-- Notified of nothing, a take with a timeout of one tick fails behind that
tick. -/
theorem takeFailsByTimeout_iff_sample : ∃ c waited,
    takeRun 1 [.proceed fun _ => 0, .pendsv (sampleSp 0), .tick, .pendsv (sampleSp 1)]
        = some (c, waited, 0)
      ∧ FailsByTimeout 1 waited 0 := by
  have hsome : ((takeRun 1 [.proceed fun _ => 0, .pendsv (sampleSp 0), .tick,
      .pendsv (sampleSp 1)]).any fun r => r.2.2 == 0 && decide (1 ≤ ticksIn r.2.1)) = true := by
    decide +kernel
  obtain ⟨⟨c, waited, result⟩, hrun, hchecks⟩ := (Option.any_eq_true _ _).mp hsome
  rw [Bool.and_eq_true, beq_iff_eq, decide_eq_true_eq] at hchecks
  obtain ⟨rfl, hticks⟩ := hchecks
  obtain ⟨hreach, hcall⟩ := takeRun_call hrun
  exact ⟨c, waited, hrun, (takeFailsByTimeout_iff .sample c 4 1 waited 0 hreach (by decide)
    hcall).mpr ⟨by decide, fun _ => Or.inr ⟨by decide, hticks⟩⟩⟩

end JustRT
