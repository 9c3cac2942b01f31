import JustRT.Health

/-!
# Timers that expire early

`kernel_timer_tick` compares the tick with a deadline through the sign of
their difference, so a deadline more than half of the tick range ahead
looks as if it had passed. A start with a delay over `2^31 + 1` therefore
expires in its first tick, and one with any other delay never expires
early: `Armed` is what a run that leaves the timer alone keeps of it.
-/

namespace JustRT

open Alarm (ticks)

/-- The delay a call arms timer `t` with, if it arms it. -/
def Action.arms (c : Cfg) (t : Ptr) : Action → Option UInt32
  | .call (.timerStart a delayTicks) => if a = t then some delayTicks else none
  | .call (.timerStartPeriodic a periodTicks) =>
      if a = t ∧ periodTicks ≠ 0 then some periodTicks else none
  | .call (.timerRestart a) =>
      if a = t ∧ (c.kernel.timers t).reloadTicks ≠ 0 then some (c.kernel.timers t).reloadTicks
      else none
  | _ => none

/-- No tick before the `max(1, delay)`-th behind `c₁` records an expiration
of timer `t`, as long as no call starts, stops or creates it. -/
def NeverEarly (t : Ptr) (delay : UInt32) (c₁ : Cfg) : Prop :=
  ∀ mid c₂ k, Run c₁ mid c₂ → (∀ e ∈ timerEvents t mid, e.Keeps) →
    ticks (timerEvents t mid) + 1 < max 1 delay.toNat →
    kernelTimerTick (advanceTicks c₂.kernel) = .ok k →
    (k.timers t).expirations = (c₂.kernel.timers t).expirations

/-! ## A timer that is left alone -/

/-- The deadline of timer `t` is `n` ticks ahead. -/
structure Armed (t : Ptr) (n : Nat) (c : Cfg) : Prop where
  listed : ∃ l, Timers c.kernel l
  deadline : (c.kernel.timers t).deadline = c.kernel.gKernelTicks + .ofNat n

section Runs

variable {t : Ptr} {c c' : Cfg} {a : Action} {o : Observation} {n : Nat}

theorem timerEvent_eq_tick_iff : timerEvent t a = .tick ↔ a = .tick := by
  refine ⟨fun h => ?_, fun h => h ▸ rfl⟩
  cases a with
  | tick => rfl
  | call made =>
      cases made with
      | timerCreateStatic | timerStart | timerStartPeriodic | timerRestart | timerStop =>
          simp only [timerEvent] at h
          split at h <;> cases h
      | _ => cases h
  | _ => cases h

/-- A call that does not set the timer keeps its deadline. -/
theorem Action.onTimer_deadline (htick : a ≠ .tick) (hkeeps : (timerEvent t a).Keeps)
    (x : JrtTimer) : (a.onTimer c t x).deadline = x.deadline := by
  have hother : timerEvent t a = .other :=
    hkeeps.resolve_left fun h => htick (timerEvent_eq_tick_iff.mp h)
  cases a with
  | proceed source =>
      simp only [Action.onTimer]
      split <;> rfl
  | call made =>
      cases made with
      | timerCreateStatic timer | timerStart timer | timerStartPeriodic timer | timerRestart timer
      | timerStop timer =>
          have hne : timer ≠ t := fun heq => by simp [timerEvent, heq] at hother
          simp [Action.onTimer, Call.onTimer, hne]
      | timerSetCallback timer callback argument =>
          simp only [Action.onTimer, Call.onTimer]
          split <;> rfl
      | timerTakeExpirations timer =>
          simp only [Action.onTimer, Call.onTimer]
          split <;> rfl
      | timerDispatch timer =>
          simp only [Action.onTimer, Call.onTimer]
          split <;> rfl
      | _ => rfl
  | _ => rfl

/-- A tick ahead of the deadline expires nothing. -/
theorem ticked_of_ahead {x : JrtTimer} {now : UInt32} (hn : n ≠ 0) (hle : n ≤ 2147483648)
    (hdeadline : x.deadline = now + .ofNat n) : x.ticked now = x := by
  rw [JrtTimer.ticked, signedNonneg_ahead hn hle hdeadline]
  exact if_neg (by simp)

/-- A tick behind the deadline records an expiration. -/
theorem expirations_of_past {x : JrtTimer} {now : UInt32}
    (h : x.active ≠ 0 ∧ signedNonneg (now - x.deadline) = true) :
    (x.ticked now).expirations = x.expirations + 1 := by
  simp only [JrtTimer.ticked]
  rw [if_pos h]
  split <;> rfl

theorem advance_deadline {deadline now : UInt32} (h : deadline = now + .ofNat (n + 1)) :
    deadline = now + 1 + .ofNat n := by
  rw [h, ofNat_succ, UInt32.add_assoc, UInt32.add_comm 1]

/-- One step of a run that leaves the timer alone. -/
theorem Armed.step (h : Armed t (n + 1) c) (ht : t ≠ 0) (hn : n ≠ 0) (hle : n ≤ 2147483648)
    (hkeeps : (timerEvent t a).Keeps) (hstep : StepCases c a c' o) :
    Armed t (if timerEvent t a = .tick then n else n + 1) c' := by
  obtain ⟨l, hl⟩ := h.listed
  by_cases hevent : timerEvent t a = .tick
  · obtain rfl := timerEvent_eq_tick_iff.mp hevent
    rw [if_pos hevent]
    cases hstep with
    | thread _ _ hseg => cases hseg
    | tick _ hk =>
        obtain ⟨hl', htimers⟩ := tickTasks_timers hl hk
        have hdeadline := advance_deadline h.deadline
        have hticks := (tickTasks_frame hk).2.2.2.2.2.2.2.1
        refine ⟨⟨l, hl'⟩, ?_⟩
        rw [htimers, ticked_of_ahead hn hle hdeadline, ite_self, hticks]
        exact hdeadline
  · have htick : a ≠ .tick := fun h => hevent (timerEvent_eq_tick_iff.mpr h)
    rw [if_neg hevent]
    obtain ⟨⟨⟨l', hl', -⟩, next, hrecord⟩, hticks⟩ := step_onTimer hl ht hstep htick
    refine ⟨⟨l', hl'⟩, ?_⟩
    rw [hrecord, hticks]
    exact (Action.onTimer_deadline htick hkeeps _).trans h.deadline

/-- A run that leaves the timer alone brings its deadline nearer tick by
tick. -/
theorem Armed.run {tr : List Transition} {c₀ : Cfg} {d : Nat} (h : Armed t d c₀) (ht : t ≠ 0)
    (hle : d ≤ 2147483649) (hrun : Run c₀ tr c) (hkeeps : ∀ e ∈ timerEvents t tr, e.Keeps)
    (hticks : ticks (timerEvents t tr) + 1 < d) : Armed t (d - ticks (timerEvents t tr)) c := by
  induction hrun with
  | nil => exact h
  | @snoc tr c₁ c₂ a o hrun hstep ih =>
      have hevents : timerEvents t (tr ++ [⟨c₁, a, o, c₂⟩]) = timerEvents t tr ++ [timerEvent t a] :=
        List.map_append
      rw [hevents] at hkeeps hticks ⊢
      have hcount : ticks (timerEvents t tr ++ [timerEvent t a])
          = ticks (timerEvents t tr) + if timerEvent t a = .tick then 1 else 0 := by
        rw [ticks, List.count_append, List.count_singleton]
        exact congrArg _ (if_congr beq_iff_eq rfl rfl)
      rw [hcount] at hticks ⊢
      have hbefore := ih (fun e he => hkeeps e (List.mem_append_left _ he)) (by omega)
      obtain ⟨n, hn⟩ := Nat.exists_eq_succ_of_ne_zero
        (show d - ticks (timerEvents t tr) ≠ 0 by omega)
      rw [hn] at hbefore
      have hafter := hbefore.step ht (by omega) (by omega)
        (hkeeps _ (List.mem_append_right _ List.mem_cons_self)) (step_cases hstep)
      by_cases htick : timerEvent t a = .tick
      · rw [if_pos htick] at hafter ⊢
        have hnext : d - (ticks (timerEvents t tr) + 1) = n := by omega
        rwa [hnext]
      · rw [if_neg htick] at hafter ⊢
        rwa [Nat.add_zero, hn]

/-! ## A start -/

/-- What a call that arms the timer does: it links the timer, and writes the
deadline. -/
theorem Action.arms_spec {l : List Ptr} {delay : UInt32} (ht : t ≠ 0)
    (harms : a.arms c t = some delay) :
    ∃ made, a = .call made ∧ t ∈ made.timersBehind c.kernel l
      ∧ (a.onTimer c t (c.kernel.timers t)).active = 1
      ∧ (a.onTimer c t (c.kernel.timers t)).deadline = c.kernel.gKernelTicks + delay := by
  cases a with
  | call made =>
      cases made with
      | timerStart timer delayTicks =>
          simp only [Action.arms] at harms
          split at harms
          · next htimer =>
              obtain rfl := Option.some.inj harms
              refine ⟨_, rfl, ?_, ?_, ?_⟩
              · simp [Call.timersBehind, htimer, ht, mem_linkedList]
              · simp [Action.onTimer, Call.onTimer, htimer, JrtTimer.started]
              · simp [Action.onTimer, Call.onTimer, htimer, JrtTimer.started]
          · cases harms
      | timerStartPeriodic timer periodTicks =>
          simp only [Action.arms] at harms
          split at harms
          · next hset =>
              obtain rfl := Option.some.inj harms
              refine ⟨_, rfl, ?_, ?_, ?_⟩
              · simp [Call.timersBehind, hset, ht, mem_linkedList]
              · simp [Action.onTimer, Call.onTimer, hset, JrtTimer.startedPeriodic]
              · simp [Action.onTimer, Call.onTimer, hset, JrtTimer.startedPeriodic]
          · cases harms
      | timerRestart timer =>
          simp only [Action.arms] at harms
          split at harms
          · next hset =>
              obtain rfl := Option.some.inj harms
              refine ⟨_, rfl, ?_, ?_, ?_⟩
              · simp [Call.timersBehind, hset, ht, mem_linkedList]
              · simp [Action.onTimer, Call.onTimer, hset, JrtTimer.restarted]
              · simp [Action.onTimer, Call.onTimer, hset, JrtTimer.restarted]
          · cases harms
      | _ => cases harms
  | _ => cases harms

/-- Behind the call that arms it, the timer is listed and active, and its
deadline is the whole delay ahead. -/
theorem armed_of_arms {l : List Ptr} {delay : UInt32} (hl : Timers c.kernel l) (ht : t ≠ 0)
    (hstep : StepCases c a c' o) (harms : a.arms c t = some delay) :
    ∃ l', Timers c'.kernel l' ∧ t ∈ l' ∧ (c'.kernel.timers t).active ≠ 0
      ∧ (c'.kernel.timers t).deadline = c'.kernel.gKernelTicks + delay := by
  obtain ⟨made, rfl, hmem, hactive, hdeadline⟩ := Action.arms_spec (l := l) ht harms
  obtain ⟨⟨-, next, hrecord⟩, hticks⟩ := step_onTimer hl ht hstep (by simp)
  cases hstep with
  | thread _ _ hseg =>
      cases hseg with
      | call _ _ hs =>
          refine ⟨_, enter_timersBehind hl hs, hmem, ?_, ?_⟩
          · rw [hrecord]
            refine ne_of_eq_of_ne hactive (by decide)
          · rw [hrecord, hticks]
            exact hdeadline

end Runs

/-! ## When no start expires early -/

/-- The first tick behind a start with a delay over `2^31 + 1` expires it. -/
theorem early_of_far {t : Ptr} {k k' : Kernel} {l : List Ptr} {delay : UInt32} (hl : Timers k l)
    (hmem : t ∈ l) (hactive : (k.timers t).active ≠ 0)
    (hdeadline : (k.timers t).deadline = k.gKernelTicks + delay)
    (hfar : 2147483649 < delay.toNat) (htick : kernelTimerTick (advanceTicks k) = .ok k') :
    (k'.timers t).expirations ≠ (k.timers t).expirations := by
  have hl₁ : Timers (advanceTicks k) l := hl
  rw [kernelTimerTick_eq hl₁] at htick
  obtain rfl := Except.ok.inj htick
  rw [foldl_timerTickStep_timers _ hl₁.nodup, if_pos hmem]
  have hpast : signedNonneg (k.gKernelTicks + 1 - (k.timers t).deadline) = true := by
    refine signedNonneg_far (n := delay.toNat - 1) (by omega) ?_ ?_
    · have hlt := delay.toNat_lt
      omega
    · refine advance_deadline ?_
      rw [hdeadline, Nat.sub_add_cancel (by omega), UInt32.ofNat_toNat]
  change (((k.timers t).ticked (k.gKernelTicks + 1)).expirations) ≠ _
  rw [expirations_of_past ⟨hactive, hpast⟩]
  intro hsame
  have hwords := congrArg UInt32.toNat hsame
  rw [UInt32.toNat_add] at hwords
  change ((k.timers t).expirations.toNat + 1) % 2 ^ 32 = _ at hwords
  omega

theorem not_neverEarly {c₁ : Cfg} {t : Ptr} {l : List Ptr} {delay : UInt32}
    (hl : Timers c₁.kernel l) (hmem : t ∈ l) (hactive : (c₁.kernel.timers t).active ≠ 0)
    (hdeadline : (c₁.kernel.timers t).deadline = c₁.kernel.gKernelTicks + delay)
    (hfar : 2147483649 < delay.toNat) : ¬NeverEarly t delay c₁ := by
  intro hnever
  obtain ⟨k, hk⟩ : ∃ k, kernelTimerTick (advanceTicks c₁.kernel) = .ok k :=
    ⟨_, kernelTimerTick_eq (k := advanceTicks c₁.kernel) hl⟩
  refine early_of_far hl hmem hactive hdeadline hfar hk ?_
  refine hnever [] c₁ k .nil (fun e he => nomatch he) ?_ hk
  exact Nat.lt_of_lt_of_le (show 0 + 1 < delay.toNat by omega) (Nat.le_max_right 1 delay.toNat)

/-- Up to a delay of `2^31 + 1` ticks, every tick of a run ahead of the
deadline passes the timer by. -/
theorem neverEarly_of_armed {c₁ : Cfg} {t : Ptr} {delay : UInt32} (ht : t ≠ 0)
    (harmed : Armed t delay.toNat c₁) (hle : delay.toNat ≤ 2147483649) :
    NeverEarly t delay c₁ := by
  intro mid c₂ k hrun hkeeps hticks htick
  have hticks' : ticks (timerEvents t mid) + 1 < delay.toNat := by
    rcases Nat.lt_or_ge 1 delay.toNat with hone | hone
    · rwa [Nat.max_eq_right (Nat.le_of_lt hone)] at hticks
    · rw [Nat.max_eq_left hone] at hticks
      omega
  obtain ⟨⟨l, hl⟩, hdeadline⟩ := harmed.run ht hle hrun hkeeps hticks'
  obtain ⟨n, hn⟩ := Nat.exists_eq_succ_of_ne_zero
    (show delay.toNat - ticks (timerEvents t mid) ≠ 0 by omega)
  rw [hn] at hdeadline
  have hl₁ : Timers (advanceTicks c₂.kernel) l := hl
  rw [kernelTimerTick_eq hl₁] at htick
  obtain rfl := Except.ok.inj htick
  rw [foldl_timerTickStep_timers _ hl₁.nodup]
  have hsame : (c₂.kernel.timers t).ticked (c₂.kernel.gKernelTicks + 1) = c₂.kernel.timers t :=
    ticked_of_ahead (n := n) (by omega) (by omega) (advance_deadline hdeadline)
  split
  · exact congrArg JrtTimer.expirations hsame
  · rfl

/-- A start of timer `t` never expires early exactly if its delay is at most
`2^31 + 1` ticks, for each call that arms a timer and at any tick. -/
theorem neverEarly_iff (c c₁ : Cfg) (a : Action) (o : Observation) (t : Ptr) (l : List Ptr)
    (delay : UInt32) (hl : Timers c.kernel l) (ht : t ≠ 0) (hstep : step c a = some (c₁, o))
    (harms : a.arms c t = some delay) : NeverEarly t delay c₁ ↔ delay.toNat ≤ 2147483649 := by
  obtain ⟨l₁, hl₁, hmem, hactive, hdeadline⟩ := armed_of_arms hl ht (step_cases hstep) harms
  constructor
  · intro hnever
    by_contra hfar
    exact not_neverEarly hl₁ hmem hactive hdeadline (by omega) hnever
  · intro hle
    refine neverEarly_of_armed ht ⟨⟨l₁, hl₁⟩, ?_⟩ hle
    rw [hdeadline, UInt32.ofNat_toNat]

/-- The sample system with timer 16 created. -/
def timerCreatedActions : List Action := [.start, .call (.timerCreateStatic 16)]

theorem timerCreated_timers {tr : List Transition} {c : Cfg}
    (h : sampleRun [1] timerCreatedActions = some (tr, c)) : ∃ l, Timers c.kernel l := by
  obtain ⟨c₀, hboot, hrun⟩ := sampleRun_run h
  obtain ⟨l, hwork⟩ := hrun.induction (fun c => ∃ l, TimerWork c.kernel l)
    (fun h hstep => TimerWork.step h hstep) ⟨[], (sampleBoot_timersZeroed hboot).work⟩
  exact ⟨l, hwork.list⟩

/-- A start with a delay of `2^31 + 2` ticks expires in its first tick. -/
theorem neverEarly_violated : ∃ tr c c₁ o c₂ o₂, sampleRun [1] timerCreatedActions = some (tr, c)
    ∧ step c (.call (.timerStart 16 2147483650)) = some (c₁, o)
    ∧ step c₁ .tick = some (c₂, o₂) ∧ (c₂.kernel.timers 16).expirations = 1
    ∧ ¬NeverEarly 16 2147483650 c₁ := by
  have hsome : ((sampleRun [1] timerCreatedActions).bind fun r =>
      (step r.2 (.call (.timerStart 16 2147483650))).bind fun r₁ =>
        (step r₁.1 .tick).filter fun r₂ => (r₂.1.kernel.timers 16).expirations == 1).isSome
      = true := by
    decide +kernel
  obtain ⟨⟨c₂, o₂⟩, hbind⟩ := Option.isSome_iff_exists.mp hsome
  obtain ⟨⟨tr, c⟩, hrun, hbind⟩ := Option.bind_eq_some_iff.mp hbind
  obtain ⟨⟨c₁, o⟩, hstep, hbind⟩ := Option.bind_eq_some_iff.mp hbind
  obtain ⟨htick, hrecorded⟩ := Option.filter_eq_some_iff.mp hbind
  obtain ⟨l, hl⟩ := timerCreated_timers hrun
  obtain ⟨l₁, hl₁, hmem, hactive, hdeadline⟩ := armed_of_arms (t := 16) hl (by decide)
    (step_cases hstep) rfl
  refine ⟨tr, c, c₁, o, c₂, o₂, hrun, hstep, htick, eq_of_beq hrecorded, ?_⟩
  exact not_neverEarly hl₁ hmem hactive hdeadline (by decide)

/-- A periodic start with the greatest period that is safe. -/
theorem neverEarly_iff_sample : ∃ tr c c₁ o, sampleRun [1] timerCreatedActions = some (tr, c)
    ∧ step c (.call (.timerStartPeriodic 16 2147483649)) = some (c₁, o)
    ∧ NeverEarly 16 2147483649 c₁ := by
  have hsome : ((sampleRun [1] timerCreatedActions).bind fun r =>
      step r.2 (.call (.timerStartPeriodic 16 2147483649))).isSome = true := by
    decide +kernel
  obtain ⟨⟨c₁, o⟩, hbind⟩ := Option.isSome_iff_exists.mp hsome
  obtain ⟨⟨tr, c⟩, hrun, hstep⟩ := Option.bind_eq_some_iff.mp hbind
  obtain ⟨l, hl⟩ := timerCreated_timers hrun
  refine ⟨tr, c, c₁, o, hrun, hstep, ?_⟩
  exact (neverEarly_iff c c₁ _ o 16 l 2147483649 hl (by decide) hstep rfl).mpr (by decide)

end JustRT
