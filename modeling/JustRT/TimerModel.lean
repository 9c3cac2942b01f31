import JustRT.TimerService
import JustRT.Lib.Alarm

/-!
# Timers keep unbounded time

A timer counts in 32-bit ticks that wrap and compares deadlines by sign;
the reference `Alarm` counts in `Nat`. `Tracks` relates the two, every
step of the system keeps it, and so a timer records an expiration in
exactly the ticks in which its alarm goes off. What becomes of a recorded
expiration is a balance kept beside it.

The relation needs the delay to be at most half of the tick range, which
is what makes the sign tell the past from the future; for the others see
`JustRT.Early`. Nothing is asked of the tick counter: the reference takes
no notice of where it stands, and wraps of it are met on the way.
-/

namespace JustRT

open Chain

/-! ## Words against unbounded time -/

/-- The signed comparison of a tick with a deadline less than half the
range ahead says whether the deadline is reached. -/
theorem signedNonneg_ofNat_sub {m j : Nat} (hj : j < 2147483648) :
    signedNonneg (UInt32.ofNat m - UInt32.ofNat (m + j)) = decide (j = 0) := by
  have hword : (UInt32.ofNat m - UInt32.ofNat (m + j)).toNat = (4294967296 - j) % 4294967296 := by
    rw [UInt32.toNat_sub, UInt32.toNat_ofNat', UInt32.toNat_ofNat']
    omega
  rw [signedNonneg]
  refine decide_eq_decide.mpr ?_
  rw [UInt32.lt_iff_toNat_lt, hword]
  show (4294967296 - j) % 4294967296 < 2147483648 ↔ j = 0
  omega

theorem ofNat_succ (n : Nat) : UInt32.ofNat (n + 1) = UInt32.ofNat n + 1 := UInt32.ofNat_add n 1

/-! ## A timer and its reference -/

/-- The bounds on delays and periods: `1` to `2^31`. -/
def delayInRange : Alarm.Event → Prop
  | .once delay => delay ≠ 0 ∧ delay ≤ 2147483648
  | .every period => period ≠ 0 ∧ period ≤ 2147483648
  | _ => True

/-- At the tick `now` the timer `t` is set as the alarm `s` is. The alarm
counts ticks without end and the timer modulo `2^32`; the bound on delays keeps
the next expiry within half of the range, where the two orders agree. -/
structure Tracks (t : JrtTimer) (now : UInt32) (s : Alarm.State) : Prop where
  now : now = .ofNat s.now
  active : t.active ≠ 0 ↔ s.due.isSome = true
  deadline : ∀ due, s.due = some due → ∃ j, j ≠ 0 ∧ j ≤ 2147483648 ∧ due = s.now + j
    ∧ t.deadline = .ofNat due
  delay_ne : s.due.isSome = true → s.delay ≠ 0
  delay_le : s.delay ≤ 2147483648
  reload : t.reloadTicks = .ofNat s.delay
  periodic : t.periodic ≠ 0 ↔ s.periodic = true
  period : s.periodic = true → t.period = .ofNat s.delay

namespace Tracks

variable {t t' : JrtTimer} {now : UInt32} {s : Alarm.State}

theorem created (next : Ptr) {n : Nat} (hnow : now = .ofNat n) :
    Tracks (.created next) now (.unset n) := by
  refine ⟨hnow, ?_, ?_, ?_, ?_, rfl, ?_, ?_⟩ <;> simp [JrtTimer.created, Alarm.State.unset]

theorem of_set_eq (h : Tracks t now s) (hdeadline : t'.deadline = t.deadline)
    (hperiod : t'.period = t.period) (hreload : t'.reloadTicks = t.reloadTicks)
    (hactive : t'.active = t.active) (hperiodic : t'.periodic = t.periodic) :
    Tracks t' now s := by
  refine ⟨h.now, ?_, ?_, h.delay_ne, h.delay_le, ?_, ?_, ?_⟩
  · rw [hactive]
    exact h.active
  · rw [hdeadline]
    exact h.deadline
  · rw [hreload]
    exact h.reload
  · rw [hperiodic]
    exact h.periodic
  · rw [hperiod]
    exact h.period

theorem withNext (h : Tracks t now s) (next : Ptr) : Tracks (t.withNext next) now s :=
  h.of_set_eq rfl rfl rfl rfl rfl

theorem started (h : Tracks t now s) {delayTicks : UInt32}
    (hd : delayInRange (.once delayTicks.toNat)) :
    Tracks (t.started now delayTicks) now (s.step (.once delayTicks.toNat)) := by
  obtain ⟨hne, hle⟩ := hd
  have hsum : UInt32.ofNat (s.now + delayTicks.toNat) = now + delayTicks := by
    rw [UInt32.ofNat_add, h.now, UInt32.ofNat_toNat]
  refine ⟨h.now, ?_, ?_, fun _ => hne, hle, UInt32.ofNat_toNat.symm, ?_, ?_⟩
  · simp [JrtTimer.started, Alarm.State.step]
  · intro due hdue
    obtain rfl := Option.some.inj hdue
    exact ⟨delayTicks.toNat, hne, hle, rfl, hsum.symm⟩
  · simp [JrtTimer.started, Alarm.State.step]
  · intro hperiodic
    cases hperiodic

theorem startedPeriodic (h : Tracks t now s) {periodTicks : UInt32}
    (hp : delayInRange (.every periodTicks.toNat)) :
    Tracks (t.startedPeriodic now periodTicks) now (s.step (.every periodTicks.toNat)) := by
  obtain ⟨hne, hle⟩ := hp
  have hsum : UInt32.ofNat (s.now + periodTicks.toNat) = now + periodTicks := by
    rw [UInt32.ofNat_add, h.now, UInt32.ofNat_toNat]
  refine ⟨h.now, ?_, ?_, fun _ => hne, hle, UInt32.ofNat_toNat.symm, ?_,
    fun _ => UInt32.ofNat_toNat.symm⟩
  · simp [JrtTimer.startedPeriodic, Alarm.State.step]
  · intro due hdue
    obtain rfl := Option.some.inj hdue
    exact ⟨periodTicks.toNat, hne, hle, rfl, hsum.symm⟩
  · simp [JrtTimer.startedPeriodic, Alarm.State.step]

/-- The reload word is zero exactly if the alarm was never set. -/
theorem reload_eq_zero_iff (h : Tracks t now s) : t.reloadTicks = 0 ↔ s.delay = 0 := by
  have hle := h.delay_le
  have hword : (UInt32.ofNat s.delay).toNat = s.delay := by
    rw [UInt32.toNat_ofNat']
    omega
  rw [h.reload]
  constructor
  · intro hzero
    rw [← hword, hzero]
    rfl
  · intro hzero
    rw [hzero]
    rfl

theorem restarted (h : Tracks t now s) (hreload : t.reloadTicks ≠ 0) :
    Tracks (t.restarted now) now (s.step .rearm) := by
  have hne : s.delay ≠ 0 := fun hzero => hreload (h.reload_eq_zero_iff.mpr hzero)
  have hsum : UInt32.ofNat (s.now + s.delay) = now + t.reloadTicks := by
    rw [UInt32.ofNat_add, h.now, h.reload]
  simp only [Alarm.State.step, hne, if_false]
  refine ⟨h.now, ?_, ?_, fun _ => hne, h.delay_le, h.reload, h.periodic, h.period⟩
  · simp [JrtTimer.restarted]
  · intro due hdue
    obtain rfl := Option.some.inj hdue
    exact ⟨s.delay, hne, h.delay_le, rfl, hsum.symm⟩

theorem stopped (h : Tracks t now s) : Tracks (t.withActive 0) now (s.step .cancel) := by
  refine ⟨h.now, ?_, ?_, ?_, h.delay_le, h.reload, h.periodic, h.period⟩
  · simp [JrtTimer.withActive, Alarm.State.step]
  · intro due hdue
    cases hdue
  · intro hdue
    cases hdue

/-- The timer expires in the tick in which the alarm goes off. -/
theorem expires_iff (h : Tracks t now s) :
    t.active ≠ 0 ∧ signedNonneg (now + 1 - t.deadline) = true ↔ s.ringing = true := by
  rw [h.active, Alarm.State.ringing]
  cases hdue : s.due with
  | none => simp
  | some due =>
      obtain ⟨j, hj, hle, rfl, hdeadline⟩ := h.deadline due hdue
      obtain ⟨j, rfl⟩ := Nat.exists_eq_succ_of_ne_zero hj
      have hsigned := signedNonneg_ofNat_sub (m := s.now + 1) (show j < 2147483648 by omega)
      have hsum : s.now + 1 + j = s.now + (j + 1) := by omega
      rw [hdeadline, h.now, ← ofNat_succ, ← hsum, hsigned]
      simp

/-- The deadline of a periodic timer that expired is a period on. -/
theorem deadline_add_period (h : Tracks t now s) (hring : s.ringing = true)
    (hperiodic : s.periodic = true) :
    t.deadline + t.period = .ofNat (s.now + 1 + s.delay) := by
  obtain ⟨-, -, -, -, hdeadline⟩ := h.deadline _ (by simpa [Alarm.State.ringing] using hring)
  rw [hdeadline, h.period hperiodic, ← UInt32.ofNat_add]

theorem ticked (h : Tracks t now s) :
    Tracks (t.ticked (now + 1)) (now + 1) (s.step .tick) := by
  have hnow : now + 1 = .ofNat (s.now + 1) := by rw [h.now, ofNat_succ]
  show Tracks (t.ticked (now + 1)) (now + 1) s.ticked
  by_cases hring : s.ringing = true
  · -- The alarm goes off: a periodic one is due again, any other is spent.
    have hexpires := h.expires_iff.mpr hring
    have hdelay : s.delay ≠ 0 := h.delay_ne (h.active.mp hexpires.1)
    simp only [JrtTimer.ticked, if_pos hexpires]
    cases hperiodic : s.periodic with
    | true =>
        have hword : t.periodic ≠ 0 := h.periodic.mpr hperiodic
        have hdue : s.ticked.due = some (s.now + 1 + s.delay) := by
          simp [Alarm.State.ticked, hring, hperiodic]
        rw [if_pos (show (t.withExpirations (t.expirations + 1)).periodic ≠ 0 from hword)]
        refine ⟨hnow, ?_, ?_, fun _ => hdelay, h.delay_le, h.reload, h.periodic, h.period⟩
        · show t.active ≠ 0 ↔ s.ticked.due.isSome = true
          simpa [hdue] using hexpires.1
        · intro due heq
          rw [hdue] at heq
          obtain rfl := Option.some.inj heq
          exact ⟨s.delay, hdelay, h.delay_le, rfl, h.deadline_add_period hring hperiodic⟩
    | false =>
        have hword : ¬t.periodic ≠ 0 := fun hne => by
          have := h.periodic.mp hne
          rw [hperiodic] at this
          cases this
        have hdue : s.ticked.due = none := by simp [Alarm.State.ticked, hring, hperiodic]
        rw [if_neg (show ¬(t.withExpirations (t.expirations + 1)).periodic ≠ 0 from hword)]
        refine ⟨hnow, ?_, ?_, ?_, h.delay_le, h.reload, h.periodic, h.period⟩
        · simp [hdue, JrtTimer.withActive]
        · intro due heq
          rw [hdue] at heq
          cases heq
        · intro hsome
          rw [hdue] at hsome
          cases hsome
  · have hkeeps : ¬(t.active ≠ 0 ∧ signedNonneg (now + 1 - t.deadline) = true) :=
      fun hexpires => hring (h.expires_iff.mp hexpires)
    have hdue : s.ticked.due = s.due := by simp [Alarm.State.ticked, hring]
    simp only [JrtTimer.ticked, if_neg hkeeps]
    refine ⟨hnow, ?_, ?_, ?_, h.delay_le, h.reload, h.periodic, h.period⟩
    · rw [hdue]
      exact h.active
    · intro due heq
      rw [hdue] at heq
      obtain ⟨j, hj, hle, hsum, hdeadline⟩ := h.deadline due heq
      have hone : j ≠ 1 := fun hone => hring (by simp [Alarm.State.ringing, heq, hsum, hone])
      refine ⟨j - 1, by omega, by omega, ?_, hdeadline⟩
      show due = s.now + 1 + (j - 1)
      omega
    · rw [hdue]
      exact h.delay_ne

/-- A tick records an expiration exactly where the alarm goes off. -/
theorem ticked_expirations (h : Tracks t now s) :
    (t.ticked (now + 1)).expirations = t.expirations + .ofNat (s.rings .tick) := by
  by_cases hring : s.ringing = true
  · simp only [JrtTimer.ticked, if_pos (h.expires_iff.mpr hring)]
    have hone : s.rings .tick = 1 := by simp [Alarm.State.rings, hring]
    rw [hone]
    split <;> rfl
  · have hkeeps := fun hexpires => hring (h.expires_iff.mp hexpires)
    have hzero : s.rings .tick = 0 := by simp [Alarm.State.rings, hring]
    simp only [JrtTimer.ticked, if_neg hkeeps, hzero]
    simp

end Tracks

/-! ## What a call does to one timer -/

/-- What happens to timer `t` in an action, as an event of its alarm. -/
def timerEvent (t : Ptr) : Action → Alarm.Event
  | .tick => .tick
  | .call (.timerCreateStatic a) => if a = t then .reset else .other
  | .call (.timerStart a delayTicks) => if a = t then .once delayTicks.toNat else .other
  | .call (.timerStartPeriodic a periodTicks) => if a = t then .every periodTicks.toNat else .other
  | .call (.timerRestart a) => if a = t then .rearm else .other
  | .call (.timerStop a) => if a = t then .cancel else .other
  | _ => .other

/-- The record of timer `t` behind a call at the tick `now`, up to its
link. -/
def Call.onTimer (t : Ptr) (now : UInt32) (x : JrtTimer) : Call → JrtTimer
  | .timerCreateStatic a => if a = t then .created x.next else x
  | .timerSetCallback a callback argument => if a = t then x.withCallback callback argument else x
  | .timerStart a delayTicks => if a = t then x.started now delayTicks else x
  | .timerStartPeriodic a periodTicks =>
      if a = t ∧ periodTicks ≠ 0 then x.startedPeriodic now periodTicks else x
  | .timerRestart a => if a = t ∧ x.reloadTicks ≠ 0 then x.restarted now else x
  | .timerStop a => if a = t then x.withActive 0 else x
  | .timerTakeExpirations a => if a = t then x.withExpirations 0 else x
  | .timerDispatch a => if a = t ∧ x.callback ≠ 0 then x.withExpirations 0 else x
  | _ => x

theorem Call.onTimer_of_ne {call : Call} (h : call.objectKind ≠ .timer) (t : Ptr) (now : UInt32)
    (x : JrtTimer) : call.onTimer t now x = x := by
  cases call <;> first | rfl | exact absurd rfl h

/-- Behind a call, timer `t` has the record `x` up to its link, and it is
listed if it was or if it runs for the first time. -/
structure OnTimer (t : Ptr) (l : List Ptr) (active : UInt8) (x : JrtTimer) (k' : Kernel) :
    Prop where
  listed : ∃ l', Timers k' l' ∧ l ⊆ l' ∧ ((k'.timers t).active ≠ 0 → active ≠ 0 ∨ t ∈ l')
  record : ∃ next, k'.timers t = x.withNext next

section OnTimer

variable {k k' : Kernel} {l : List Ptr} {t timer : Ptr}

theorem OnTimer.of_eq (h : Timers k l) (htimers : k'.timers = k.timers)
    (hlist : k'.timerList = k.timerList) :
    OnTimer t l (k.timers t).active (k.timers t) k' := by
  refine ⟨⟨l, h.of_eq htimers hlist, List.Subset.refl l, ?_⟩, (k.timers t).next, ?_⟩
  · rw [htimers]
    exact Or.inl
  · rw [htimers]
    rfl

theorem OnTimer.setTimer (h : Timers k l) {x : JrtTimer}
    (hnext : x.next = (k.timers timer).next)
    (hactive : x.active ≠ 0 → (k.timers timer).active ≠ 0) :
    OnTimer t l (k.timers t).active (if timer = t then x else k.timers t) (k.setTimer timer x) := by
  refine ⟨⟨l, h.setTimer fun _ => hnext, List.Subset.refl l, ?_⟩, ?_⟩
  · rw [setTimer_timers]
    by_cases ht : t = timer
    · rw [if_pos ht, ht]
      exact fun ha => Or.inl (hactive ha)
    · rw [if_neg ht]
      exact Or.inl
  · rw [setTimer_timers]
    by_cases ht : t = timer
    · rw [if_pos ht, if_pos ht.symm]
      exact ⟨x.next, rfl⟩
    · rw [if_neg ht, if_neg (Ne.symm ht)]
      exact ⟨(k.timers t).next, rfl⟩

theorem timerLinkLocked_ticks (h : Timers k l) (hne : timer ≠ 0)
    (hlink : timerLinkLocked k timer = .ok k') : k'.gKernelTicks = k.gKernelTicks := by
  obtain ⟨k₁, hok, -, -, hticks⟩ := timerLinkLocked_spec h hne
  rw [hlink] at hok
  rw [Except.ok.inj hok, hticks]

/-- A timer is linked and its record is rewritten by `f`. -/
theorem OnTimer.link (h : Timers k l) (hne : timer ≠ 0) (hlink : timerLinkLocked k timer = .ok k')
    {f : JrtTimer → JrtTimer} (hf : ∀ x next, f (x.withNext next) = (f x).withNext next) :
    OnTimer t l (k.timers t).active (if timer = t then f (k.timers t) else k.timers t)
      (k'.setTimer timer (f (k'.timers timer))) := by
  obtain ⟨k₁, hok, hlist, htimers, -⟩ := timerLinkLocked_spec h hne
  rw [hlink] at hok
  obtain rfl := Except.ok.inj hok
  have hnext : ∀ x, (f x).next = x.next := fun x => by
    have hsame : x.withNext x.next = x := rfl
    rw [← hsame, hf]
    rfl
  obtain ⟨next, ht⟩ := htimers t
  refine ⟨⟨linkedList l timer, hlist.setTimer fun _ => hnext _, ?_, ?_⟩, ?_⟩
  · exact fun a ha => mem_linkedList.mpr (Or.inr ha)
  · rw [setTimer_timers]
    by_cases heq : t = timer
    · exact fun _ => Or.inr (mem_linkedList.mpr (Or.inl heq))
    · rw [if_neg heq, ht]
      exact Or.inl
  · rw [setTimer_timers]
    by_cases heq : t = timer
    · rw [if_pos heq, if_pos heq.symm, ← heq, ht, hf]
      exact ⟨next, rfl⟩
    · rw [if_neg heq, if_neg (Ne.symm heq), ht]
      exact ⟨next, rfl⟩

theorem OnTimer.congr {k₁ : Kernel} {active : UInt8} {x : JrtTimer} (h : OnTimer t l active x k₁)
    (htimers : k'.timers = k₁.timers) (hlist : k'.timerList = k₁.timerList) :
    OnTimer t l active x k' := by
  obtain ⟨⟨l', hl', hsub, hmem⟩, hrecord⟩ := h
  refine ⟨⟨l', hl'.of_eq htimers hlist, hsub, ?_⟩, ?_⟩
  · rw [htimers]
    exact hmem
  · rw [htimers]
    exact hrecord

/-- A write of `f` to the record of `timer`, as every timer sees it. -/
theorem OnTimer.modify (h : Timers k l) (timer : Ptr) {f : JrtTimer → JrtTimer}
    (hnext : ∀ x, (f x).next = x.next) (hactive : ∀ x, (f x).active ≠ 0 → x.active ≠ 0) :
    OnTimer t l (k.timers t).active (if timer = t then f (k.timers t) else k.timers t)
      (k.setTimer timer (f (k.timers timer))) := by
  have hwrite := OnTimer.setTimer (t := t) h (hnext (k.timers timer)) (hactive (k.timers timer))
  rwa [ite_congr rfl (fun heq => by rw [heq]) fun _ => rfl] at hwrite

theorem OnTimer.create (h : Timers k l) (ht : t ≠ 0)
    (hcreate : jrtTimerCreateStatic k timer = .ok k') :
    OnTimer t l (k.timers t).active
      (if timer = t then .created (k.timers t).next else k.timers t) k' := by
  unfold jrtTimerCreateStatic at hcreate
  split at hcreate
  · next hzero =>
      obtain rfl := Except.ok.inj hcreate
      rw [if_neg fun heq => ht (heq.symm.trans hzero)]
      exact .of_eq h rfl rfl
  · next hne =>
      rw [timerIsLinkedLocked_eq h] at hcreate
      have hcreated : Timers (k.setTimer timer (.created
          (if decide (timer ∈ l) = true then (k.timers timer).next else 0))) l :=
        h.setTimer fun hmem => by simp [hmem, JrtTimer.created]
      obtain ⟨k₁, hok, hlist, htimers, -⟩ := timerLinkLocked_spec hcreated hne
      have heq : k₁ = k' := Except.ok.inj (hok.symm.trans hcreate)
      subst heq
      obtain ⟨next, hrecord⟩ := htimers t
      rw [setTimer_timers] at hrecord
      refine ⟨⟨linkedList l timer, hlist, fun a ha => mem_linkedList.mpr (Or.inr ha), ?_⟩, next, ?_⟩
      · by_cases htimer : t = timer
        · exact fun _ => Or.inr (mem_linkedList.mpr (Or.inl htimer))
        · rw [hrecord, if_neg htimer]
          exact Or.inl
      · rw [hrecord]
        by_cases htimer : t = timer
        · rw [if_pos htimer, if_pos htimer.symm]
          rfl
        · rw [if_neg htimer, if_neg (Ne.symm htimer)]

theorem OnTimer.setCallback (h : Timers k l) (ht : t ≠ 0) (timer callback argument : Ptr) :
    OnTimer t l (k.timers t).active
      (if timer = t then (k.timers t).withCallback callback argument else k.timers t)
      (jrtTimerSetCallback k timer callback argument).2 := by
  by_cases htimer : timer = 0
  · rw [jrtTimerSetCallback, if_pos htimer, if_neg fun heq => ht (heq.symm.trans htimer)]
    exact .of_eq h rfl rfl
  · have hwrite := OnTimer.modify (t := t) h timer
      (f := fun x => x.withCallback callback argument) (fun _ => rfl) fun _ => id
    have hcall : (jrtTimerSetCallback k timer callback argument).2.timers
          = (k.setTimer timer ((k.timers timer).withCallback callback argument)).timers
        ∧ (jrtTimerSetCallback k timer callback argument).2.timerList = k.timerList := by
      simp only [jrtTimerSetCallback, if_neg htimer]
      split <;> simp
    exact hwrite.congr hcall.1 hcall.2

theorem OnTimer.start (h : Timers k l) (ht : t ≠ 0) {delayTicks : UInt32}
    (hstart : jrtTimerStart k timer delayTicks = .ok k') :
    OnTimer t l (k.timers t).active
      (if timer = t then (k.timers t).started k.gKernelTicks delayTicks else k.timers t) k' := by
  unfold jrtTimerStart at hstart
  split at hstart
  · next hzero =>
      obtain rfl := Except.ok.inj hstart
      rw [if_neg fun heq => ht (heq.symm.trans hzero)]
      exact .of_eq h rfl rfl
  · next hne =>
      rw [exec_bind_eq_ok] at hstart
      obtain ⟨k₁, hlink, hstart⟩ := hstart
      obtain rfl := Except.ok.inj hstart
      rw [(timerLinkLocked_ticks h hne hlink)]
      exact .link h hne hlink (f := fun x => x.started k.gKernelTicks delayTicks) fun _ _ => rfl

theorem OnTimer.startPeriodic (h : Timers k l) (ht : t ≠ 0) {periodTicks : UInt32}
    (hstart : jrtTimerStartPeriodic k timer periodTicks = .ok k') :
    OnTimer t l (k.timers t).active
      (if timer = t ∧ periodTicks ≠ 0 then (k.timers t).startedPeriodic k.gKernelTicks periodTicks
        else k.timers t) k' := by
  unfold jrtTimerStartPeriodic at hstart
  split at hstart
  · next hzero =>
      obtain rfl := Except.ok.inj hstart
      rw [if_neg fun heq => hzero.elim (fun hz => ht (heq.1.symm.trans hz)) heq.2]
      exact .of_eq h rfl rfl
  · next hne =>
      rw [not_or] at hne
      rw [exec_bind_eq_ok] at hstart
      obtain ⟨k₁, hlink, hstart⟩ := hstart
      obtain rfl := Except.ok.inj hstart
      rw [(timerLinkLocked_ticks h hne.1 hlink)]
      simp only [hne.2, ne_eq, not_false_iff, and_true]
      exact .link h hne.1 hlink (f := fun x => x.startedPeriodic k.gKernelTicks periodTicks)
        fun _ _ => rfl

theorem OnTimer.restart (h : Timers k l) (ht : t ≠ 0)
    (hrestart : jrtTimerRestart k timer = .ok k') :
    OnTimer t l (k.timers t).active
      (if timer = t ∧ (k.timers t).reloadTicks ≠ 0 then (k.timers t).restarted k.gKernelTicks
        else k.timers t) k' := by
  unfold jrtTimerRestart at hrestart
  split at hrestart
  · next hzero =>
      obtain rfl := Except.ok.inj hrestart
      rw [if_neg fun heq => ht (heq.1.symm.trans hzero)]
      exact .of_eq h rfl rfl
  · next hne =>
      split at hrestart
      · next hreload =>
          rw [exec_bind_eq_ok] at hrestart
          obtain ⟨k₁, hlink, hrestart⟩ := hrestart
          obtain rfl := Except.ok.inj hrestart
          rw [(timerLinkLocked_ticks h hne hlink)]
          have hlinked := OnTimer.link (t := t) h hne hlink
            (f := fun x => x.restarted k.gKernelTicks) fun _ _ => rfl
          by_cases htimer : timer = t
          · rw [if_pos htimer] at hlinked
            rwa [if_pos ⟨htimer, htimer ▸ hreload⟩]
          · rw [if_neg htimer] at hlinked
            rwa [if_neg fun hand => htimer hand.1]
      · next hreload =>
          obtain rfl := Except.ok.inj hrestart
          have hno : ¬(timer = t ∧ (k.timers t).reloadTicks ≠ 0) := by
            rintro ⟨rfl, hne⟩
            exact hreload hne
          rw [if_neg hno]
          exact .of_eq h rfl rfl

theorem OnTimer.stop (h : Timers k l) (ht : t ≠ 0) :
    OnTimer t l (k.timers t).active
      (if timer = t then (k.timers t).withActive 0 else k.timers t) (jrtTimerStop k timer) := by
  unfold jrtTimerStop
  by_cases hzero : timer = 0
  · rw [if_pos hzero, if_neg fun heq => ht (heq.symm.trans hzero)]
    exact .of_eq h rfl rfl
  · rw [if_neg hzero]
    exact .modify h timer (f := fun x => x.withActive 0) (fun _ => rfl) fun _ hne => absurd rfl hne

theorem OnTimer.take (h : Timers k l) (ht : t ≠ 0) :
    OnTimer t l (k.timers t).active
      (if timer = t then (k.timers t).withExpirations 0 else k.timers t)
      (jrtTimerTakeExpirations k timer).2 := by
  unfold jrtTimerTakeExpirations
  by_cases hzero : timer = 0
  · rw [if_pos hzero, if_neg fun heq => ht (heq.symm.trans hzero)]
    exact .of_eq h rfl rfl
  · rw [if_neg hzero]
    exact .modify h timer (f := fun x => x.withExpirations 0) (fun _ => rfl) fun _ => id

theorem OnTimer.dispatch (h : Timers k l) (ht : t ≠ 0) :
    OnTimer t l (k.timers t).active
      (if timer = t ∧ (k.timers t).callback ≠ 0 then (k.timers t).withExpirations 0
        else k.timers t)
      (jrtTimerDispatch k timer).2 := by
  by_cases hzero : timer = 0
  · rw [jrtTimerDispatch, if_pos hzero, if_neg fun heq => ht (heq.1.symm.trans hzero)]
    exact .of_eq h rfl rfl
  · have hwrite := OnTimer.modify (t := t) h timer
      (f := fun x => x.withExpirations 0) (fun _ => rfl) fun _ => id
    simp only [jrtTimerDispatch, if_neg hzero]
    by_cases hcallback : (k.timers timer).callback ≠ 0
    · rw [if_pos hcallback]
      by_cases htimer : timer = t
      · rw [if_pos htimer] at hwrite
        rwa [if_pos ⟨htimer, htimer ▸ hcallback⟩]
      · rw [if_neg htimer] at hwrite
        rwa [if_neg fun hand => htimer hand.1]
    · have hno : ¬(timer = t ∧ (k.timers t).callback ≠ 0) := by
        rintro ⟨rfl, hne⟩
        exact hcallback hne
      rw [if_neg hcallback, if_neg hno]
      exact .of_eq h rfl rfl

/-- Every call treats every timer as `Call.onTimer` says. -/
theorem enter_onTimer (h : Timers k l) (ht : t ≠ 0) {call : Call} {s : Segment}
    (hs : enter k call = .ok s) :
    OnTimer t l (k.timers t).active (call.onTimer t k.gKernelTicks (k.timers t)) s.kernel := by
  by_cases hkind : call.objectKind = .timer
  · cases call with
    | timerCreateStatic timer =>
        simp only [enter, exec_bind_eq_ok] at hs
        obtain ⟨k', hcreate, hs⟩ := hs
        obtain rfl := Except.ok.inj hs
        exact .create h ht hcreate
    | timerSetCallback timer callback argument =>
        have hset := OnTimer.setCallback h ht timer callback argument
        simp only [enter] at hs
        split at hs <;> next heq =>
          rw [heq] at hset
          obtain rfl := Except.ok.inj hs
          exact hset
    | timerStart timer delayTicks =>
        simp only [enter, exec_bind_eq_ok] at hs
        obtain ⟨k', hstart, hs⟩ := hs
        obtain rfl := Except.ok.inj hs
        exact .start h ht hstart
    | timerStartPeriodic timer periodTicks =>
        simp only [enter, exec_bind_eq_ok] at hs
        obtain ⟨k', hstart, hs⟩ := hs
        obtain rfl := Except.ok.inj hs
        exact .startPeriodic h ht hstart
    | timerRestart timer =>
        simp only [enter, exec_bind_eq_ok] at hs
        obtain ⟨k', hrestart, hs⟩ := hs
        obtain rfl := Except.ok.inj hs
        exact .restart h ht hrestart
    | timerStop timer =>
        obtain rfl := Except.ok.inj hs
        exact .stop h ht
    | timerTakeExpirations timer =>
        obtain rfl := Except.ok.inj hs
        exact .take h ht
    | timerDispatch timer =>
        obtain rfl := Except.ok.inj hs
        exact .dispatch h ht
    | _ => cases hkind
  · rw [Call.onTimer_of_ne hkind]
    have hheap := enter_heap hs
    exact .of_eq h (hheap.timers hkind) (hheap.timerList hkind)

end OnTimer

/-- The claim the running task is about to make takes an expiration of `t`. -/
def Cfg.claims (c : Cfg) (t : Ptr) : Bool :=
  match c.pc c.current with
  | .entered .timerServiceClaim _ =>
      match kernelTimerServiceClaim c.kernel with
      | .ok (some timer, _) => timer == t
      | _ => false
  | _ => false

/-- The record of timer `t` behind an action other than a tick, up to its
link. -/
def Action.onTimer (c : Cfg) (t : Ptr) (x : JrtTimer) : Action → JrtTimer
  | .call made => made.onTimer t c.kernel.gKernelTicks x
  | .proceed _ => if c.claims t then x.withExpirations (x.expirations - 1) else x
  | _ => x

section OnTimer

variable {c c' : Cfg} {a : Action} {o : Observation} {l : List Ptr} {t : Ptr}

theorem claim_onTimer (h : Timers c.kernel l) {source : Nat → UInt8} {reserved : Bool}
    {s : Segment} (hpc : c.pc c.current = .entered .timerServiceClaim reserved)
    (hs : proceedEntered c.kernel source reserved .timerServiceClaim = .ok s) :
    OnTimer t l (c.kernel.timers t).active
      (if c.claims t then
        (c.kernel.timers t).withExpirations ((c.kernel.timers t).expirations - 1)
      else c.kernel.timers t) s.kernel := by
  simp only [proceedEntered, exec_bind_eq_ok] at hs
  obtain ⟨⟨claimed, k'⟩, hclaim, hs⟩ := hs
  have hclaims : c.claims t = (claimed == some t) := by
    simp only [Cfg.claims, hpc, hclaim]
    cases claimed <;> rfl
  rw [hclaims]
  rcases kernelTimerServiceClaim_cases h hclaim with ⟨timer, _, rfl, -, rfl⟩ | ⟨rfl, -, rfl⟩
  · obtain rfl := Except.ok.inj hs
    have hwrite := OnTimer.modify (t := t) h timer
      (f := fun x => x.withExpirations (x.expirations - 1)) (fun _ => rfl) fun _ => id
    simpa using hwrite
  · obtain rfl := Except.ok.inj hs
    exact .of_eq h (by simp) (by simp)

theorem segment_onTimer (h : Timers c.kernel l) (ht : t ≠ 0) {s : Segment}
    (hseg : ThreadSegment c a s) :
    OnTimer t l (c.kernel.timers t).active (a.onTimer c t (c.kernel.timers t)) s.kernel := by
  -- Only the claim of the service writes timers behind a call's first segment.
  have hrest : ∀ source, a = .proceed source → a.objectKind c ≠ .timer → c.claims t = false →
      OnTimer t l (c.kernel.timers t).active (a.onTimer c t (c.kernel.timers t)) s.kernel := by
    rintro source rfl hkind hclaims
    have hheap := hseg.heap
    have hsame : Action.onTimer c t (c.kernel.timers t) (.proceed source) = c.kernel.timers t := by
      simp [Action.onTimer, hclaims]
    rw [hsame]
    exact .of_eq h (hheap.timers hkind) (hheap.timerList hkind)
  cases hseg with
  | call _ _ hs => exact enter_onTimer h ht hs
  | @entered w reserved source _ hpc hs =>
      by_cases hw : w = .timerServiceClaim
      · subst hw
        exact claim_onTimer h hpc hs
      · refine hrest source rfl ?_ ?_
        · rw [Action.objectKind, hpc]
          cases w <;> simp_all [Pc.objectKind, WaitCall.objectKind]
        · cases w <;> simp_all [Cfg.claims]
  | yielding hpc =>
      exact hrest _ rfl (by simp [Action.objectKind, hpc, Pc.objectKind])
        (by simp [Cfg.claims, hpc])
  | @resumed w source hpc =>
      have hclaims : c.claims t = false := by simp [Cfg.claims, hpc]
      by_cases hw : w = .timerServiceClaim
      · subst hw
        have hsame : Action.onTimer c t (c.kernel.timers t) (.proceed source)
            = c.kernel.timers t := by
          simp [Action.onTimer, hclaims]
        rw [hsame]
        exact .of_eq h rfl rfl
      · refine hrest source rfl ?_ hclaims
        rw [Action.objectKind, hpc]
        cases w <;> simp_all [Pc.objectKind, WaitCall.objectKind]
  | requestSwitch hpc =>
      exact hrest _ rfl (by simp [Action.objectKind, hpc, Pc.objectKind])
        (by simp [Cfg.claims, hpc])
  | inTime hpc =>
      exact hrest _ rfl (by simp [Action.objectKind, hpc, Pc.objectKind])
        (by simp [Cfg.claims, hpc])
  | delayed hpc =>
      exact hrest _ rfl (by simp [Action.objectKind, hpc, Pc.objectKind])
        (by simp [Cfg.claims, hpc])

/-- Every step but a tick treats every timer as `Action.onTimer` says, and
is outside time. -/
theorem step_onTimer (h : Timers c.kernel l) (ht : t ≠ 0) (hstep : StepCases c a c' o)
    (htick : a ≠ .tick) :
    OnTimer t l (c.kernel.timers t).active (a.onTimer c t (c.kernel.timers t)) c'.kernel
      ∧ c'.kernel.gKernelTicks = c.kernel.gKernelTicks := by
  cases hstep with
  | start _ hk =>
      obtain rfl := jrtKernelStart_spec hk
      exact ⟨.of_eq h rfl rfl, rfl⟩
  | thread _ _ hseg => exact ⟨segment_onTimer h ht hseg, hseg.frame.2.2.2.2.2.2.2.1⟩
  | tick => exact absurd rfl htick
  | @isr call _ =>
      have hkind : call.objectKind ≠ .timer := by cases call <;> simp [IsrCall.objectKind]
      have hheap := isrCall_heap c.kernel call
      exact ⟨.of_eq h (hheap.timers hkind) (hheap.timerList hkind),
        (isrCall_frame c.kernel call).2.2.2.2.2.2.2.1⟩
  | pendsv _ _ hk =>
      have hheap := pendsvSwitch_heap hk .none
      obtain ⟨-, -, hframe, -⟩ := pendsvSwitch_cases hk
      exact ⟨.of_eq h (hheap.timers (by simp)) (hheap.timerList (by simp)),
        hframe.2.2.2.2.2.1⟩
  | store => exact ⟨.of_eq h rfl rfl, rfl⟩
  | cycles => exact ⟨.of_eq h rfl rfl, rfl⟩

end OnTimer

/-! ## A tick, one timer -/

theorem foldl_timerTickStep_timers (now : UInt32) {l : List Ptr} (hnodup : l.Nodup) (k : Kernel)
    (t : Ptr) :
    (l.foldl (timerTickStep now) k).timers t
      = if t ∈ l then (k.timers t).ticked now else k.timers t := by
  induction l generalizing k with
  | nil => simp
  | cons a l ih =>
      obtain ⟨hnot, hnodup⟩ := List.nodup_cons.mp hnodup
      rw [List.foldl_cons, ih hnodup, timerTickStep_timers]
      by_cases ha : t = a
      · subst ha
        simp [hnot]
      · simp [ha]

theorem foldl_timerTickStep_spec {k : Kernel} {l : List Ptr} (h : Timers k l) (now : UInt32)
    (visited : List Ptr) : Timers (visited.foldl (timerTickStep now) k) l := by
  induction visited generalizing k with
  | nil => exact h
  | cons a visited ih => exact ih (h.timerTickStep now a)

/-- A tick keeps the list and expires what is due on it. -/
theorem tickTasksBody_timers {k k' : Kernel} {l : List Ptr} (h : Timers k l)
    (htick : tickTasksBody k = .ok k') :
    Timers k' l ∧ ∀ t, k'.timers t
      = if t ∈ l then (k.timers t).ticked (k.gKernelTicks + 1) else k.timers t := by
  obtain ⟨k₁, htimer, rfl⟩ := tickTasksBody_cases htick
  have h₀ : Timers (advanceTicks k) l := h.of_eq (by simp) (by simp)
  rw [kernelTimerTick_eq h₀] at htimer
  have hwalk : Timers k₁ l := by
    rw [← Except.ok.inj htimer]
    exact foldl_timerTickStep_spec h₀ _ l
  refine ⟨hwalk.of_eq (by simp) (by simp), fun t => ?_⟩
  have htasks : ((List.range k₁.taskCount).foldl tickTask k₁).timers = k₁.timers := by simp
  rw [htasks, ← Except.ok.inj htimer, foldl_timerTickStep_timers _ (Linked.nodup h)]
  rfl

theorem tickTasks_timers {k k' : Kernel} {l : List Ptr} (h : Timers k l)
    (htick : tickTasks k = .ok k') :
    Timers k' l ∧ ∀ t, k'.timers t
      = if t ∈ l then (k.timers t).ticked (k.gKernelTicks + 1) else k.timers t :=
  tickTasksBody_timers h (tickTasks_body htick)

theorem tickTasksBody_ok {k : Kernel} {l : List Ptr} (h : Timers k l) :
    ∃ k', tickTasksBody k = .ok k' := by
  have h₀ : Timers (advanceTicks k) l := h.of_eq (by simp) (by simp)
  exact ⟨_, exec_bind_eq_ok.mpr ⟨_, kernelTimerTick_eq h₀, rfl⟩⟩

/-! ## Runs -/

/-- A timer is set by an action as its alarm is by the event. -/
theorem Tracks.action {c : Cfg} {a : Action} {t : Ptr} {x : JrtTimer} {s : Alarm.State}
    (h : Tracks x c.kernel.gKernelTicks s) (htick : a ≠ .tick)
    (hrange : delayInRange (timerEvent t a)) :
    Tracks (a.onTimer c t x) c.kernel.gKernelTicks (s.step (timerEvent t a)) := by
  have hother : ∀ {y : JrtTimer}, y.deadline = x.deadline → y.period = x.period →
      y.reloadTicks = x.reloadTicks → y.active = x.active → y.periodic = x.periodic →
      Tracks y c.kernel.gKernelTicks s := h.of_set_eq
  cases a with
  | tick => exact absurd rfl htick
  | proceed source =>
      simp only [Action.onTimer]
      split
      · exact hother rfl rfl rfl rfl rfl
      · exact h
  | call made =>
      cases made with
      | timerCreateStatic timer =>
          simp only [timerEvent, Action.onTimer, Call.onTimer]
          split
          · exact .created _ h.now
          · exact h
      | timerSetCallback timer callback argument =>
          simp only [timerEvent, Action.onTimer, Call.onTimer]
          split
          · exact hother rfl rfl rfl rfl rfl
          · exact h
      | timerStart timer delayTicks =>
          simp only [timerEvent, Action.onTimer, Call.onTimer] at hrange ⊢
          by_cases htimer : timer = t
          · rw [if_pos htimer] at hrange
            rw [if_pos htimer, if_pos htimer]
            exact h.started hrange
          · rw [if_neg htimer, if_neg htimer]
            exact h
      | timerStartPeriodic timer periodTicks =>
          simp only [timerEvent, Action.onTimer, Call.onTimer] at hrange ⊢
          by_cases htimer : timer = t
          · rw [if_pos htimer] at hrange
            have hne : periodTicks ≠ 0 := fun hzero => hrange.1 (by rw [hzero]; rfl)
            rw [if_pos htimer, if_pos ⟨htimer, hne⟩]
            exact h.startedPeriodic hrange
          · rw [if_neg htimer, if_neg fun hand => htimer hand.1]
            exact h
      | timerRestart timer =>
          simp only [timerEvent, Action.onTimer, Call.onTimer]
          by_cases htimer : timer = t
          · rw [if_pos htimer]
            by_cases hreload : x.reloadTicks = 0
            · have hdelay := h.reload_eq_zero_iff.mp hreload
              rw [if_neg fun hand => hand.2 hreload]
              simp only [Alarm.State.step, hdelay, if_true]
              exact h
            · rw [if_pos ⟨htimer, hreload⟩]
              exact h.restarted hreload
          · rw [if_neg htimer, if_neg fun hand => htimer hand.1]
            exact h
      | timerStop timer =>
          simp only [timerEvent, Action.onTimer, Call.onTimer]
          split
          · exact h.stopped
          · exact h
      | timerTakeExpirations timer =>
          simp only [Action.onTimer, Call.onTimer]
          split
          · exact hother rfl rfl rfl rfl rfl
          · exact h
      | timerDispatch timer =>
          simp only [Action.onTimer, Call.onTimer]
          split
          · exact hother rfl rfl rfl rfl rfl
          · exact h
      | _ => exact h
  | _ => exact h

/-- Timer `t` of the system runs as the alarm `s` does. -/
structure TimerRuns (t : Ptr) (c : Cfg) (s : Alarm.State) : Prop where
  listed : ∃ l, Timers c.kernel l ∧ ((c.kernel.timers t).active ≠ 0 → t ∈ l)
  tracks : Tracks (c.kernel.timers t) c.kernel.gKernelTicks s

/-- The expirations of timer `t` a step records. -/
def Transition.recorded (t : Ptr) (x : Transition) : Nat :=
  match x.action with
  | .tick => ((x.post.kernel.timers t).expirations - (x.pre.kernel.timers t).expirations).toNat
  | _ => 0

/-- The calls of a callback an output stands for. -/
def Output.times : Output → Nat
  | .callbacks _ _ times => times.toNat
  | _ => 0

/-- The expirations of timer `t` a step delivers: to the caller of
`JRT_TimerTakeExpirations`, or as calls of the callback. -/
def Transition.delivered (t : Ptr) (x : Transition) : Nat :=
  match x.action with
  | .call (.timerTakeExpirations a) =>
      if a = t then x.observation.result.elim 0 UInt32.toNat else 0
  | .call (.timerDispatch a) => if a = t then x.observation.output.elim 0 Output.times else 0
  | .proceed _ => if x.pre.claims t then 1 else 0
  | _ => 0

/-- The expirations of timer `t` a run records. -/
def recorded (t : Ptr) (tr : List Transition) : Nat := (tr.map (Transition.recorded t)).sum

/-- The expirations of timer `t` a run delivers. -/
def delivered (t : Ptr) (tr : List Transition) : Nat := (tr.map (Transition.delivered t)).sum

/-- What happens to timer `t` in a run. -/
def timerEvents (t : Ptr) (tr : List Transition) : List Alarm.Event :=
  tr.map fun x => timerEvent t x.action

section Runs

variable {t : Ptr} {c c' : Cfg} {a : Action} {o : Observation} {s : Alarm.State}

theorem OnTimer.runs {l : List Ptr} {x : JrtTimer}
    (h : OnTimer t l (c.kernel.timers t).active x c'.kernel)
    (hlisted : (c.kernel.timers t).active ≠ 0 → t ∈ l)
    (htracks : Tracks x c'.kernel.gKernelTicks s) : TimerRuns t c' s := by
  obtain ⟨⟨l', hl', hsub, hmem⟩, next, hrecord⟩ := h
  refine ⟨⟨l', hl', fun hactive => ?_⟩, ?_⟩
  · rcases hmem hactive with hold | hnew
    · exact hsub (hlisted hold)
    · exact hnew
  · rw [hrecord]
    exact htracks.withNext next

/-- One step: the timer goes on running as its alarm, and records exactly
what the alarm rings. -/
theorem TimerRuns.step (h : TimerRuns t c s) (ht : t ≠ 0) (hstep : StepCases c a c' o)
    (hrange : delayInRange (timerEvent t a)) :
    TimerRuns t c' (s.step (timerEvent t a))
      ∧ Transition.recorded t ⟨c, a, o, c'⟩ = s.rings (timerEvent t a) := by
  obtain ⟨⟨l, hl, hlisted⟩, htracks⟩ := h
  by_cases htick : a = .tick
  · subst htick
    cases hstep with
    | @tick k _ hk =>
        obtain ⟨hl', htimers⟩ := tickTasks_timers hl hk
        have hticks : k.gKernelTicks = c.kernel.gKernelTicks + 1 :=
          (tickTasks_frame hk).2.2.2.2.2.2.2.1
        -- An unlisted timer is not active, so no tick would expire it.
        have hrecord : k.timers t = (c.kernel.timers t).ticked (c.kernel.gKernelTicks + 1) := by
          rw [htimers]
          by_cases hmem : t ∈ l
          · rw [if_pos hmem]
          · have hno : ¬(c.kernel.timers t).active ≠ 0 := fun hactive => hmem (hlisted hactive)
            rw [if_neg hmem, JrtTimer.ticked, if_neg fun hand => hno hand.1]
        refine ⟨⟨⟨l, hl', fun hactive => ?_⟩, ?_⟩, ?_⟩
        · by_contra hmem
          change (k.timers t).active ≠ 0 at hactive
          rw [htimers, if_neg hmem] at hactive
          exact hmem (hlisted hactive)
        · show Tracks (k.timers t) k.gKernelTicks (s.step .tick)
          rw [hticks, hrecord]
          exact htracks.ticked
        · show ((k.timers t).expirations - (c.kernel.timers t).expirations).toNat = s.rings .tick
          rw [hrecord, htracks.ticked_expirations, UInt32.add_comm, UInt32.add_sub_cancel,
            UInt32.toNat_ofNat']
          have hle : s.rings .tick ≤ 1 := by
            rw [Alarm.State.rings]
            split <;> omega
          omega
    | thread _ _ hseg => cases hseg
  · obtain ⟨hon, hticks⟩ := step_onTimer hl ht hstep htick
    refine ⟨hon.runs hlisted ?_, ?_⟩
    · rw [hticks]
      exact htracks.action htick hrange
    · have hsilent : timerEvent t a ≠ .tick := by
        cases a with
        | tick => exact absurd rfl htick
        | call made =>
            cases made <;> simp only [timerEvent] <;> first | (split <;> simp) | simp
        | _ => simp [timerEvent]
      have hzero : Transition.recorded t ⟨c, a, o, c'⟩ = 0 := by
        cases a <;> first | rfl | exact absurd rfl htick
      rw [hzero, Alarm.State.rings, if_neg fun hand => hsilent hand.1]

/-- A run: the timer keeps running as its alarm and records exactly what
the alarm rings. -/
theorem TimerRuns.run (h : TimerRuns t c s) (ht : t ≠ 0) {tr : List Transition}
    (hrun : Run c tr c') (hrange : ∀ x ∈ tr, delayInRange (timerEvent t x.action)) :
    TimerRuns t c' (s.run (timerEvents t tr))
      ∧ recorded t tr = s.rung (timerEvents t tr) := by
  induction hrun with
  | nil => exact ⟨h, rfl⟩
  | @snoc tr c₁ c₂ a o _ hstep ih =>
      obtain ⟨hruns, hrecorded⟩ := ih fun x hx => hrange x (List.mem_append_left _ hx)
      have hlast := hruns.step ht (step_cases hstep)
        (hrange ⟨c₁, a, o, c₂⟩ (List.mem_append_right _ List.mem_cons_self))
      have hevents : timerEvents t (tr ++ [⟨c₁, a, o, c₂⟩])
          = timerEvents t tr ++ [timerEvent t a] := List.map_append
      have hsum : recorded t (tr ++ [⟨c₁, a, o, c₂⟩])
          = recorded t tr + Transition.recorded t ⟨c₁, a, o, c₂⟩ := by
        simp [recorded]
      rw [hevents, Alarm.State.run_append, Alarm.State.rung_append, hsum, hrecorded, hlast.2]
      exact ⟨hlast.1, by simp [Alarm.State.rung]⟩

/-- The calls that set and stop timers keep what is on record. -/
def Action.setsTimers : Action → Bool
  | .call (.timerStart ..) | .call (.timerStartPeriodic ..) | .call (.timerRestart _)
  | .call (.timerStop _) => true
  | _ => false

theorem Action.onTimer_expirations {c : Cfg} (h : a.setsTimers = true) (x : JrtTimer) :
    (a.onTimer c t x).expirations = x.expirations := by
  cases a with
  | call made =>
      cases made with
      | timerStart | timerStartPeriodic | timerRestart | timerStop =>
          simp only [Action.onTimer, Call.onTimer]
          split <;> rfl
      | _ => cases h
  | _ => cases h

/-- What a segment delivers it takes from the record. -/
theorem segment_delivered (ht : t ≠ 0) {sg : Segment} (hseg : ThreadSegment c a sg)
    (hreset : timerEvent t a ≠ .reset) {c'' : Cfg} :
    (a.onTimer c t (c.kernel.timers t)).expirations
        + .ofNat (Transition.delivered t ⟨c, a, { result := sg.result, output := sg.output }, c''⟩)
      = (c.kernel.timers t).expirations := by
  cases a with
  | call made =>
      cases hseg with
      | call _ _ hs =>
          cases made with
          | timerCreateStatic timer =>
              have hne : timer ≠ t := fun heq => hreset (by simp [timerEvent, heq])
              simp [Action.onTimer, Call.onTimer, Transition.delivered, hne]
          | timerTakeExpirations timer =>
              obtain rfl := Except.ok.inj hs
              simp only [Action.onTimer, Call.onTimer, Transition.delivered]
              by_cases htimer : timer = t
              · subst htimer
                simp [JrtTimer.withExpirations, Segment.ret, jrtTimerTakeExpirations, ht]
              · simp [htimer]
          | timerDispatch timer =>
              obtain rfl := Except.ok.inj hs
              simp only [Action.onTimer, Call.onTimer, Transition.delivered]
              by_cases htimer : timer = t
              · subst htimer
                by_cases hcallback : (c.kernel.timers timer).callback = 0
                · simp [jrtTimerDispatch, ht, hcallback, Output.times]
                · simp [jrtTimerDispatch, ht, hcallback, Output.times, JrtTimer.withExpirations]
              · simp [htimer]
          | timerSetCallback | timerStart | timerStartPeriodic | timerRestart | timerStop =>
              simp only [Action.onTimer, Call.onTimer, Transition.delivered]
              split <;> simp [JrtTimer.withCallback, JrtTimer.started, JrtTimer.startedPeriodic,
                JrtTimer.restarted, JrtTimer.withActive]
          | _ => simp [Action.onTimer, Call.onTimer, Transition.delivered]
  | proceed source =>
      simp only [Action.onTimer, Transition.delivered]
      cases hclaims : c.claims t with
      | true => simp [JrtTimer.withExpirations]
      | false => simp
  | _ => cases hseg

/-- The balance of one step: what was on record and what is recorded is
still on record or delivered. -/
theorem step_balance {l : List Ptr} (h : Timers c.kernel l) (ht : t ≠ 0)
    (hstep : StepCases c a c' o) (hreset : timerEvent t a ≠ .reset) :
    (c.kernel.timers t).expirations + .ofNat (Transition.recorded t ⟨c, a, o, c'⟩)
      = (c'.kernel.timers t).expirations + .ofNat (Transition.delivered t ⟨c, a, o, c'⟩) := by
  by_cases htick : a = .tick
  · subst htick
    simp only [Transition.recorded, Transition.delivered, UInt32.ofNat_toNat]
    rw [UInt32.add_comm, UInt32.sub_add_cancel]
    exact (UInt32.add_zero _).symm
  · obtain ⟨⟨-, next, hrecord⟩, -⟩ := step_onTimer h ht hstep htick
    have hzero : Transition.recorded t ⟨c, a, o, c'⟩ = 0 := by
      cases a <;> first | rfl | exact absurd rfl htick
    have hexp : (c'.kernel.timers t).expirations
        = (a.onTimer c t (c.kernel.timers t)).expirations := by
      rw [hrecord]
      rfl
    rw [hzero, hexp]
    cases hstep with
    | thread _ _ hseg =>
        rw [segment_delivered ht hseg hreset]
        simp
    | tick => exact absurd rfl htick
    | _ => simp [Action.onTimer, Transition.delivered]

theorem run_balance (ht : t ≠ 0) {tr : List Transition} (hrun : Run c tr c')
    (hwork : ∃ l, TimerWork c.kernel l) (hreset : ∀ e ∈ timerEvents t tr, e ≠ .reset) :
    (c.kernel.timers t).expirations + .ofNat (recorded t tr)
      = (c'.kernel.timers t).expirations + .ofNat (delivered t tr) := by
  suffices h : (∃ l, TimerWork c'.kernel l)
      ∧ (c.kernel.timers t).expirations + .ofNat (recorded t tr)
        = (c'.kernel.timers t).expirations + .ofNat (delivered t tr) from h.2
  induction hrun with
  | nil => exact ⟨hwork, rfl⟩
  | @snoc tr c₁ c₂ a o _ hstep ih =>
      obtain ⟨⟨l, hl⟩, hbalance⟩ := ih fun e he => hreset e (by simp_all [timerEvents])
      have hcases := step_cases hstep
      have hlast := step_balance hl.list ht hcases (hreset _ (by simp [timerEvents]))
      refine ⟨TimerWork.step ⟨l, hl⟩ hcases, ?_⟩
      have hsum : ∀ (f : Transition → Nat) (x : Transition),
          ((tr ++ [x]).map f).sum = (tr.map f).sum + f x := fun f x => by simp
      rw [recorded, delivered, hsum, hsum, UInt32.ofNat_add, UInt32.ofNat_add, ← UInt32.add_assoc,
        ← recorded, ← delivered, hbalance, UInt32.add_assoc,
        UInt32.add_comm (UInt32.ofNat (delivered t tr)), ← UInt32.add_assoc, hlast,
        UInt32.add_assoc,
        UInt32.add_comm (UInt32.ofNat (Transition.delivered t ⟨c₁, a, o, c₂⟩))]

end Runs

/-! ## The theorem -/

/-- The alarm timer `t` is measured against behind a run from `c₀`: unset
at the tick the system booted at, then set as the run's calls say. -/
def referenceAlarm (c₀ : Cfg) (t : Ptr) (tr : List Transition) : Alarm.State :=
  (Alarm.State.unset c₀.kernel.gKernelTicks.toNat).run (timerEvents t tr)

theorem Kernel.TimersZeroed.runs {c : Cfg} (h : c.kernel.TimersZeroed) (t : Ptr) :
    TimerRuns t c (.unset c.kernel.gKernelTicks.toNat) := by
  refine ⟨⟨[], h.work.list, fun hactive => ?_⟩, ?_⟩
  · rw [h.timers] at hactive
    exact absurd rfl hactive
  · rw [h.timers]
    exact .created 0 UInt32.ofNat_toNat.symm

theorem delay_ne_zero_of_armedBy {s : Alarm.State} {e : Alarm.Event} {periodic : Bool} {d : Nat}
    (hrange : delayInRange e) (h : s.armedBy e = some (periodic, d)) : d ≠ 0 := by
  cases e with
  | once delay => cases h; exact hrange.1
  | every period => cases h; exact hrange.1
  | rearm =>
      rw [Alarm.State.armedBy] at h
      by_cases hzero : s.delay = 0
      · rw [if_pos hzero] at h
        cases h
      · rw [if_neg hzero] at h
        cases h
        exact hzero
  | _ => cases h

/-- Timers against unbounded time, in every run from zero-initialised timers
with delays and periods from `1` to `2^31`, at any starting tick.

- The run has recorded an expiration of `t` for each time the reference
  alarm rang.
- A call that sets `t` to a delay `d`, or restarts it with the delay it was
  set to last, is followed by exactly one expiration, in the `d`-th tick, or
  by one in each `d`-th tick if `t` is periodic, as long as no call sets,
  stops or creates `t`.
- The calls that set or stop timers keep the expirations on record.
- Until `t` is created anew, what was on record and is recorded is still on
  record or delivered, modulo `2^32`. -/
theorem timers_agree_with_reference (c₀ c : Cfg) (tr : List Transition) (t : Ptr)
    (hzero : c₀.kernel.TimersZeroed) (hrun : Run c₀ tr c) (ht : t ≠ 0)
    (hrange : ∀ x ∈ tr, delayInRange (timerEvent t x.action)) :
    recorded t tr
        = (Alarm.State.unset c₀.kernel.gKernelTicks.toNat).rung (timerEvents t tr)
      ∧ (∀ a o c₁ mid c₂ periodic d, step c a = some (c₁, o) → delayInRange (timerEvent t a) →
          (referenceAlarm c₀ t tr).armedBy (timerEvent t a) = some (periodic, d) →
          Run c₁ mid c₂ → (∀ e ∈ timerEvents t mid, e.Keeps) →
          recorded t mid
            = if periodic then Alarm.ticks (timerEvents t mid) / d
              else if d ≤ Alarm.ticks (timerEvents t mid) then 1 else 0)
      ∧ (∀ a o c₁, step c a = some (c₁, o) → a.setsTimers = true →
          (c₁.kernel.timers t).expirations = (c.kernel.timers t).expirations)
      ∧ ∀ mid c₂, Run c mid c₂ → (∀ e ∈ timerEvents t mid, e ≠ .reset) →
          (c.kernel.timers t).expirations + .ofNat (recorded t mid)
            = (c₂.kernel.timers t).expirations + .ofNat (delivered t mid) := by
  obtain ⟨hruns, hrecorded⟩ := (hzero.runs t).run ht hrun hrange
  have hwork : ∃ l, TimerWork c.kernel l :=
    hrun.induction (fun c => ∃ l, TimerWork c.kernel l)
      (fun h hstep => TimerWork.step h hstep) ⟨[], hzero.work⟩
  refine ⟨hrecorded, ?_, ?_, ?_⟩
  · intro a o c₁ mid c₂ periodic d hstep ha harmed hmid hkeeps
    have hset := (hruns.step ht (step_cases hstep) ha).1
    have hmidRange : ∀ x ∈ mid, delayInRange (timerEvent t x.action) := fun x hx => by
      rcases hkeeps _ (List.mem_map_of_mem hx) with he | he <;> rw [he] <;> trivial
    rw [(hset.run ht hmid hmidRange).2]
    exact Alarm.State.rung_armedBy harmed (delay_ne_zero_of_armedBy ha harmed) hkeeps
  · intro a o c₁ hstep hsets
    obtain ⟨l, hl, -⟩ := hruns.listed
    have htick : a ≠ .tick := fun htick => by
      rw [htick] at hsets
      cases hsets
    obtain ⟨⟨-, next, hrecord⟩, -⟩ := step_onTimer hl ht (step_cases hstep) htick
    rw [hrecord]
    exact Action.onTimer_expirations hsets _
  · exact fun mid c₂ hmid hreset => run_balance ht hmid hwork hreset

/-- A periodic timer of two ticks, over five ticks. -/
theorem timers_agree_with_reference_sample : ∃ tr c c₁ o mid c₂,
    sampleRun [2] [.start, .call (.timerCreateStatic 16)] = some (tr, c)
      ∧ step c (.call (.timerStartPeriodic 16 2)) = some (c₁, o)
      ∧ runActions c₁ (List.replicate 5 .tick) = some (mid, c₂) ∧ recorded 16 mid = 2 := by
  have hsome : ((sampleRun [2] [.start, .call (.timerCreateStatic 16)]).bind fun r =>
      (step r.2 (.call (.timerStartPeriodic 16 2))).bind fun r₁ =>
        runActions r₁.1 (List.replicate 5 .tick)).isSome = true := by decide +kernel
  obtain ⟨⟨mid, c₂⟩, hbind⟩ := Option.isSome_iff_exists.mp hsome
  obtain ⟨⟨tr, c⟩, hrun, hbind⟩ := Option.bind_eq_some_iff.mp hbind
  obtain ⟨⟨c₁, o⟩, hstep, hmid⟩ := Option.bind_eq_some_iff.mp hbind
  refine ⟨tr, c, c₁, o, mid, c₂, hrun, hstep, hmid, ?_⟩
  obtain ⟨c₀, hboot, htr⟩ := sampleRun_run hrun
  have hactions : tr.map Transition.action = [.start, .call (.timerCreateStatic 16)] :=
    runActions_actions (by simpa [sampleRun, hboot] using hrun)
  have hevents : timerEvents 16 mid = List.replicate 5 .tick := by
    have hmidActions := congrArg (List.map (timerEvent 16)) (runActions_actions hmid)
    rwa [List.map_map] at hmidActions
  have hrange : ∀ x ∈ tr, delayInRange (timerEvent 16 x.action) := fun x hx => by
    have hmem : x.action ∈ tr.map Transition.action := List.mem_map_of_mem hx
    rw [hactions] at hmem
    rcases List.mem_cons.mp hmem with he | he
    · rw [he]
      trivial
    · rw [List.mem_singleton.mp he]
      trivial
  obtain ⟨-, hperiodic, -⟩ := timers_agree_with_reference c₀ c tr 16
    (sampleBoot_timersZeroed hboot) htr (by decide) hrange
  rw [hperiodic _ _ _ _ _ true 2 hstep ⟨by decide, by decide⟩ rfl (runActions_run hmid)
    (by rw [hevents]; decide), hevents]
  rfl

end JustRT
