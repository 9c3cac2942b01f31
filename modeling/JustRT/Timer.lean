import JustRT.Sync

/-!
# Software timers

The critical sections of `timer.c`. Timers are linked through `next` from
`timer_list`; a walk over a list that never reaches null is a hang.
Whether a deadline has passed is told by the sign of a 32-bit difference,
here as in the code, with what that does to deadlines further ahead than
half of the range. Callbacks run in the timer service, outside of all
sections: a claim takes one expiration off the record and answers whose
callback to call, a dispatch takes all of them.
-/

namespace JustRT

def signedNonneg (w : UInt32) : Bool := w < 2147483648

/-- A deadline `n` ticks ahead does not look past, up to `2^31` ticks ... -/
theorem signedNonneg_ahead {now deadline : UInt32} {n : Nat} (hn : n ≠ 0) (hle : n ≤ 2147483648)
    (hdeadline : deadline = now + .ofNat n) : signedNonneg (now - deadline) = false := by
  rw [hdeadline, signedNonneg]
  have hlt := now.toNat_lt
  refine decide_eq_false fun h => ?_
  rw [UInt32.lt_iff_toNat_lt, UInt32.toNat_sub, UInt32.toNat_add, UInt32.toNat_ofNat'] at h
  change _ < 2147483648 at h
  omega

/-- ... and looks past behind that. -/
theorem signedNonneg_far {now deadline : UInt32} {n : Nat} (hn : 2147483648 < n)
    (hlt : n < 2 ^ 32) (hdeadline : deadline = now + .ofNat n) :
    signedNonneg (now - deadline) = true := by
  rw [hdeadline, signedNonneg]
  have hnow := now.toNat_lt
  refine decide_eq_true ?_
  rw [UInt32.lt_iff_toNat_lt, UInt32.toNat_sub, UInt32.toNat_add, UInt32.toNat_ofNat']
  change _ < 2147483648
  omega

def timerIsLinkedLocked (k : Kernel) (timer : Ptr) : Exec Bool :=
  isLinkedLoop (fun a => (k.timers a).next) timer addressSpace k.timerList

def timerLinkLocked (k : Kernel) (timer : Ptr) : Exec Kernel := do
  if ← timerIsLinkedLocked k timer then
    return k
  else
    return { k.setTimer timer ((k.timers timer).withNext k.timerList) with timerList := timer }

def JrtTimer.created (next : Ptr) : JrtTimer :=
  { deadline := 0, period := 0, reloadTicks := 0, expirations := 0
    active := 0, periodic := 0, callback := 0, argument := 0, next }

def jrtTimerCreateStatic (k : Kernel) (timer : Ptr) : Exec Kernel := do
  if timer = 0 then
    return k
  let linked ← timerIsLinkedLocked k timer
  let next := if linked then (k.timers timer).next else 0
  timerLinkLocked (k.setTimer timer (.created next)) timer

/-- `JRT_TimerSetCallback`; the flag is `wake_service`, which makes the
call go on to `arch_request_switch()`. -/
def jrtTimerSetCallback (k : Kernel) (timer callback argument : Ptr) : Bool × Kernel :=
  if timer = 0 then (false, k)
  else
    let k := k.setTimer timer ((k.timers timer).withCallback callback argument)
    if callback ≠ 0 ∧ (k.timers timer).expirations ≠ 0 then
      (true, taskTimerServiceWakeLocked k)
    else (false, k)

def JrtTimer.started (t : JrtTimer) (now delayTicks : UInt32) : JrtTimer :=
  { t with
    deadline := now + delayTicks
    period := 0
    reloadTicks := delayTicks
    periodic := 0
    active := 1 }

def jrtTimerStart (k : Kernel) (timer : Ptr) (delayTicks : UInt32) : Exec Kernel := do
  if timer = 0 then
    return k
  let k ← timerLinkLocked k timer
  return k.setTimer timer ((k.timers timer).started k.gKernelTicks delayTicks)

def JrtTimer.startedPeriodic (t : JrtTimer) (now periodTicks : UInt32) : JrtTimer :=
  { t with
    deadline := now + periodTicks
    period := periodTicks
    reloadTicks := periodTicks
    periodic := 1
    active := 1 }

def jrtTimerStartPeriodic (k : Kernel) (timer : Ptr) (periodTicks : UInt32) : Exec Kernel := do
  if timer = 0 ∨ periodTicks = 0 then
    return k
  let k ← timerLinkLocked k timer
  return k.setTimer timer ((k.timers timer).startedPeriodic k.gKernelTicks periodTicks)

def JrtTimer.restarted (t : JrtTimer) (now : UInt32) : JrtTimer :=
  { t with deadline := now + t.reloadTicks, active := 1 }

def jrtTimerRestart (k : Kernel) (timer : Ptr) : Exec Kernel := do
  if timer = 0 then
    return k
  if (k.timers timer).reloadTicks ≠ 0 then
    let k ← timerLinkLocked k timer
    return k.setTimer timer ((k.timers timer).restarted k.gKernelTicks)
  else
    return k

def jrtTimerStop (k : Kernel) (timer : Ptr) : Kernel :=
  if timer = 0 then k else k.setTimer timer ((k.timers timer).withActive 0)

def jrtTimerTakeExpirations (k : Kernel) (timer : Ptr) : UInt32 × Kernel :=
  if timer = 0 then (0, k)
  else
    ((k.timers timer).expirations, k.setTimer timer ((k.timers timer).withExpirations 0))

/-- `JRT_TimerDispatch`: the calls `callback(argument)` it goes on to make
behind its critical section, as the callback, its argument and how often. -/
def jrtTimerDispatch (k : Kernel) (timer : Ptr) : (Ptr × Ptr × UInt32) × Kernel :=
  if timer = 0 then ((0, 0, 0), k)
  else
    let t := k.timers timer
    if t.callback ≠ 0 then
      ((t.callback, t.argument, t.expirations), k.setTimer timer (t.withExpirations 0))
    else ((0, 0, 0), k)

/-- An expiry is recorded, and wakes the timer service if there is a
callback to run. -/
def timerExpire (k : Kernel) (timer : Ptr) : Kernel :=
  let t := k.timers timer
  let k := k.setTimer timer (t.withExpirations (t.expirations + 1))
  if t.callback ≠ 0 then taskTimerServiceWakeLocked k else k

/-- An expired timer is armed for its next period, or disarmed. -/
def timerRearm (k : Kernel) (timer : Ptr) : Kernel :=
  let t := k.timers timer
  k.setTimer timer
    (if t.periodic ≠ 0 then t.withDeadline (t.deadline + t.period) else t.withActive 0)

def timerTickStep (now : UInt32) (k : Kernel) (timer : Ptr) : Kernel :=
  if (k.timers timer).active ≠ 0 ∧ signedNonneg (now - (k.timers timer).deadline) then
    timerRearm (timerExpire k timer) timer
  else k

def timerTickLoop (now : UInt32) : Nat → Ptr → Kernel → Exec Kernel
  | 0, _, _ => .error .hang
  | fuel + 1, timer, k =>
      if timer = 0 then .ok k
      else
        let k := timerTickStep now k timer
        timerTickLoop now fuel (k.timers timer).next k

def kernelTimerTick (k : Kernel) : Exec Kernel :=
  timerTickLoop k.gKernelTicks addressSpace k.timerList k

/-- The loop of `kernel_timer_service_claim`: the timer it claims. -/
def timerClaimLoop (k : Kernel) : Nat → Ptr → Exec (Option Ptr)
  | 0, _ => .error .hang
  | fuel + 1, timer =>
      if timer = 0 then .ok none
      else if (k.timers timer).callback ≠ 0 ∧ (k.timers timer).expirations ≠ 0 then
        .ok (some timer)
      else timerClaimLoop k fuel (k.timers timer).next

/-- `kernel_timer_service_claim`, up to the yield of
`task_timer_service_block_locked`: the claimed timer, or `none` with the
service task blocked. The caller goes on to call the claimed callback. -/
def kernelTimerServiceClaim (k : Kernel) : Exec (Option Ptr × Kernel) := do
  match ← timerClaimLoop k addressSpace k.timerList with
  | some timer =>
      let t := k.timers timer
      return (some timer, k.setTimer timer (t.withExpirations (t.expirations - 1)))
  | none => return (none, taskTimerServiceBlockLocked k)

/-- The per-timer test of `timer_invariant_check`. -/
def timerCheck (t : JrtTimer) : JrtKernelInvariantCode :=
  if (t.periodic ≠ 0 ∧ t.period = 0) ∨ (t.periodic = 0 ∧ t.period ≠ 0) then
    .timerPeriodicState
  else .none

def timerInvariantCheck (k : Kernel) : Exec (JrtKernelInvariantCode × Ptr) := do
  let next := fun a => (k.timers a).next
  match ← listCycleLoop next addressSpace k.timerList k.timerList with
  | some object => return (.timerListCycle, object)
  | none => listCheckLoop next (fun a => timerCheck (k.timers a)) addressSpace k.timerList

end JustRT
