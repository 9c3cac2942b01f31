import JustRT.Timeout

/-!
# Delays on an absolute schedule

`JRT_TaskDelayUntil` reads the tick, turns the absolute wake-up time into a
delay, and then sleeps. Interrupts may land in between. Each tick that does
postpones the wake-up by one, so the caller keeps its schedule exactly if
there is none, or if it was late when it read the tick.
-/

namespace JustRT

/-! ## The schedule -/

/-- Task `t` sleeps from `c` on through `tr`. -/
def SleepsThrough (t : Nat) (c : Cfg) (tr : List Transition) : Prop :=
  (c.kernel.tasks t).state = .sleeping ∧ ∀ x ∈ tr, (x.post.kernel.tasks t).state = .sleeping

/-- In `c`, behind its delay segment and `passed` ticks behind its entry,
task `t` keeps to a wake-up time `due` ticks behind its entry:

- it does not sleep only if that time is reached;
- it never sleeps past it;
- it is made `READY` in the tick that reaches it, and in no other step. -/
structure OnSchedule (t due passed : Nat) (c : Cfg) : Prop where
  reached : (c.kernel.tasks t).state ≠ .sleeping → due ≤ passed
  asleep : ∀ tr c', Run c tr c' → SleepsThrough t c tr → passed + ticksIn tr < due
  awake : ∀ tr c' a c'' o, Run c tr c' → SleepsThrough t c tr → step c' a = some (c'', o) →
    ((c''.kernel.tasks t).state = .ready ↔ a = .tick ∧ passed + ticksIn tr + 1 = due)

/-- In some run the sleep of task `t` ends. -/
def SleepEnds (t : Nat) (c : Cfg) : Prop :=
  ∃ tr c' a c'' o, Run c tr c' ∧ SleepsThrough t c tr ∧ step c' a = some (c'', o)
    ∧ (c''.kernel.tasks t).state = .ready

/-- The wake-up time is ahead when the caller reads the tick, and no tick
lands between that and its delay, or it is at most half of the tick range
past. -/
def InTime (due before window : Nat) : Prop :=
  (before < due ∧ window = 0) ∨ (due ≤ before ∧ (before - due) % 2 ^ 32 < 2 ^ 31)

/-! ## The delay -/

section Delay

variable {now next entry : UInt32} {due before : Nat}

/-- A wake-up time that is ahead is turned into the ticks left. -/
theorem ahead_eq (hnow : now = entry + .ofNat before) (hnext : next = entry + .ofNat due)
    (hahead : before < due) (hle : due ≤ 2 ^ 31) :
    signedNonneg (now - next) = false ∧ (next - now).toNat = due - before := by
  have hsum : next = now + .ofNat (due - before) := by
    rw [hnow, hnext, UInt32.add_assoc, ← UInt32.ofNat_add, Nat.add_sub_cancel' hahead.le]
  refine ⟨signedNonneg_ahead (by omega) (by omega) hsum, ?_⟩
  have hlt : due - before < 2 ^ 32 := by omega
  rw [hsum, UInt32.add_comm, UInt32.add_sub_cancel, UInt32.toNat_ofNat_of_lt' hlt]

/-- A wake-up time that is past looks past up to half of the tick range. -/
theorem past_iff (hnow : now = entry + .ofNat before) (hnext : next = entry + .ofNat due)
    (hpast : due ≤ before) :
    signedNonneg (now - next) = true ↔ (before - due) % 2 ^ 32 < 2 ^ 31 := by
  have hsum : now = next + .ofNat (before - due) := by
    rw [hnow, hnext, UInt32.add_assoc, ← UInt32.ofNat_add, Nat.add_sub_cancel' hpast]
  rw [hsum, UInt32.add_comm, UInt32.add_sub_cancel, signedNonneg, decide_eq_true_iff,
    UInt32.lt_iff_toNat_lt, UInt32.toNat_ofNat']
  rfl

end Delay

/-! ## The call -/

section Call

variable {c c' : Cfg} {a : Action} {o : Observation} {t elapsed : Nat} {next now n : UInt32}
  {source : Nat → UInt8} {s : Segment}

/-- Between its tick read and its delay the caller stays where it is. -/
theorem StepCases.delaying_kept (hstep : StepCases c a c' o) (hpc : c.pc t = .delaying next now)
    (hin : c'.pc t ≠ .user) : c'.pc t = .delaying next now := by
  cases hstep with
  | @thread a s _ _ hseg =>
      by_cases ht : t = c.current
      · subst ht
        refine absurd ?_ hin
        rw [Sched.after_pc_current]
        cases hseg with
        | call hpc' | entered hpc' | yielding hpc' | resumed hpc' | requestSwitch hpc' =>
            rw [hpc] at hpc'
            cases hpc'
        | inTime | delayed => rfl
      · rw [Sched.after_pc_of_ne s ht]
        exact hpc
  | start | tick | isr | pendsv | store | cycles => exact hpc

theorem Run.delaying_kept {tr : List Transition} (hrun : Run c tr c')
    (hpc : c.pc t = .delaying next now) (hin : ∀ x ∈ tr, x.post.pc t ≠ .user) :
    c'.pc t = .delaying next now := by
  induction hrun with
  | nil => exact hpc
  | snoc _ hstep ih =>
      exact (step_cases hstep).delaying_kept (ih fun x hx => hin x (List.mem_append_left _ hx))
        (hin _ List.mem_concat_self)

theorem Slept.step_asleep (h : Slept t c (some (n, elapsed))) (hs : Sched c)
    (ht : t < c.kernel.taskCount) (hstep : StepCases c a c' o)
    (hsleeping : (c.kernel.tasks t).state = .sleeping) :
    Slept t c' (some (n, elapsed + a.isTick.toNat)) := by
  have hevent : Transition.event Action.delay t ⟨c, a, o, c'⟩ = a.passing := by
    rw [Transition.event]
    by_cases htc : c.current = t
    · rw [if_pos htc]
      cases hdelay : a.delay c with
      | none => rfl
      | some m =>
          refine absurd ?_ (hstep.current_awake hs hdelay)
          rw [htc]
          exact hsleeping
    · rw [if_neg htc]
  have hafter := h.step hs ht hstep
  rw [hevent, Action.passing_step] at hafter
  exact hafter

theorem Slept.run_asleep {tr : List Transition} (h : Slept t c (some (n, 0))) (hs : Sched c)
    (ht : t < c.kernel.taskCount) (hrun : Run c tr c') (hsleeps : SleepsThrough t c tr) :
    Slept t c' (some (n, ticksIn tr)) ∧ (c'.kernel.tasks t).state = .sleeping := by
  induction hrun with
  | nil => exact ⟨h, hsleeps.1⟩
  | @snoc tr c₁ c₂ a o hrun hstep ih =>
      have hs₁ : Sched c₁ := hrun.induction Sched (fun hs hst => hs.step hst) hs
      obtain ⟨hslept, hsleeping⟩ := ih ⟨hsleeps.1, fun x hx =>
        hsleeps.2 x (List.mem_append_left _ hx)⟩
      rw [ticksIn, countP_snoc]
      exact ⟨hslept.step_asleep hs₁ (hrun.taskCount ▸ ht) (step_cases hstep) hsleeping,
        hsleeps.2 _ List.mem_concat_self⟩

theorem Slept.ends {tr : List Transition} (h : Slept t c (some (n, 0))) (hs : Sched c)
    (ht : t < c.kernel.taskCount) (hrun : Run c tr c') (hsleeps : SleepsThrough t c tr) :
    ticksIn tr < n.toNat ∧ ∀ a c'' o, JustRT.step c' a = some (c'', o) →
      ((c''.kernel.tasks t).state = .ready ↔ a = .tick ∧ ticksIn tr + 1 = n.toNat) := by
  have hs' : Sched c' := hrun.induction Sched (fun hs hst => hs.step hst) hs
  obtain ⟨hslept, hsleeping⟩ := h.run_asleep hs ht hrun hsleeps
  obtain ⟨m, elapsed, hshown, hsum, hpos⟩ := hslept _ (sleep_eq_some_iff.mpr ⟨hsleeping, rfl⟩)
  obtain ⟨rfl, rfl⟩ := Prod.mk.inj (Option.some.inj hshown)
  have hne : ((c'.kernel.tasks t).sleepTicks).toNat ≠ 0 :=
    fun hzero => hpos (UInt32.toNat_inj.mp hzero)
  refine ⟨by omega, fun a c'' o hstep => ?_⟩
  obtain ⟨m, elapsed, hshown, -, hready, -⟩ :=
    hslept.law hs' (hrun.taskCount ▸ ht) (step_cases hstep) hsleeping
  obtain ⟨rfl, rfl⟩ := Prod.mk.inj (Option.some.inj hshown)
  exact hready

/-- The tick read: the wake-up time is stored, and the caller goes on with
both. -/
theorem taskDelayUntil_call {previousWake period : UInt32}
    (hstep : step c (.call (.taskDelayUntil (some previousWake) period)) = some (c', o)) :
    o.output = some (.value (previousWake + period))
      ∧ c'.pc c.current = .delaying (previousWake + period) c.kernel.gKernelTicks := by
  cases step_cases hstep with
  | thread _ _ hseg =>
      cases hseg with
      | call _ _ hs =>
          obtain rfl := Except.ok.inj hs
          exact ⟨rfl, Sched.after_pc_current _⟩

/-- The delay segment sleeps through the difference, unless it looks past. -/
theorem taskDelayUntil_delay (hs : Sched c) (hpc : c.pc c.current = .delaying next now)
    (hstep : StepCases c (.proceed source) c' o) :
    (signedNonneg (now - next) = true → (c'.kernel.tasks c.current).state ≠ .sleeping)
      ∧ (signedNonneg (now - next) = false → next - now ≠ 0 →
        (c'.kernel.tasks c.current).state = .sleeping
          ∧ Slept c.current c' (some (next - now, 0))) := by
  have hlt := hs.current_lt
  have hrun : (c.kernel.view c.current).state = .running := by
    cases hstep with
    | thread _ hp _ => exact hs.current_running hp (by simp [hpc])
  constructor
  · intro hpast
    cases hstep with
    | thread _ _ hseg =>
        cases hseg with
        | inTime =>
            change (c.kernel.view c.current).state ≠ .sleeping
            rw [hrun]
            decide
        | delayed hpc' hahead =>
            obtain ⟨rfl, rfl⟩ := Pc.delaying.inj (hpc.symm.trans hpc')
            rw [hpast] at hahead
            cases hahead
        | entered hpc' | yielding hpc' | resumed hpc' | requestSwitch hpc' =>
            rw [hpc] at hpc'
            cases hpc'
  · intro hahead hne
    have hdelay : (Action.proceed source).delay c = some (next - now) := by
      simp [Action.delay, hpc, hahead]
    refine ⟨hstep.delayed_law hs hdelay hne, ?_⟩
    have hslept : Slept c.current c none := fun m hm => by
      have hsleeping := (sleep_eq_some_iff.mp hm).1
      change (c.kernel.view c.current).state = .sleeping at hsleeping
      rw [hrun] at hsleeping
      cases hsleeping
    have hevent : Transition.event Action.delay c.current ⟨c, .proceed source, o, c'⟩
        = .set (next - now) := by
      simp only [Transition.event, if_true, hdelay]
      rfl
    have hafter := hslept.step hs hlt hstep
    rw [hevent] at hafter
    exact hafter

end Call

/-- A wake-up time, kept in the caller's variable, that one call advances
from `previous` to `next`. -/
def Advances (period previous next : UInt32) : Prop :=
  ∃ c c' o, step c (.call (.taskDelayUntil (some previous) period)) = some (c', o)
    ∧ o.output = some (.value next)

theorem advances_mul {period : UInt32} {wake : Nat → UInt32} {k : Nat}
    (h : ∀ i < k, Advances period (wake i) (wake (i + 1))) :
    wake k = wake 0 + .ofNat k * period := by
  induction k with
  | zero => simp
  | succ k ih =>
      obtain ⟨c, c', o, hstep, hvalue⟩ := h k (Nat.lt_succ_self k)
      rw [(taskDelayUntil_call hstep).1] at hvalue
      have hlast : wake (k + 1) = wake k + period :=
        (Output.value.inj (Option.some.inj hvalue)).symm
      rw [hlast, ih fun i hi => h i (Nat.lt_succ_of_lt hi), UInt32.ofNat_add, UInt32.add_mul,
        UInt32.add_assoc]
      congr 2
      exact (UInt32.one_mul period).symm

/-- A call of `JRT_TaskDelayUntil`, whose wake-up time is ahead at its entry
in `e`, reads the tick in `c` and delays its task in `c₂`. It keeps its
schedule if it is in time, and, where its sleep can end, only then; `k`
calls advance the wake-up time by `k` periods. -/
theorem delayUntil_onSchedule_iff (img : Image) (e c c₁ c₂ c₃ : Cfg)
    (before window : List Transition) (o₁ o : Observation) (source : Nat → UInt8)
    (previousWake period : UInt32) (due : Nat) (hreach : Reachable img e) (hbefore : Run e before c)
    (hcall : step c (.call (.taskDelayUntil (some previousWake) period)) = some (c₁, o₁))
    (hwindow : Run c₁ window c₂) (hin : ∀ x ∈ window, x.post.pc c.current ≠ .user)
    (hcurrent : c₂.current = c.current) (hdelay : step c₂ (.proceed source) = some (c₃, o))
    (hnext : previousWake + period = e.kernel.gKernelTicks + .ofNat due) (hle : due ≤ 2 ^ 31) :
    (InTime due (ticksIn before) (ticksIn window) →
        OnSchedule c.current due (ticksIn before + ticksIn window) c₃)
      ∧ (((c₃.kernel.tasks c.current).state = .sleeping → SleepEnds c.current c₃) →
        OnSchedule c.current due (ticksIn before + ticksIn window) c₃ →
          InTime due (ticksIn before) (ticksIn window))
      ∧ ∀ (wake : Nat → UInt32) (k : Nat), (∀ i < k, Advances period (wake i) (wake (i + 1))) →
          wake k = wake 0 + .ofNat k * period := by
  have hreach₂ : Reachable img c₂ := ((hreach.run hbefore).step hcall).run hwindow
  have hs₂ := hreach₂.sched
  have hs₃ := (hreach₂.step hdelay).sched
  have hcases := step_cases hdelay
  have hlt₃ : c.current < c₃.kernel.taskCount := by
    rw [hcases.taskCount, ← hcurrent]
    exact hs₂.current_lt
  have hpc := hwindow.delaying_kept (taskDelayUntil_call hcall).2 hin
  rw [← hcurrent] at hpc
  have hend := taskDelayUntil_delay hs₂ hpc hcases
  rw [hcurrent] at hend
  obtain ⟨hpast, hahead⟩ := hend
  have hnow := hbefore.ticks
  by_cases hreached : due ≤ ticksIn before
  · -- The wake-up time is reached when the tick is read.
    have hsigned := past_iff hnow hnext hreached
    refine ⟨fun hin => ?_, fun _ hschedule => ?_, fun wake k => advances_mul⟩
    · have hlate : (ticksIn before - due) % 2 ^ 32 < 2 ^ 31 := by
        rcases hin with ⟨hlt, -⟩ | ⟨-, hlate⟩
        · exact absurd hreached (Nat.not_le.mpr hlt)
        · exact hlate
      have hawake := hpast (hsigned.mpr hlate)
      exact ⟨fun _ => Nat.le_add_right_of_le hreached,
        fun tr c' _ hsleeps => absurd hsleeps.1 hawake,
        fun tr c' a c'' o _ hsleeps => absurd hsleeps.1 hawake⟩
    · refine Or.inr ⟨hreached, hsigned.mp ?_⟩
      by_contra hnot
      rw [Bool.not_eq_true] at hnot
      -- It sleeps although the time is reached.
      have hne : previousWake + period - c.kernel.gKernelTicks ≠ 0 := fun hzero => by
        have hsame : c.kernel.gKernelTicks - (previousWake + period) = 0 := by
          rw [← UInt32.neg_sub, hzero]
          rfl
        rw [hsame] at hnot
        cases hnot
      obtain ⟨hsleeping, -⟩ := hahead hnot hne
      have hbound := hschedule.asleep [] c₃ .nil ⟨hsleeping, fun x hx => absurd hx List.not_mem_nil⟩
      exact absurd hreached (Nat.not_le.mpr (Nat.lt_of_le_of_lt (Nat.le_add_right _ _) hbound))
  · -- It is ahead: the sleep lasts for what was left then.
    have hreached' := Nat.lt_of_not_le hreached
    obtain ⟨hsigned, hleft⟩ := ahead_eq hnow hnext hreached' hle
    have hne : previousWake + period - c.kernel.gKernelTicks ≠ 0 := fun hzero => by
      rw [hzero] at hleft
      change 0 = _ at hleft
      omega
    obtain ⟨hsleeping, hslept⟩ := hahead hsigned hne
    refine ⟨fun hin => ?_, fun hends hschedule => ?_, fun wake k => advances_mul⟩
    · have hnone : ticksIn window = 0 := by
        rcases hin with ⟨-, hnone⟩ | ⟨hle', -⟩
        · exact hnone
        · exact absurd hle' hreached
      rw [hnone, Nat.add_zero]
      refine ⟨fun hawake => absurd hsleeping hawake, fun tr c' hrun hsleeps => ?_,
        fun tr c' a c'' o' hrun hsleeps hstep => ?_⟩
      · have hbound := (hslept.ends hs₃ hlt₃ hrun hsleeps).1
        omega
      · rw [(hslept.ends hs₃ hlt₃ hrun hsleeps).2 a c'' o' hstep, hleft]
        refine and_congr_right fun _ => ?_
        omega
    · -- The tick that ends the sleep is the one the schedule asks for.
      obtain ⟨tr, c', a, c'', o', hrun, hsleeps, hstep, hready⟩ := hends hsleeping
      have hlast := ((hslept.ends hs₃ hlt₃ hrun hsleeps).2 a c'' o' hstep).mp hready
      have hscheduled := (hschedule.awake tr c' a c'' o' hrun hsleeps hstep).mp hready
      refine Or.inl ⟨hreached', ?_⟩
      have hsum := hscheduled.2
      have hticks := hlast.2
      rw [hleft] at hticks
      omega

/-- The first of two tasks calls `JRT_TaskDelayUntil` in `e` at tick 0, with
a wake-up time of 0 and a period of 1, and its delay segment runs behind
`window`. -/
structure DelayRun (e c₁ c₂ c₃ : Cfg) (window : List Transition) (o₁ o : Observation) : Prop where
  reachable : Reachable .sample e
  call : step e (.call (.taskDelayUntil (some 0) 1)) = some (c₁, o₁)
  waits : Run c₁ window c₂
  inside : ∀ x ∈ window, x.post.pc e.current ≠ .user
  current : c₂.current = e.current
  delay : step c₂ (.proceed fun _ => 0) = some (c₃, o)
  next : (0 : UInt32) + 1 = e.kernel.gKernelTicks + .ofNat 1

/-- Such a call, with `actions` in its window, that puts its task to sleep. -/
def delaySleeps (actions : List Action) : Bool :=
  (sampleRun [2, 1] [.start]).any fun r =>
    (step r.2 (.call (.taskDelayUntil (some 0) 1))).any fun r₁ =>
      (runActions r₁.1 actions).any fun r₂ =>
        (step r₂.2 (.proceed fun _ => 0)).any fun r₃ =>
          decide ((∀ x ∈ r₂.1, x.post.pc r.2.current ≠ .user) ∧ r₂.2.current = r.2.current
            ∧ (0 : UInt32) + 1 = r.2.kernel.gKernelTicks + .ofNat 1
            ∧ (r₃.1.kernel.tasks r.2.current).state = .sleeping)

theorem delayRun_of_sleeps {actions : List Action} (h : delaySleeps actions = true) :
    ∃ e c₁ c₂ c₃ window o₁ o, DelayRun e c₁ c₂ c₃ window o₁ o
      ∧ window.map Transition.action = actions
      ∧ (c₃.kernel.tasks e.current).state = .sleeping := by
  obtain ⟨⟨tr, e⟩, hrun, h⟩ := (Option.any_eq_true _ _).mp h
  obtain ⟨⟨c₁, o₁⟩, hcall, h⟩ := (Option.any_eq_true _ _).mp h
  obtain ⟨⟨window, c₂⟩, hwindow, h⟩ := (Option.any_eq_true _ _).mp h
  obtain ⟨⟨c₃, o⟩, hdelay, h⟩ := (Option.any_eq_true _ _).mp h
  obtain ⟨hin, hcurrent, hnext, hsleeping⟩ := of_decide_eq_true h
  exact ⟨e, c₁, c₂, c₃, window, o₁, o, ⟨sampleRun_reachable hrun, hcall, runActions_run hwindow,
    hin, hcurrent, hdelay, hnext⟩, runActions_actions hwindow, hsleeping⟩

/-- One tick between the tick read and the delay: the task sleeps although
its wake-up time is reached. -/
theorem delayUntil_oversleeps : ∃ e c₁ c₂ c₃ window o₁ o, DelayRun e c₁ c₂ c₃ window o₁ o
    ∧ ticksIn window = 1 ∧ (c₃.kernel.tasks e.current).state = .sleeping
    ∧ ¬OnSchedule e.current 1 (ticksIn window) c₃ := by
  have hsleeps : delaySleeps [.tick, .pendsv (sampleSp 0)] = true := by decide +kernel
  obtain ⟨e, c₁, c₂, c₃, window, o₁, o, hrun, hactions, hsleeping⟩ := delayRun_of_sleeps hsleeps
  have hticks : ticksIn window = 1 := by
    have hcount : ticksIn window = (window.map Transition.action).countP Action.isTick := by
      rw [List.countP_map]
      rfl
    rw [hcount, hactions]
    rfl
  refine ⟨e, c₁, c₂, c₃, window, o₁, o, hrun, hticks, hsleeping, fun hschedule => ?_⟩
  have hbound := hschedule.asleep [] c₃ .nil ⟨hsleeping, fun x hx => absurd hx List.not_mem_nil⟩
  rw [hticks] at hbound
  exact absurd hbound (by decide)

/-- Without one it keeps its schedule. -/
theorem delayUntil_onSchedule_iff_sample : ∃ e c₁ c₂ c₃ window o₁ o,
    DelayRun e c₁ c₂ c₃ window o₁ o ∧ (c₃.kernel.tasks e.current).state = .sleeping
      ∧ OnSchedule e.current 1 (ticksIn [] + ticksIn window) c₃ := by
  have hsleeps : delaySleeps [] = true := by decide +kernel
  obtain ⟨e, c₁, c₂, c₃, window, o₁, o, hrun, hactions, hsleeping⟩ := delayRun_of_sleeps hsleeps
  obtain rfl := List.map_eq_nil_iff.mp hactions
  exact ⟨e, c₁, c₂, c₃, [], o₁, o, hrun, hsleeping,
    (delayUntil_onSchedule_iff .sample e e c₁ c₂ c₃ [] [] o₁ o _ 0 1 1 hrun.reachable .nil hrun.call
      hrun.waits hrun.inside hrun.current hrun.delay hrun.next (by decide)).1
      (Or.inl ⟨by decide, rfl⟩)⟩

end JustRT
