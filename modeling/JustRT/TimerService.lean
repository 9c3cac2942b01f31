import JustRT.TimerList
import JustRT.Heap

/-!
# The timer service never sleeps on pending work

`TimerWork k l` holds the list of timers together with what the service
task waits for: no unlisted timer has an expiration on record, and while
the service is blocked on its wait object no listed timer is due. Every
kernel operation keeps it.
-/

namespace JustRT

/-- The service task is blocked on its wait object. -/
def Kernel.ServiceIdle (k : Kernel) : Prop :=
  (k.view k.timerServiceTaskIndex).On .timerServiceWaitObject .timerService

/-- While the service sleeps no listed timer is due. A timer that is not on the
list has no expirations left over, which would make it due as soon as it is put
there. -/
structure TimerWork (k : Kernel) (l : List Ptr) : Prop where
  list : Timers k l
  unlisted : ∀ t ∉ l, (k.timers t).expirations = 0
  served : k.ServiceIdle → ∀ t ∈ l, ¬(k.timers t).Due

namespace TimerWork

variable {k k' : Kernel} {l : List Ptr}

/-! ## Steps of the timer operations -/

/-- Steps that touch no timer, and do not put the service to sleep. -/
theorem of_eq (h : TimerWork k l) (htimers : k'.timers = k.timers)
    (hlist : k'.timerList = k.timerList) (hidle : k'.ServiceIdle → k.ServiceIdle) :
    TimerWork k' l := by
  refine ⟨h.list.of_eq htimers hlist, ?_, ?_⟩
  · rw [htimers]
    exact h.unlisted
  · rw [htimers]
    exact fun hi => h.served (hidle hi)

theorem setTimer (h : TimerWork k l) {timer : Ptr} {t : JrtTimer}
    (hnext : timer ∈ l → t.next = (k.timers timer).next)
    (hexp : timer ∉ l → t.expirations = 0) (hdue : t.Due → (k.timers timer).Due) :
    TimerWork (k.setTimer timer t) l := by
  refine ⟨h.list.setTimer hnext, ?_, ?_⟩
  · intro b hb
    rw [setTimer_timers]
    split
    · next heq => exact hexp (heq ▸ hb)
    · exact h.unlisted b hb
  · intro hidle b hb
    rw [setTimer_timers]
    split
    · next heq => exact fun hd => h.served hidle timer (heq ▸ hb) (hdue hd)
    · exact h.served hidle b hb

/-- A write to a timer that keeps the fields a claim reads. -/
theorem setTimer_same (h : TimerWork k l) {timer : Ptr} {t : JrtTimer}
    (hnext : t.next = (k.timers timer).next)
    (hexp : t.expirations = (k.timers timer).expirations)
    (hcallback : t.callback = (k.timers timer).callback) : TimerWork (k.setTimer timer t) l :=
  h.setTimer (fun _ => hnext) (fun hmem => by rw [hexp, h.unlisted timer hmem])
    fun hd => ⟨hcallback ▸ hd.1, hexp ▸ hd.2⟩

theorem wake (h : TimerWork k l) {timer : Ptr} {t : JrtTimer}
    (hnext : timer ∈ l → t.next = (k.timers timer).next)
    (hexp : timer ∉ l → t.expirations = 0) :
    TimerWork (taskTimerServiceWakeLocked (k.setTimer timer t)) l := by
  have hlist : Timers (taskTimerServiceWakeLocked (k.setTimer timer t)) l :=
    (h.list.setTimer hnext).of_eq (by simp) (by simp)
  refine ⟨hlist, ?_, ?_⟩
  · intro b hb
    have htimers : (taskTimerServiceWakeLocked (k.setTimer timer t)).timers
        = (k.setTimer timer t).timers := by simp
    rw [htimers, setTimer_timers]
    split
    · next heq => exact hexp (heq ▸ hb)
    · exact h.unlisted b hb
  · intro hidle
    -- Behind the wake the service is not on its wait object.
    refine absurd hidle ?_
    generalize k.setTimer timer t = k₁
    have hservice : (taskTimerServiceWakeLocked k₁).timerServiceTaskIndex
        = k₁.timerServiceTaskIndex := by simp
    rw [Kernel.ServiceIdle, hservice]
    simp only [taskTimerServiceWakeLocked]
    split
    · rw [taskWaitEnd_view, Function.update_self]
      simp [WaitView.On]
    · next hno => exact fun hon => hno hon

theorem link (h : TimerWork k l) {timer : Ptr} (hne : timer ≠ 0)
    (hlink : timerLinkLocked k timer = .ok k') : TimerWork k' (linkedList l timer) := by
  obtain ⟨k₁, hok, hlist, htimers, -⟩ := timerLinkLocked_spec h.list hne
  rw [hlink] at hok
  obtain rfl := Except.ok.inj hok
  obtain ⟨⟨⟨-, -, -, -, -, -, hservice, -⟩, -⟩, htasks⟩ := timerLinkLocked_frame hlink
  have hexp : ∀ t, (k'.timers t).expirations = (k.timers t).expirations := fun t => by
    obtain ⟨next, ht⟩ := htimers t
    rw [ht]
    rfl
  have hdue : ∀ t, (k'.timers t).Due → (k.timers t).Due := fun t => by
    obtain ⟨next, ht⟩ := htimers t
    rw [ht]
    exact id
  refine ⟨hlist, ?_, ?_⟩
  · intro t ht
    rw [mem_linkedList, not_or] at ht
    rw [hexp]
    exact h.unlisted t ht.2
  · intro hidle t ht hd
    rw [Kernel.ServiceIdle, hservice, view_eq_of_tasks_eq htasks] at hidle
    by_cases hmem : t ∈ l
    · exact h.served hidle t hmem (hdue t hd)
    · exact (hdue t hd).2 (h.unlisted t hmem)

theorem create (h : TimerWork k l) {timer : Ptr} (hcreate : jrtTimerCreateStatic k timer = .ok k') :
    ∃ l', TimerWork k' l' := by
  unfold jrtTimerCreateStatic at hcreate
  split at hcreate
  · cases hcreate
    exact ⟨l, h⟩
  · next hne =>
      rw [timerIsLinkedLocked_eq h.list] at hcreate
      refine ⟨_, (h.setTimer (fun hmem => ?_) (fun _ => rfl) fun hd => absurd rfl hd.2).link hne
        hcreate⟩
      simp [hmem, JrtTimer.created]

theorem setCallback (h : TimerWork k l) (timer callback argument : Ptr) :
    TimerWork (jrtTimerSetCallback k timer callback argument).2 l := by
  simp only [jrtTimerSetCallback]
  split
  · exact h
  · split
    · exact h.wake (fun _ => rfl) fun hmem => h.unlisted timer hmem
    · next hno =>
        refine h.setTimer (fun _ => rfl) (fun hmem => h.unlisted timer hmem) fun hd => ?_
        rw [setTimer_timers, if_pos rfl] at hno
        exact absurd ⟨hd.1, hd.2⟩ hno

theorem start (h : TimerWork k l) {timer : Ptr} {delayTicks : UInt32}
    (hstart : jrtTimerStart k timer delayTicks = .ok k') : ∃ l', TimerWork k' l' := by
  unfold jrtTimerStart at hstart
  split at hstart
  · cases hstart
    exact ⟨l, h⟩
  · next hne =>
      simp only [exec_bind_eq_ok] at hstart
      obtain ⟨k₁, hlink, hstart⟩ := hstart
      cases hstart
      exact ⟨_, (h.link hne hlink).setTimer_same rfl rfl rfl⟩

theorem startPeriodic (h : TimerWork k l) {timer : Ptr} {periodTicks : UInt32}
    (hstart : jrtTimerStartPeriodic k timer periodTicks = .ok k') : ∃ l', TimerWork k' l' := by
  unfold jrtTimerStartPeriodic at hstart
  split at hstart
  · cases hstart
    exact ⟨l, h⟩
  · next hne =>
      simp only [exec_bind_eq_ok] at hstart
      obtain ⟨k₁, hlink, hstart⟩ := hstart
      cases hstart
      exact ⟨_, (h.link (not_or.mp hne).1 hlink).setTimer_same rfl rfl rfl⟩

theorem restart (h : TimerWork k l) {timer : Ptr} (hstart : jrtTimerRestart k timer = .ok k') :
    ∃ l', TimerWork k' l' := by
  unfold jrtTimerRestart at hstart
  split at hstart
  · cases hstart
    exact ⟨l, h⟩
  · next hne =>
      split at hstart
      · simp only [exec_bind_eq_ok] at hstart
        obtain ⟨k₁, hlink, hstart⟩ := hstart
        cases hstart
        exact ⟨_, (h.link hne hlink).setTimer_same rfl rfl rfl⟩
      · cases hstart
        exact ⟨l, h⟩

theorem stop (h : TimerWork k l) (timer : Ptr) : TimerWork (jrtTimerStop k timer) l := by
  unfold jrtTimerStop
  split
  · exact h
  · exact h.setTimer_same rfl rfl rfl

theorem take (h : TimerWork k l) (timer : Ptr) :
    TimerWork (k.setTimer timer ((k.timers timer).withExpirations 0)) l :=
  h.setTimer (fun _ => rfl) (fun _ => rfl) fun hd => absurd rfl hd.2

/-- A claim: the claimed timer was due, so the service was not asleep; and
the service only goes to sleep where no listed timer is due. -/
theorem claim (h : TimerWork k l) {claimed : Option Ptr}
    (hclaim : kernelTimerServiceClaim k = .ok (claimed, k')) : TimerWork k' l := by
  rcases kernelTimerServiceClaim_cases h.list hclaim with
    ⟨t, ht, rfl, hdue, rfl⟩ | ⟨rfl, hnone, rfl⟩
  · exact h.setTimer (fun _ => rfl) (fun hmem => absurd ht hmem) fun _ => hdue
  · refine ⟨h.list.of_eq (by simp) (by simp), ?_, ?_⟩
    · simpa using h.unlisted
    · simpa using fun _ => hnone

/-! ## The tick -/

theorem timerTickStep (h : TimerWork k l) (now : UInt32) {timer : Ptr} (hmem : timer ∈ l) :
    TimerWork (timerTickStep now k timer) l := by
  unfold JustRT.timerTickStep
  split
  · have hexpire : TimerWork (timerExpire k timer) l := by
      simp only [timerExpire]
      split
      · exact h.wake (fun _ => rfl) fun hno => absurd hmem hno
      · next hcallback =>
          exact h.setTimer (fun _ => rfl) (fun hno => absurd hmem hno)
            fun hd => absurd hd.1 hcallback
    refine hexpire.setTimer_same ?_ ?_ ?_ <;> split <;> rfl
  · exact h

theorem foldl_timerTickStep (now : UInt32) (visited : List Ptr) (hsub : visited ⊆ l)
    (h : TimerWork k l) : TimerWork (visited.foldl (JustRT.timerTickStep now) k) l := by
  induction visited generalizing k with
  | nil => exact h
  | cons a visited ih =>
      rw [List.cons_subset] at hsub
      exact ih hsub.2 (h.timerTickStep now hsub.1)

theorem serviceIdle_of_wakes {R : WaitView → UInt32 → Prop} (hw : WakesOnly R k k')
    (hservice : k'.timerServiceTaskIndex = k.timerServiceTaskIndex) (hidle : k'.ServiceIdle) :
    k.ServiceIdle := by
  rw [Kernel.ServiceIdle, hservice] at hidle
  rwa [(hw k.timerServiceTaskIndex).eq_of_blocked hidle.1] at hidle

theorem tick (h : TimerWork k l) (htick : tickTasks k = .ok k') : TimerWork k' l := by
  obtain ⟨k₁, htimer, rfl⟩ := tickTasksBody_cases (tickTasks_body htick)
  have h₀ : TimerWork (advanceTicks k) l := h.of_eq (by simp) (by simp) fun hidle => hidle
  have h₁ : TimerWork k₁ l := by
    rw [kernelTimerTick_eq h₀.list] at htimer
    rw [← Except.ok.inj htimer]
    exact h₀.foldl_timerTickStep _ l (List.Subset.refl l)
  have hloop : WakesOnly tickWakes k₁ ((List.range k₁.taskCount).foldl tickTask k₁) :=
    Scan.foldl_rel WakesOnly.refl WakesOnly.trans tickTask_wakes _ _
  exact h₁.of_eq (by simp) (by simp) (serviceIdle_of_wakes hloop (by simp))

/-! ## Segments -/

/-- A segment puts the service to sleep only at the end of a claim. -/
theorem serviceIdle_of_effect {R : WaitView → UInt32 → Prop} {s : Segment}
    (heffect : SegmentEffect R k s) (hpc : s.pc ≠ .yielding .timerServiceClaim)
    (hservice : s.kernel.timerServiceTaskIndex = k.timerServiceTaskIndex)
    (hidle : s.kernel.ServiceIdle) : k.ServiceIdle := by
  cases heffect with
  | wakes hw => exact serviceIdle_of_wakes hw hservice hidle
  | @blocks w v hw _ _ hview hbegun =>
      rw [Kernel.ServiceIdle, hservice, hview] at hidle
      by_cases hcur : k.timerServiceTaskIndex = k.currentTask
      · rw [hcur, Function.update_self] at hidle
        have hkind : w.kind = .timerService := hbegun.on.2.2.symm.trans hidle.2.2
        cases w with
        | timerServiceClaim => exact absurd hw hpc
        | _ => cases hkind
      · rwa [Function.update_of_ne hcur] at hidle
  | @restates j state _ _ hj hview =>
      rw [Kernel.ServiceIdle, hservice, hview] at hidle
      by_cases hcur : k.timerServiceTaskIndex = j
      · rw [hcur, Function.update_self] at hidle
        have hstate : state = .blocked := hidle.1
        rcases hj with hs | _ | _
        · rcases hs with hs | hs <;> rw [hs] at hstate <;> cases hstate
        · cases hstate
        · cases hstate
      · rwa [Function.update_of_ne hcur] at hidle

/-- Steps that write no timer and do not put the service to sleep. -/
theorem of_heap {kind : ObjectKind} (h : TimerWork k l) (hheap : HeapExcept kind k k')
    (hkind : kind ≠ .timer) (hidle : k'.ServiceIdle → k.ServiceIdle) : TimerWork k' l :=
  h.of_eq (hheap.timers hkind) (hheap.timerList hkind) hidle

theorem call (h : TimerWork k l) {call : Call} {s : Segment} (hs : enter k call = .ok s)
    (hkind : call.objectKind = .timer) : ∃ l', TimerWork s.kernel l' := by
  cases call with
  | timerCreateStatic timer =>
      simp only [enter, exec_bind_eq_ok] at hs
      obtain ⟨k', hcreate, hs⟩ := hs
      obtain rfl := Except.ok.inj hs
      exact h.create hcreate
  | timerSetCallback timer callback argument =>
      have hset := h.setCallback timer callback argument
      simp only [enter] at hs
      split at hs <;> next heq =>
        rw [heq] at hset
        obtain rfl := Except.ok.inj hs
        exact ⟨l, hset⟩
  | timerStart timer delayTicks =>
      simp only [enter, exec_bind_eq_ok] at hs
      obtain ⟨k', hstart, hs⟩ := hs
      obtain rfl := Except.ok.inj hs
      exact h.start hstart
  | timerStartPeriodic timer periodTicks =>
      simp only [enter, exec_bind_eq_ok] at hs
      obtain ⟨k', hstart, hs⟩ := hs
      obtain rfl := Except.ok.inj hs
      exact h.startPeriodic hstart
  | timerRestart timer =>
      simp only [enter, exec_bind_eq_ok] at hs
      obtain ⟨k', hrestart, hs⟩ := hs
      obtain rfl := Except.ok.inj hs
      exact h.restart hrestart
  | timerStop timer =>
      obtain rfl := Except.ok.inj hs
      exact ⟨l, h.stop timer⟩
  | timerTakeExpirations timer =>
      obtain rfl := Except.ok.inj hs
      refine ⟨l, ?_⟩
      show TimerWork (jrtTimerTakeExpirations k timer).2 l
      unfold jrtTimerTakeExpirations
      split
      · exact h
      · exact h.take timer
  | timerDispatch timer =>
      obtain rfl := Except.ok.inj hs
      refine ⟨l, ?_⟩
      show TimerWork (jrtTimerDispatch k timer).2 l
      simp only [jrtTimerDispatch]
      split
      · exact h
      · split
        · exact h.take timer
        · exact h
  | _ => cases hkind

theorem segment {c : Cfg} {a : Action} {s : Segment} (h : TimerWork c.kernel l)
    (hseg : ThreadSegment c a s) : ∃ l', TimerWork s.kernel l' := by
  have hservice : s.kernel.timerServiceTaskIndex = c.kernel.timerServiceTaskIndex :=
    hseg.frame.2.2.2.2.2.2.1
  -- Every segment but the end of a claim leaves the service where it was.
  have hrest : s.pc ≠ .yielding .timerServiceClaim → s.kernel.ServiceIdle →
      c.kernel.ServiceIdle := fun hpc hidle => by
    rcases hseg.effect with ⟨heffect, -⟩ | ⟨w, -, rfl⟩
    · exact serviceIdle_of_effect heffect hpc hservice hidle
    · exact hidle
  by_cases hkind : a.objectKind c = .timer
  · cases hseg with
    | call _ _ hs => exact h.call hs hkind
    | @entered w reserved _ _ hpc hs =>
        rw [Action.objectKind, hpc] at hkind
        cases w with
        | timerServiceClaim =>
            simp only [proceedEntered, exec_bind_eq_ok] at hs
            obtain ⟨⟨claimed, k'⟩, hclaim, hs⟩ := hs
            have hclaimed := h.claim hclaim
            cases claimed <;> obtain rfl := Except.ok.inj hs <;> exact ⟨l, hclaimed⟩
        | _ => cases hkind
    | yielding => exact ⟨l, h⟩
    | @resumed w _ hpc =>
        rw [Action.objectKind, hpc] at hkind
        cases w with
        | timerServiceClaim => exact ⟨l, h⟩
        | _ => cases hkind
    | requestSwitch => exact ⟨l, h⟩
    | inTime => exact ⟨l, h⟩
    | delayed hpc =>
        rw [Action.objectKind, hpc] at hkind
        cases hkind
  · refine ⟨l, h.of_heap hseg.heap hkind (hrest fun hpc => ?_)⟩
    -- The end of a claim writes timers.
    obtain ⟨reserved, hentered⟩ := hseg.entered_of_yielding hpc
    cases hseg <;> simp_all [Action.objectKind, Pc.objectKind, WaitCall.objectKind]

/-- Every step keeps the service from sleeping on work. -/
theorem step {c c' : Cfg} {a : Action} {o : Observation} (h : ∃ l, TimerWork c.kernel l)
    (hstep : StepCases c a c' o) : ∃ l, TimerWork c'.kernel l := by
  obtain ⟨l, h⟩ := h
  cases hstep with
  | start _ hk =>
      obtain rfl := jrtKernelStart_spec hk
      exact ⟨l, h.of_eq rfl rfl id⟩
  | thread _ _ hseg => exact h.segment hseg
  | tick _ hk => exact ⟨l, h.tick hk⟩
  | @isr call _ =>
      have hservice : (isrCall c.kernel call).1.timerServiceTaskIndex
          = c.kernel.timerServiceTaskIndex := (isrCall_frame c.kernel call).2.2.2.2.2.2.1
      refine ⟨l, h.of_heap (isrCall_heap c.kernel call) ?_
        (serviceIdle_of_wakes (isrCall_wakes c.kernel call) hservice)⟩
      cases call <;> simp [IsrCall.objectKind]
  | @pendsv currentSp sp k _ _ hk =>
      refine ⟨l, h.of_heap (pendsvSwitch_heap hk .none) (by simp) fun hidle => ?_⟩
      obtain ⟨k₁, hsave, hframe, -, -, -, hview⟩ := pendsvSwitch_cases hk
      obtain ⟨-, hview₁, -⟩ := pendsvSave_spec hsave
      have hservice : k.timerServiceTaskIndex = c.kernel.timerServiceTaskIndex :=
        hframe.2.2.2.2.1
      rw [Kernel.ServiceIdle, hservice, hview] at hidle
      -- A switch writes no state but `READY` and `RUNNING`.
      by_cases hnext : c.kernel.timerServiceTaskIndex
          = pendsvNextIndex k₁ c.kernel.gCurrentTaskIndex
      · rw [hnext, Function.update_self] at hidle
        cases hidle.1
      · rw [Function.update_of_ne hnext] at hidle
        have hblocked := Sched.saved_blocked hsave hidle.1
        rw [hview₁] at hidle
        by_cases hcur : c.kernel.timerServiceTaskIndex = c.kernel.currentTask
        · rw [hcur, Function.update_self, ← hcur, demoted_of_ne (by simp [hblocked])] at hidle
          exact hidle
        · rwa [Function.update_of_ne hcur] at hidle
  | store => exact ⟨l, h.of_eq rfl rfl id⟩
  | cycles => exact ⟨l, h.of_eq rfl rfl id⟩

end TimerWork

/-! ## The theorem -/

/-- Zero-initialised timers. -/
structure Kernel.TimersZeroed (k : Kernel) : Prop where
  list : k.timerList = 0
  timers : ∀ t, k.timers t = .created 0

theorem Kernel.TimersZeroed.work {k : Kernel} (h : k.TimersZeroed) : TimerWork k [] := by
  refine ⟨?_, fun t _ => ?_, fun _ t ht => absurd ht (by simp)⟩
  · show Chain.Linked 0 (fun a => (k.timers a).next) k.timerList []
    rw [h.list]
    exact .nil
  · rw [h.timers]
    rfl

/-- From zero-initialised timers, whatever tasks, timer callbacks, handlers
and ticks do: `timer_list` is a list of distinct timers, and while the timer
service is `BLOCKED` on its wait object none of them has both a callback and
an expiration on record. -/
theorem timer_service_never_sleeps_on_work (img : Image) (c₀ c : Cfg) (tr : List Transition)
    (hboot : Boot img c₀) (hzero : c₀.kernel.TimersZeroed) (hrun : Run c₀ tr c) :
    ∃ l, Chain.Linked 0 (fun a => (c.kernel.timers a).next) c.kernel.timerList l
      ∧ ((c.kernel.tasks c.kernel.timerServiceTaskIndex).state = .blocked →
        (c.kernel.tasks c.kernel.timerServiceTaskIndex).waitObject = .timerServiceWaitObject →
        ∀ t ∈ l, ¬((c.kernel.timers t).callback ≠ 0 ∧ (c.kernel.timers t).expirations ≠ 0)) := by
  have hsched : Sched c := Reachable.sched ⟨c₀, tr, hboot, hrun⟩
  obtain ⟨l, hwork⟩ := hrun.induction (fun c => ∃ l, TimerWork c.kernel l)
    (fun h hstep => TimerWork.step h hstep) ⟨[], hzero.work⟩
  refine ⟨l, hwork.list, fun hblocked hobject => hwork.served ?_⟩
  -- A task blocked on the service's wait object is in its claim.
  have hlt : c.kernel.timerServiceTaskIndex < c.kernel.taskCount := by
    rw [hsched.service, hsched.count]
    omega
  obtain ⟨call, hwithin⟩ := hsched.blocked _ hlt hblocked
  have hon := (hsched.waiting _ _ hwithin).on hblocked
  have hcall : call.object c.kernel.timerServiceTaskIndex = .timerServiceWaitObject :=
    hon.2.1.symm.trans hobject
  cases call with
  | timerServiceClaim => exact hon
  | _ => cases hcall

theorem sampleBoot_timersZeroed {priorities : List Nat} {c : Cfg}
    (h : sampleBoot priorities = some c) : c.kernel.TimersZeroed := by
  unfold sampleBoot at h
  split at h
  · next hinit =>
      cases h
      obtain ⟨-, -, -, -, -, -, htimers, hlist⟩ := (jrtKernelInit_booted hinit).heap
      exact ⟨hlist, fun t => congrFun htimers t⟩
  · cases h

/-- A run in which a timer with a callback expires, the service claims the
expiration, comes back from the callback and goes to sleep. -/
def claimActions : List Action :=
  [.start, .call (.timerCreateStatic 16), .call (.timerSetCallback 16 0x500 0),
    .call (.timerStart 16 1), .tick, .pendsv (sampleSp 0), .call (.taskDelay 100),
    .pendsv (sampleSp 0), .proceed fun _ => 0, .proceed fun _ => 0, .call .callbackReturn,
    .proceed fun _ => 0]

theorem timer_service_never_sleeps_on_work_sample : ∃ tr c,
    sampleRun [2] claimActions = some (tr, c)
      ∧ c.kernel.timerList = 16 ∧ (c.kernel.tasks c.kernel.timerServiceTaskIndex).state = .blocked
      ∧ ∃ l, Chain.Linked 0 (fun a => (c.kernel.timers a).next) c.kernel.timerList l
        ∧ ∀ t ∈ l, ¬((c.kernel.timers t).callback ≠ 0 ∧ (c.kernel.timers t).expirations ≠ 0) := by
  have hsome : ((sampleRun [2] claimActions).any fun r =>
      r.2.kernel.timerList == 16
        && (r.2.kernel.tasks r.2.kernel.timerServiceTaskIndex).state == .blocked
        && (r.2.kernel.tasks r.2.kernel.timerServiceTaskIndex).waitObject
          == .timerServiceWaitObject) = true := by decide +kernel
  obtain ⟨⟨tr, c⟩, hrun, hc⟩ := (Option.any_eq_true _ _).mp hsome
  simp only [Bool.and_eq_true, beq_iff_eq] at hc
  obtain ⟨c₀, hboot, htr⟩ := sampleRun_run hrun
  obtain ⟨l, hlist, hserved⟩ := timer_service_never_sleeps_on_work .sample c₀ c tr
    (sampleBoot_boot hboot) (sampleBoot_timersZeroed hboot) htr
  exact ⟨tr, c, hrun, hc.1.1, hc.1.2, l, hlist, hserved hc.1.2 hc.2⟩

end JustRT
