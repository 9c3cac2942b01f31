import JustRT.Checker
import JustRT.Grant
import JustRT.TimerModel

/-!
# Every step keeps the kernel healthy

What the invariant checker looks for is an invariant of the system, under
the promises an application makes: it uses objects it has created, and
locks no mutex `2 ^ 32` times over. `Kept` carries that along a run,
together with the scheduler's invariant, which says what a blocked task
waits on. The checker then never finds anything.
-/

namespace JustRT

open Chain

/-! ## Wait records -/

namespace WaitView.Clean

variable {v v' : WaitView}

theorem fresh (state : TaskState) : (WaitView.fresh state).Clean :=
  fun _ => ⟨rfl, rfl, rfl, rfl, rfl⟩

theorem ended (r : UInt32) : (v.ended r).Clean := fun _ => ⟨rfl, rfl, rfl, rfl, rfl⟩

theorem of_blocked (hb : v.state = .blocked) : v.Clean := fun hne => absurd hb hne

/-- A state is written that blocks and unblocks nobody. -/
theorem withState (h : v.Clean) {state : TaskState}
    (hiff : state = .blocked ↔ v.state = .blocked) : (v.withState state).Clean :=
  fun hne => h fun hb => hne (hiff.mpr hb)

theorem woken {R : WaitView → UInt32 → Prop} (h : v.Clean) (hw : Woken R v v') : v'.Clean := by
  cases hw with
  | kept => exact h
  | ended => exact .ended _
  | awoken hs => exact h.withState (by simp [hs])

end WaitView.Clean

section Clean

variable {c c' : Cfg} {a : Action} {o : Observation}

theorem ThreadSegment.clean (hs : Sched c) (hp : c.pending = false) {s : Segment}
    (hseg : ThreadSegment c a s) {i : Nat} (h : (c.kernel.view i).Clean) :
    (s.kernel.view i).Clean := by
  by_cases hi : i = c.current
  · subst hi
    rcases hseg.effect with ⟨heffect, hnot⟩ | ⟨w, -, rfl⟩
    · have hrun := hs.current_running hp hnot
      cases heffect with
      | wakes hw => exact h.woken (hw _)
      | blocks _ _ _ hview hbegun =>
          rw [hs.currentTask] at hview
          rw [hview, Function.update_self]
          exact .of_blocked hbegun.on.1
      | @restates j state _ _ hj hview =>
          rw [hview]
          by_cases hij : c.current = j
          · rw [hij] at hrun h ⊢
            rw [Function.update_self]
            refine h.withState ?_
            cases hj with
            | delayed hstate => rcases hstate with rfl | rfl <;> simp [hrun]
            | suspended => simp [hrun]
            | resumed => simp [hrun]
          · rw [Function.update_of_ne hij]
            exact h
    · exact h
  · rcases hseg.view_others hs hi with hw | ⟨state, hstate, hiff⟩
    · exact h.woken hw
    · rw [hstate]
      exact h.withState hiff

theorem StepCases.clean (hs : Sched c) (hstep : StepCases c a c' o) {i : Nat}
    (h : (c.kernel.view i).Clean) : (c'.kernel.view i).Clean := by
  cases hstep with
  | start _ hk =>
      obtain rfl := jrtKernelStart_spec hk
      exact h
  | thread _ hp hseg => exact hseg.clean hs hp h
  | tick _ hk => exact h.woken (tickTasks_wakes hk i)
  | isr => exact h.woken (isrCall_wakes c.kernel _ i)
  | @pendsv _ _ k _ _ hk =>
      obtain ⟨state, hstate, hiff⟩ := hs.switched_view hk i
      show (k.view i).Clean
      rw [hstate]
      exact h.withState hiff
  | store => exact h
  | cycles => exact h

theorem Booted.clean {k₀ k : Kernel} (h : Booted k₀ k) {i : Nat} (hi : i < k.taskCount) :
    (k.view i).Clean := by
  have hn := h.taskCount_eq
  by_cases happ : i < k.applicationTaskCount
  · rw [h.view_app i happ]
    exact .fresh _
  · by_cases hservice : i = k.applicationTaskCount
    · subst hservice
      exact .of_blocked h.view_service.1
    · have hidle : i = k.applicationTaskCount + 1 := by omega
      rw [hidle, h.view_idle]
      exact .fresh _

end Clean

/-! ## Timers -/

/-- The list of timers behind the first segment of a call. -/
def Call.timersBehind (k : Kernel) (l : List Ptr) : Call → List Ptr
  | .timerCreateStatic t | .timerStart t _ => if t = 0 then l else linkedList l t
  | .timerStartPeriodic t period => if t = 0 ∨ period = 0 then l else linkedList l t
  | .timerRestart t => if t = 0 ∨ (k.timers t).reloadTicks = 0 then l else linkedList l t
  | _ => l

section Timers

variable {k k' : Kernel} {l : List Ptr} {t : Ptr}

theorem Timers.link_setTimer {k₁ : Kernel} (h : Timers k l) (hne : t ≠ 0)
    (hlink : timerLinkLocked k t = .ok k₁) {x : JrtTimer} (hx : x.next = (k₁.timers t).next) :
    Timers (k₁.setTimer t x) (linkedList l t) := by
  obtain ⟨k₂, hok, hlist, -, -⟩ := timerLinkLocked_spec h hne
  obtain rfl : k₂ = k₁ := Except.ok.inj (hok.symm.trans hlink)
  exact hlist.setTimer fun _ => hx

theorem jrtTimerCreateStatic_list (h : Timers k l) (hcreate : jrtTimerCreateStatic k t = .ok k') :
    Timers k' (if t = 0 then l else linkedList l t) := by
  unfold jrtTimerCreateStatic at hcreate
  by_cases hzero : t = 0
  · rw [if_pos hzero] at hcreate ⊢
    obtain rfl := Except.ok.inj hcreate
    exact h
  · rw [if_neg hzero] at hcreate ⊢
    rw [timerIsLinkedLocked_eq h] at hcreate
    have hcreated : Timers (k.setTimer t (.created
        (if decide (t ∈ l) = true then (k.timers t).next else 0))) l :=
      h.setTimer fun hmem => by simp [hmem, JrtTimer.created]
    obtain ⟨k₂, hok, hlist, -, -⟩ := timerLinkLocked_spec hcreated hzero
    obtain rfl : k₂ = k' := Except.ok.inj (hok.symm.trans hcreate)
    exact hlist

theorem jrtTimerStart_list (h : Timers k l) {delay : UInt32}
    (hstart : jrtTimerStart k t delay = .ok k') :
    Timers k' (if t = 0 then l else linkedList l t) := by
  unfold jrtTimerStart at hstart
  by_cases hzero : t = 0
  · rw [if_pos hzero] at hstart ⊢
    obtain rfl := Except.ok.inj hstart
    exact h
  · rw [if_neg hzero] at hstart ⊢
    rw [exec_bind_eq_ok] at hstart
    obtain ⟨k₁, hlink, hstart⟩ := hstart
    obtain rfl := Except.ok.inj hstart
    exact h.link_setTimer hzero hlink rfl

theorem jrtTimerStartPeriodic_list (h : Timers k l) {period : UInt32}
    (hstart : jrtTimerStartPeriodic k t period = .ok k') :
    Timers k' (if t = 0 ∨ period = 0 then l else linkedList l t) := by
  unfold jrtTimerStartPeriodic at hstart
  by_cases hzero : t = 0 ∨ period = 0
  · rw [if_pos hzero] at hstart ⊢
    obtain rfl := Except.ok.inj hstart
    exact h
  · rw [if_neg hzero] at hstart ⊢
    rw [exec_bind_eq_ok] at hstart
    obtain ⟨k₁, hlink, hstart⟩ := hstart
    obtain rfl := Except.ok.inj hstart
    exact h.link_setTimer (not_or.mp hzero).1 hlink rfl

theorem jrtTimerRestart_list (h : Timers k l) (hrestart : jrtTimerRestart k t = .ok k') :
    Timers k' (if t = 0 ∨ (k.timers t).reloadTicks = 0 then l else linkedList l t) := by
  unfold jrtTimerRestart at hrestart
  by_cases hzero : t = 0
  · rw [if_pos hzero] at hrestart
    rw [if_pos (Or.inl hzero)]
    obtain rfl := Except.ok.inj hrestart
    exact h
  · rw [if_neg hzero] at hrestart
    by_cases hreload : (k.timers t).reloadTicks = 0
    · rw [if_neg (not_not.mpr hreload)] at hrestart
      rw [if_pos (Or.inr hreload)]
      obtain rfl := Except.ok.inj hrestart
      exact h
    · rw [if_pos hreload, exec_bind_eq_ok] at hrestart
      rw [if_neg (not_or.mpr ⟨hzero, hreload⟩)]
      obtain ⟨k₁, hlink, hrestart⟩ := hrestart
      obtain rfl := Except.ok.inj hrestart
      exact h.link_setTimer hzero hlink rfl

theorem jrtTimerSetCallback_list (h : Timers k l) (t callback argument : Ptr) :
    Timers (jrtTimerSetCallback k t callback argument).2 l := by
  simp only [jrtTimerSetCallback]
  split
  · exact h
  · have hset : Timers (k.setTimer t ((k.timers t).withCallback callback argument)) l :=
      h.setTimer fun _ => rfl
    split
    · exact hset.of_eq (by simp) (by simp)
    · exact hset

theorem jrtTimerDispatch_list (h : Timers k l) (t : Ptr) :
    Timers (jrtTimerDispatch k t).2 l := by
  simp only [jrtTimerDispatch]
  split
  · exact h
  · split
    · exact h.setTimer fun _ => rfl
    · exact h

/-- Every call treats the list of timers as `Call.timersBehind` says. -/
theorem enter_timersBehind (h : Timers k l) {call : Call} {s : Segment}
    (hs : enter k call = .ok s) : Timers s.kernel (call.timersBehind k l) := by
  by_cases hkind : call.objectKind = .timer
  · cases call with
    | timerCreateStatic t =>
        simp only [enter, exec_bind_eq_ok] at hs
        obtain ⟨k', hcreate, hs⟩ := hs
        obtain rfl := Except.ok.inj hs
        exact jrtTimerCreateStatic_list h hcreate
    | timerStart t delay =>
        simp only [enter, exec_bind_eq_ok] at hs
        obtain ⟨k', hstart, hs⟩ := hs
        obtain rfl := Except.ok.inj hs
        exact jrtTimerStart_list h hstart
    | timerStartPeriodic t period =>
        simp only [enter, exec_bind_eq_ok] at hs
        obtain ⟨k', hstart, hs⟩ := hs
        obtain rfl := Except.ok.inj hs
        exact jrtTimerStartPeriodic_list h hstart
    | timerRestart t =>
        simp only [enter, exec_bind_eq_ok] at hs
        obtain ⟨k', hrestart, hs⟩ := hs
        obtain rfl := Except.ok.inj hs
        exact jrtTimerRestart_list h hrestart
    | timerSetCallback t callback argument =>
        have hset := jrtTimerSetCallback_list h t callback argument
        simp only [enter] at hs
        split at hs <;> next heq =>
          rw [heq] at hset
          obtain rfl := Except.ok.inj hs
          exact hset
    | timerStop t =>
        obtain rfl := Except.ok.inj hs
        show Timers (jrtTimerStop k t) l
        unfold jrtTimerStop
        split
        · exact h
        · exact h.setTimer fun _ => rfl
    | timerTakeExpirations t =>
        obtain rfl := Except.ok.inj hs
        show Timers (jrtTimerTakeExpirations k t).2 l
        unfold jrtTimerTakeExpirations
        split
        · exact h
        · exact h.setTimer fun _ => rfl
    | timerDispatch t =>
        obtain rfl := Except.ok.inj hs
        exact jrtTimerDispatch_list h t
    | _ => cases hkind
  · have hheap := enter_heap hs
    have hsame : call.timersBehind k l = l := by
      cases call <;> first | rfl | exact absurd rfl hkind
    rw [hsame]
    exact h.of_eq (hheap.timers hkind) (hheap.timerList hkind)

end Timers

section TimerRecords

variable {t : JrtTimer}

theorem JrtTimer.Consistent.ticked (h : t.Consistent) (now : UInt32) :
    (t.ticked now).Consistent := by
  simp only [JrtTimer.ticked]
  split
  · split <;> exact h
  · exact h

theorem consistent_created (next : Ptr) : (JrtTimer.created next).Consistent := by
  simp [JrtTimer.Consistent, JrtTimer.created]

theorem consistent_started (t : JrtTimer) (now delay : UInt32) :
    (t.started now delay).Consistent := by
  simp [JrtTimer.Consistent, JrtTimer.started]

theorem consistent_startedPeriodic (t : JrtTimer) (now : UInt32) {period : UInt32}
    (hperiod : period ≠ 0) : (t.startedPeriodic now period).Consistent := by
  simp [JrtTimer.Consistent, JrtTimer.startedPeriodic, hperiod]

/-- No call makes a consistent timer inconsistent. -/
theorem JrtTimer.Consistent.onTimer (h : t.Consistent) (call : Call) (a : Ptr) (now : UInt32) :
    (call.onTimer a now t).Consistent := by
  cases call with
  | timerCreateStatic b =>
      simp only [Call.onTimer]
      split
      · exact consistent_created _
      · exact h
  | timerStart b delay =>
      simp only [Call.onTimer]
      split
      · exact consistent_started _ _ _
      · exact h
  | timerStartPeriodic b period =>
      simp only [Call.onTimer]
      split
      · next hstart => exact consistent_startedPeriodic _ _ hstart.2
      · exact h
  | timerSetCallback | timerRestart | timerStop | timerTakeExpirations | timerDispatch =>
      simp only [Call.onTimer]
      split <;> exact h
  | _ => exact h

end TimerRecords

/-! ## Mutexes -/

section MutexRecords

variable {m : JrtMutex} {n i : Nat}

theorem JrtMutex.Sound.mono {n' : Nat} (h : m.Sound n) (hle : n ≤ n') : m.Sound n' :=
  ⟨h.unlocked, fun hlocked =>
    ⟨Nat.lt_of_lt_of_le (h.locked hlocked).1 hle, (h.locked hlocked).2⟩⟩

theorem sound_unlocked (m : JrtMutex) (n : Nat) : m.unlocked.Sound n :=
  ⟨fun _ => ⟨rfl, rfl⟩, fun hne => absurd rfl hne⟩

theorem sound_lockedBy (m : JrtMutex) (hi : i < n) : (m.lockedBy i).Sound n :=
  ⟨fun hzero => absurd hzero (by simp [JrtMutex.lockedBy]),
    fun _ => ⟨hi, by simp [JrtMutex.lockedBy]⟩⟩

theorem JrtMutex.Sound.lockedFor (h : m.Sound n) (hi : i < n)
    (hnesting : m.locked ≠ 0 → m.owner = i → m.recursion + 1 ≠ 0) : (m.lockedFor i).Sound n := by
  unfold JrtMutex.lockedFor
  split
  · exact sound_lockedBy m hi
  · next hlocked =>
      split
      · next howner =>
          exact ⟨fun hzero => absurd hzero hlocked,
            fun _ => ⟨(h.locked hlocked).1, hnesting hlocked howner⟩⟩
      · exact h

theorem sub_one_ne_zero {w : UInt32} (h : w > 1) : w - 1 ≠ 0 := by
  intro hzero
  have hw : w = 1 := by
    rw [← UInt32.sub_add_cancel w 1, hzero]
    rfl
  rw [hw] at h
  exact absurd h (by decide)

theorem JrtMutex.Sound.unlockedFor (h : m.Sound n) {waiter : Option Nat}
    (hwaiter : ∀ s, waiter = some s → s < n) : (m.unlockedFor i waiter).Sound n := by
  unfold JrtMutex.unlockedFor
  split
  · exact h
  · next howned =>
      rw [not_or] at howned
      split
      · next hnested =>
          exact ⟨fun hzero => absurd hzero howned.1,
            fun _ => ⟨(h.locked howned.1).1, sub_one_ne_zero hnested⟩⟩
      · cases waiter with
        | none => exact sound_unlocked m n
        | some s => exact sound_lockedBy m (hwaiter s rfl)

end MutexRecords

end JustRT
