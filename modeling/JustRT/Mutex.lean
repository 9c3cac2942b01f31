import JustRT.Health
import JustRT.BlockingCall

/-!
# Mutexes

A mutex belongs to the task whose lock finds it free, or to the waiter its
owner's final unlock hands it to, before that waiter has run. `MutexStep`
is every way a step may treat a mutex; over a run it gives the account of
locks and unlocks, task by task. `LockPhase` follows one blocked lock call
from its entry to its return.

The account is kept per task and not only for the owner: a task was granted
as many locks as it has unlocked and still holds. That only the owner holds
any, and that nobody waits for a free mutex, go along with it, since a lock
that finds the mutex free must not pass a waiter by. The recursion counter
has 32 bits; the account says where it would wrap.
-/

namespace JustRT

/-- The place at which the tasks wait for a mutex. -/
def mutexPlace (m : Ptr) : WaitPlace := ⟨.ptr m, .mutex⟩

instance (k : Kernel) (p : WaitPlace) (i : Nat) : Decidable (k.WaitsAt p i) :=
  inferInstanceAs (Decidable ((k.view i).On p.object p.kind))

def Action.createsMutex (m : Ptr) : Action → Bool
  | .call (.mutexCreateRecursiveStatic a) => a == m
  | _ => false

/-- What a lock call of task `i` returns, if the step returns from one. -/
def Transition.lockResult (m : Ptr) (i : Nat) (x : Transition) : Option UInt32 :=
  match x.action with
  | .proceed _ =>
      match (x.pre.pc x.pre.current).waitCall with
      | some (.mutexLock a _ _) => if a = m ∧ i = x.pre.current then x.observation.result else none
      | _ => none
  | _ => none

/-- A lock call of task `i` returns with the mutex without having waited. -/
def Transition.acquires (m : Ptr) (i : Nat) (x : Transition) : Bool :=
  match x.action with
  | .proceed _ =>
      match x.pre.pc x.pre.current with
      | .entered (.mutexLock a _ _) _ =>
          a == m && i == x.pre.current && x.observation.result == some 1
      | _ => false
  | _ => false

/-- The step hands the ownership to task `i`, which waits for the mutex. -/
def Transition.handsTo (m : Ptr) (i : Nat) (x : Transition) : Bool :=
  decide (x.pre.kernel.WaitsAt (mutexPlace m) i ∧ (x.pre.kernel.mutexes m).owner ≠ i
    ∧ (x.post.kernel.mutexes m).owner = i)

/-- The step grants task `i` a lock of the mutex. -/
def Transition.locks (m : Ptr) (i : Nat) (x : Transition) : Bool :=
  x.acquires m i || x.handsTo m i

/-- The step is a successful unlock by task `i`. -/
def Transition.unlocks (m : Ptr) (i : Nat) (x : Transition) : Bool :=
  match x.action with
  | .call (.mutexUnlock a) => a == m && i == x.pre.current && x.observation.result == some 1
  | _ => false

/-- The step is the tick in which the deadline of task `i`, which waits for
the mutex, is over. -/
def Transition.timesOut (m : Ptr) (i : Nat) (x : Transition) : Bool :=
  match x.action with
  | .tick => decide (x.pre.kernel.WaitsAt (mutexPlace m) i
      ∧ (x.pre.kernel.view i).deadline.Expired (x.pre.kernel.gKernelTicks + 1))
  | _ => false

def Kernel.holds (k : Kernel) (m : Ptr) (i : Nat) : Nat :=
  if (k.mutexes m).owner = i then (k.mutexes m).recursion.toNat else 0

/-! ## The critical sections -/

section Sections

variable {k : Kernel} {m : Ptr} {i : Nat}

theorem waitsAt_mutexPlace_iff {w : WaitCall} : w.waitsAt i (mutexPlace m) = true
    ↔ ∃ timeout deadline, w = .mutexLock m timeout deadline := by
  rw [waitsAt_iff]
  cases w <;> simp [WaitCall.object, WaitCall.kind, mutexPlace]

/-- The section of a lock finds the mutex free, or its own, or another's. -/
theorem jrtMutexLock_cases (k : Kernel) (m : Ptr) (timeout : UInt32)
    (deadline : TaskWaitDeadline) :
    ((k.mutexes m).locked = 0 ∧ (k.mutexes m).lockedFor k.gCurrentTaskIndex
          = (k.mutexes m).lockedBy k.gCurrentTaskIndex
        ∧ (jrtMutexLock k m timeout deadline false).1 = .returns 1
        ∧ (jrtMutexLock k m timeout deadline false).2.view = k.view)
      ∨ ((k.mutexes m).locked ≠ 0 ∧ (k.mutexes m).owner = k.gCurrentTaskIndex
        ∧ (k.mutexes m).lockedFor k.gCurrentTaskIndex
          = (k.mutexes m).withRecursion ((k.mutexes m).recursion + 1)
        ∧ (jrtMutexLock k m timeout deadline false).1 = .returns 1
        ∧ (jrtMutexLock k m timeout deadline false).2.view = k.view)
      ∨ ((k.mutexes m).locked ≠ 0 ∧ (k.mutexes m).owner ≠ k.gCurrentTaskIndex
        ∧ (k.mutexes m).lockedFor k.gCurrentTaskIndex = k.mutexes m
        ∧ (jrtMutexLock k m timeout deadline false).1 ≠ .returns 1) := by
  simp only [jrtMutexLock, JrtMutex.lockedFor, Bool.false_eq_true, if_false]
  by_cases hfree : (k.mutexes m).locked = 0
  · rw [if_pos hfree, if_pos hfree]
    exact Or.inl ⟨hfree, rfl, rfl, rfl⟩
  · rw [if_neg hfree, if_neg hfree]
    refine Or.inr ?_
    by_cases hown : (k.mutexes m).owner = k.gCurrentTaskIndex
    · rw [if_pos hown, if_pos hown]
      exact Or.inl ⟨hfree, hown, rfl, rfl, rfl⟩
    · rw [if_neg hown, if_neg hown]
      refine Or.inr ⟨hfree, hown, rfl, ?_⟩
      by_cases htimeout : timeout = 0
      · rw [if_pos htimeout]
        simp
      · rw [if_neg htimeout, taskBlockUntilLocked]
        split <;> simp

theorem jrtMutexUnlock_cases (k : Kernel) (m : Ptr) :
    (((k.mutexes m).locked = 0 ∨ (k.mutexes m).owner ≠ k.gCurrentTaskIndex)
        ∧ jrtMutexUnlock k m false = (0, k))
      ∨ ((k.mutexes m).locked ≠ 0 ∧ (k.mutexes m).owner = k.gCurrentTaskIndex
        ∧ (k.mutexes m).recursion > 1
        ∧ (k.mutexes m).unlockedFor k.gCurrentTaskIndex (k.selected (mutexPlace m))
          = (k.mutexes m).withRecursion ((k.mutexes m).recursion - 1)
        ∧ (jrtMutexUnlock k m false).1 = 1 ∧ (jrtMutexUnlock k m false).2.view = k.view)
      ∨ ((k.mutexes m).locked ≠ 0 ∧ (k.mutexes m).owner = k.gCurrentTaskIndex
        ∧ ¬(k.mutexes m).recursion > 1
        ∧ (k.mutexes m).unlockedFor k.gCurrentTaskIndex (k.selected (mutexPlace m))
          = (k.selected (mutexPlace m)).elim (k.mutexes m).unlocked (k.mutexes m).lockedBy
        ∧ (jrtMutexUnlock k m false).1 = 1
        ∧ (jrtMutexUnlock k m false).2.view = k.wokenView (mutexPlace m)) := by
  simp only [jrtMutexUnlock, JrtMutex.unlockedFor, Bool.false_eq_true, if_false]
  by_cases hnot : (k.mutexes m).locked = 0 ∨ (k.mutexes m).owner ≠ k.gCurrentTaskIndex
  · rw [if_pos hnot]
    exact Or.inl ⟨hnot, rfl⟩
  · rw [if_neg hnot]
    obtain ⟨hlocked, howner⟩ := not_or.mp hnot
    refine Or.inr ?_
    by_cases hnested : (k.mutexes m).recursion > 1
    · rw [if_pos hnested, if_neg hnot, if_pos hnested]
      exact Or.inl ⟨hlocked, not_not.mp howner, hnested, rfl, rfl, rfl⟩
    · rw [if_neg hnested, if_neg hnot, if_neg hnested, taskWakeGetId_eq, ← wakeSelected_view]
      refine Or.inr ⟨hlocked, not_not.mp howner, hnested, rfl, ?_⟩
      rw [show wakeSelect k (.ptr m) .mutex = k.selected (mutexPlace m) from rfl]
      cases k.selected (mutexPlace m) <;> simp

end Sections

/-! ## Who waits -/

section Waits

variable {c c' : Cfg} {a : Action} {o : Observation} {p : WaitPlace} {i : Nat} {m : Ptr}

/-- A task that waits at a place behind a step waited there before, or has
just blocked in a call at the place. -/
theorem StepCases.waitsAt (hs : Sched c) (hstep : StepCases c a c' o)
    (hon : c'.kernel.WaitsAt p i) :
    c.kernel.WaitsAt p i ∨ ∃ source w r, a = .proceed source ∧ i = c.current
      ∧ c.pc c.current = .entered w r ∧ w.waitsAt c.current p = true := by
  by_cases ha : a = .tick
  · subst ha
    cases hstep with
    | tick _ hk => exact Or.inl (waitsAt_woken (tickTasks_wakes hk i) hon)
    | thread _ _ hseg => cases hseg
  · have hothers : (∀ s, ThreadSegment c a s → i ≠ c.current) → c.kernel.WaitsAt p i := by
      intro hown
      rcases hstep.view_others hs ha hown with hw | ⟨state, hstate, hblocked⟩
      · exact waitsAt_woken hw hon
      · exact waitsAt_restated hstate hblocked hon
    cases hstep with
    | @thread a s _ hp hseg =>
        by_cases hi : i = c.current
        · subst hi
          by_cases hentered : ∃ w r, c.pc c.current = .entered w r
              ∧ w.waitsAt c.current p = true
          · obtain ⟨w, r, hpc, hat⟩ := hentered
            cases hseg with
            | call hc => rw [hc] at hpc; cases hpc
            | yielding | resumed | requestSwitch | inTime | delayed | entered =>
                exact Or.inr ⟨_, w, r, rfl, rfl, hpc, hat⟩
          · refine Or.inl (Spares.segment_current_waits hs hp hseg (fun w r hpc => ?_) hon)
            rw [← Bool.not_eq_true]
            exact fun hat => hentered ⟨w, r, hpc, hat⟩
        · exact Or.inl (hothers fun _ _ => hi)
    | tick => exact absurd rfl ha
    | start | isr | pendsv | store | cycles =>
        exact Or.inl (hothers fun s hseg => nomatch hseg)

/-- No other step than a tick and an unlock of the mutex ends a wait for
it. -/
theorem StepCases.mutexWait_kept (hs : Sched c) (hstep : StepCases c a c' o)
    (htick : a ≠ .tick) (hunlock : a ≠ .call (.mutexUnlock m))
    (hon : c.kernel.WaitsAt (mutexPlace m) i) : c'.kernel.view i = c.kernel.view i := by
  have hkind := hon.2.2
  change (c.kernel.view i).waitKind = .mutex at hkind
  refine hstep.wait_kept hs htick hon.1 (fun r hr => ?_) fun call _ r hr => ?_
  · cases a with
    | call made =>
        cases made with
        | mutexUnlock b =>
            have hobject : WaitObject.ptr m = .ptr b := hon.2.1.symm.trans hr.1
            exact hunlock (by rw [WaitObject.ptr.inj hobject])
        | semaphoreGive | eventGroupSetBits | timerSetCallback =>
            have hother := hr.2.1
            rw [hkind] at hother
            cases hother
        | taskNotify =>
            have hother := hr.1
            rw [hkind] at hother
            cases hother
        | _ => exact hr
    | proceed source =>
        rw [Action.wakes] at hr
        cases hpc : c.pc c.current with
        | entered w reserved =>
            rw [hpc] at hr
            cases w with
            | queueSend | queueReceive =>
                have hother := hr.2.1
                rw [hkind] at hother
                cases hother
            | _ => exact hr
        | _ =>
            rw [hpc] at hr
            exact hr
    | _ => exact hr
  · cases call with
    | taskNotifyFromIsr =>
        have hother := hr.1
        rw [hkind] at hother
        cases hother
    | _ =>
        have hother := hr.2.1
        rw [hkind] at hother
        cases hother

end Waits

/-! ## Every way to treat a mutex -/

/-- The mutex is held behind the step as the record `r` says. -/
def Transition.leaves (m : Ptr) (x : Transition) (r : JrtMutex) : Prop :=
  ∃ next, x.post.kernel.mutexes m = r.withNext next

/-- A step as the mutex sees it: its tasks keep their holds, or the running
task takes it, takes it again, unlocks it once, releases it, or hands it to
a waiter. -/
inductive MutexStep (m : Ptr) (x : Transition) : Prop where
  | kept : x.leaves m (x.pre.kernel.mutexes m) →
      (∀ i < x.pre.kernel.taskCount, x.locks m i = false) → (∀ i, x.unlocks m i = false) →
      (∀ i, x.post.kernel.WaitsAt (mutexPlace m) i → x.pre.kernel.WaitsAt (mutexPlace m) i
        ∨ ((x.pre.kernel.mutexes m).locked ≠ 0 ∧ (x.pre.kernel.mutexes m).owner ≠ i)) →
      MutexStep m x
  | acquired : (x.pre.kernel.mutexes m).locked = 0 →
      x.leaves m ((x.pre.kernel.mutexes m).lockedBy x.pre.current) →
      (∀ i < x.pre.kernel.taskCount, x.locks m i = (i == x.pre.current)) →
      (∀ i, x.unlocks m i = false) →
      (∀ i, x.post.kernel.WaitsAt (mutexPlace m) i → x.pre.kernel.WaitsAt (mutexPlace m) i) →
      MutexStep m x
  | reentered : (x.pre.kernel.mutexes m).locked ≠ 0 →
      (x.pre.kernel.mutexes m).owner = x.pre.current →
      x.leaves m ((x.pre.kernel.mutexes m).withRecursion
        ((x.pre.kernel.mutexes m).recursion + 1)) →
      (∀ i < x.pre.kernel.taskCount, x.locks m i = (i == x.pre.current)) →
      (∀ i, x.unlocks m i = false) →
      (∀ i, x.post.kernel.WaitsAt (mutexPlace m) i → x.pre.kernel.WaitsAt (mutexPlace m) i) →
      MutexStep m x
  | unlockedOnce : (x.pre.kernel.mutexes m).locked ≠ 0 →
      (x.pre.kernel.mutexes m).owner = x.pre.current → (x.pre.kernel.mutexes m).recursion > 1 →
      x.leaves m ((x.pre.kernel.mutexes m).withRecursion
        ((x.pre.kernel.mutexes m).recursion - 1)) →
      (∀ i < x.pre.kernel.taskCount, x.locks m i = false) →
      (∀ i, x.unlocks m i = (i == x.pre.current)) →
      (∀ i, x.post.kernel.WaitsAt (mutexPlace m) i → x.pre.kernel.WaitsAt (mutexPlace m) i) →
      MutexStep m x
  | released : (x.pre.kernel.mutexes m).locked ≠ 0 →
      (x.pre.kernel.mutexes m).owner = x.pre.current → ¬(x.pre.kernel.mutexes m).recursion > 1 →
      ¬x.pre.kernel.Waited (mutexPlace m) →
      x.leaves m (x.pre.kernel.mutexes m).unlocked →
      (∀ i < x.pre.kernel.taskCount, x.locks m i = false) →
      (∀ i, x.unlocks m i = (i == x.pre.current)) →
      (∀ i, x.post.kernel.WaitsAt (mutexPlace m) i → x.pre.kernel.WaitsAt (mutexPlace m) i) →
      MutexStep m x
  | handed {w : Nat} : (x.pre.kernel.mutexes m).locked ≠ 0 →
      (x.pre.kernel.mutexes m).owner = x.pre.current → ¬(x.pre.kernel.mutexes m).recursion > 1 →
      x.pre.kernel.selected (mutexPlace m) = some w → w ≠ x.pre.current →
      x.leaves m ((x.pre.kernel.mutexes m).lockedBy w) →
      (∀ i < x.pre.kernel.taskCount, x.locks m i = (i == w)) →
      (∀ i, x.unlocks m i = (i == x.pre.current)) →
      x.post.kernel.view
        = Function.update x.pre.kernel.view w ((x.pre.kernel.view w).ended 1) →
      MutexStep m x

section Classify

variable {c c' : Cfg} {a : Action} {o : Observation} {m : Ptr} {i : Nat}

/-- The ownership is handed only where it changes. -/
theorem handsTo_eq_false {x : Transition}
    (h : (x.post.kernel.mutexes m).owner = i → (x.pre.kernel.mutexes m).owner = i
      ∨ ¬x.pre.kernel.WaitsAt (mutexPlace m) i) : x.handsTo m i = false := by
  refine decide_eq_false ?_
  rintro ⟨hon, hne, hown⟩
  rcases h hown with hsame | hnot
  · exact hne hsame
  · exact hnot hon

theorem acquires_eq_false (h : ∀ source timeout deadline r, a = .proceed source →
      c.pc c.current ≠ .entered (.mutexLock m timeout deadline) r) :
    Transition.acquires m i ⟨c, a, o, c'⟩ = false := by
  unfold Transition.acquires
  cases a with
  | proceed source =>
      cases hpc : c.pc c.current with
      | entered w r =>
          cases w with
          | mutexLock b timeout deadline =>
              have hb : b ≠ m := fun heq => h source timeout deadline r rfl (heq ▸ hpc)
              simp [hb]
          | _ => rfl
      | _ => rfl
  | _ => rfl

theorem unlocks_eq_false (h : a ≠ .call (.mutexUnlock m)) :
    Transition.unlocks m i ⟨c, a, o, c'⟩ = false := by
  unfold Transition.unlocks
  cases a with
  | call made =>
      cases made with
      | mutexUnlock b =>
          have hb : b ≠ m := fun heq => h (by rw [heq])
          simp [hb]
      | _ => rfl
  | _ => rfl

/-- An unlock runs in one section, and returns from it. -/
theorem StepCases.unlock (hstep : StepCases c (.call (.mutexUnlock m)) c' o) :
    c.pc c.current = .user ∧ c' = { c with kernel := (jrtMutexUnlock c.kernel m false).2 }
      ∧ o.result = some (jrtMutexUnlock c.kernel m false).1 := by
  cases hstep with
  | thread _ hp hseg =>
      cases hseg with
      | call hpc _ he =>
          obtain rfl := Except.ok.inj he
          refine ⟨hpc, ?_, rfl⟩
          have hpcs : (fun i => if i = c.current then Pc.user else c.pc i) = c.pc := by
            funext i
            split
            · next heq => rw [heq, hpc]
            · rfl
          simp only [Cfg.after, Segment.ret, hpcs, Bool.or_false]

theorem unlocks_eq (hresult : o.result = some (jrtMutexUnlock c.kernel m false).1) (i : Nat) :
    Transition.unlocks m i ⟨c, .call (.mutexUnlock m), o, c'⟩
      = (i == c.current && (jrtMutexUnlock c.kernel m false).1 == 1) := by
  simp [Transition.unlocks, hresult]

theorem mutexStep_unlock (hs : Sched c) (hstep : StepCases c (.call (.mutexUnlock m)) c' o) :
    MutexStep m ⟨c, .call (.mutexUnlock m), o, c'⟩ := by
  obtain ⟨next, hrecord⟩ := step_mutex hstep m
  simp only [Action.onMutex, Call.onMutex, if_true] at hrecord
  change _ = ((c.kernel.mutexes m).unlockedFor c.kernel.gCurrentTaskIndex
    (c.kernel.selected (mutexPlace m))).withNext next at hrecord
  obtain ⟨hpc, hpost, hresult⟩ := hstep.unlock
  have hunlocks : ∀ i, Transition.unlocks m i ⟨c, .call (.mutexUnlock m), o, c'⟩
      = (i == c.current && (jrtMutexUnlock c.kernel m false).1 == 1) := unlocks_eq hresult
  have hacquires : ∀ i, Transition.acquires m i ⟨c, .call (.mutexUnlock m), o, c'⟩ = false :=
    fun i => acquires_eq_false fun _ _ _ _ ha => by cases ha
  have hwaits : ∀ i, c'.kernel.WaitsAt (mutexPlace m) i → c.kernel.WaitsAt (mutexPlace m) i := by
    intro i hon
    rcases hstep.waitsAt hs hon with hold | ⟨_, _, _, ha, -⟩
    · exact hold
    · cases ha
  rcases jrtMutexUnlock_cases c.kernel m with ⟨-, heq⟩ | ⟨hlocked, howner, hnested, hleaves, hone, -⟩ |
    ⟨hlocked, howner, hfinal, hleaves, hone, hview⟩
  · have hkernel : c'.kernel = c.kernel := by rw [hpost, heq]
    refine .kept ⟨(c.kernel.mutexes m).next, by rw [hkernel]; rfl⟩ (fun i _ => ?_)
      (fun i => ?_) fun i hon => Or.inl (hwaits i hon)
    · rw [Transition.locks, hacquires, Bool.false_or]
      refine handsTo_eq_false fun hown => Or.inl ?_
      rw [← hown, hkernel]
    · rw [hunlocks, heq]
      simp
  · rw [hleaves] at hrecord
    refine .unlockedOnce hlocked howner hnested ⟨next, hrecord⟩ (fun i _ => ?_)
      (fun i => ?_) hwaits
    · rw [Transition.locks, hacquires, Bool.false_or]
      refine handsTo_eq_false fun hown => Or.inl ?_
      rw [← hown, hrecord]
      rfl
    · rw [hunlocks, hone]
      simp
  · rw [hleaves] at hrecord
    have hfinally : ∀ i, Transition.unlocks m i ⟨c, .call (.mutexUnlock m), o, c'⟩
        = (i == c.current) := by
      intro i
      rw [hunlocks, hone]
      simp
    cases hselected : c.kernel.selected (mutexPlace m) with
    | none =>
        rw [hselected] at hrecord
        have hnobody : ∀ i < c.kernel.taskCount, ¬c.kernel.WaitsAt (mutexPlace m) i :=
          fun i hi => wakeSelect_eq_none_iff.mp hselected i hi
        refine .released hlocked howner hfinal (by rintro ⟨i, hi, hon⟩; exact hnobody i hi hon)
          ⟨next, hrecord⟩ (fun i hi => ?_) hfinally hwaits
        rw [Transition.locks, hacquires, Bool.false_or]
        exact handsTo_eq_false fun _ => Or.inr (hnobody i hi)
    | some w =>
        obtain ⟨-, hon, -⟩ := wakeSelect_spec hselected
        have hw : w ≠ c.current := fun heq =>
          not_waitsAt_of_user hs hs.current_lt hpc (heq ▸ hon)
        rw [hselected] at hrecord
        rw [Kernel.wokenView, hselected] at hview
        refine .handed hlocked howner hfinal hselected hw ⟨next, hrecord⟩
          (fun i _ => ?_) hfinally (by rw [hpost]; exact hview)
        rw [Transition.locks, hacquires, Bool.false_or, Bool.eq_iff_iff]
        simp only [Transition.handsTo, decide_eq_true_eq, beq_iff_eq]
        rw [hrecord]
        constructor
        · exact fun hhands => hhands.2.2.symm
        · rintro rfl
          exact ⟨hon, fun heq => hw (heq.symm.trans howner), rfl⟩

theorem StepCases.lock {source : Nat → UInt8} {timeout : UInt32} {deadline : TaskWaitDeadline}
    {r : Bool} (hstep : StepCases c (.proceed source) c' o)
    (hpc : c.pc c.current = .entered (.mutexLock m timeout deadline) r) :
    o.result = (Segment.ofFlow (.mutexLock m timeout deadline)
        (jrtMutexLock c.kernel m timeout deadline false)).result
      ∧ c'.kernel = (jrtMutexLock c.kernel m timeout deadline false).2 := by
  cases hstep with
  | thread _ _ hseg =>
      obtain rfl := Except.ok.inj (hseg.of_entered hpc)
      exact ⟨rfl, ofFlow_kernel _ _⟩

theorem mutexStep_lock (hs : Sched c) {source : Nat → UInt8} {timeout : UInt32}
    {deadline : TaskWaitDeadline} {r : Bool} (hstep : StepCases c (.proceed source) c' o)
    (hpc : c.pc c.current = .entered (.mutexLock m timeout deadline) r) :
    MutexStep m ⟨c, .proceed source, o, c'⟩ := by
  obtain ⟨next, hrecord⟩ := step_mutex hstep m
  simp only [Action.onMutex, hpc, if_true] at hrecord
  have hunlocks : ∀ i, Transition.unlocks m i ⟨c, .proceed source, o, c'⟩ = false := fun _ => rfl
  have hcur : ¬c.kernel.WaitsAt (mutexPlace m) c.current := not_waitsAt_of_entered hs hpc
  obtain ⟨hresult, hkernel⟩ := hstep.lock hpc
  have hwaits : c'.kernel.view = c.kernel.view →
      ∀ i, c'.kernel.WaitsAt (mutexPlace m) i → c.kernel.WaitsAt (mutexPlace m) i := by
    intro hview i hon
    rw [Kernel.WaitsAt] at hon ⊢
    rwa [← hview]
  -- A section that returns 1 acquires the mutex for the running task, which waits nowhere.
  have hlocks : (jrtMutexLock c.kernel m timeout deadline false).1 = .returns 1 →
      (c'.kernel.mutexes m).owner = c.current →
      ∀ i, Transition.locks m i ⟨c, .proceed source, o, c'⟩ = (i == c.current) := by
    intro hflow howner i
    have hone : o.result = some 1 := by
      rw [hresult]
      cases hret : jrtMutexLock c.kernel m timeout deadline false with
      | mk flow k =>
          rw [hret] at hflow
          obtain rfl : flow = .returns 1 := hflow
          rfl
    have hhands : Transition.handsTo m i ⟨c, .proceed source, o, c'⟩ = false := by
      refine handsTo_eq_false fun hown => Or.inr ?_
      rw [← hown, howner]
      exact hcur
    rw [Transition.locks, hhands, Bool.or_false]
    simp [Transition.acquires, hpc, hone]
  rcases jrtMutexLock_cases c.kernel m timeout deadline with ⟨hfree, hleaves, hflow, hview⟩ |
    ⟨hlocked, howner, hleaves, hflow, hview⟩ | ⟨hlocked, howner, hleaves, hflow⟩
  · rw [show c.current = c.kernel.gCurrentTaskIndex from rfl, hleaves] at hrecord
    refine .acquired hfree ⟨next, hrecord⟩ (fun i _ => hlocks hflow ?_ i) hunlocks
      (hwaits (by rw [hkernel, hview]))
    rw [hrecord]
    rfl
  · rw [show c.current = c.kernel.gCurrentTaskIndex from rfl, hleaves] at hrecord
    refine .reentered hlocked howner ⟨next, hrecord⟩ (fun i _ => hlocks hflow ?_ i) hunlocks
      (hwaits (by rw [hkernel, hview]))
    rw [hrecord]
    exact howner
  · rw [show c.current = c.kernel.gCurrentTaskIndex from rfl, hleaves] at hrecord
    refine .kept ⟨next, hrecord⟩ (fun i _ => ?_) hunlocks fun i hon => ?_
    · have hacquires : Transition.acquires m i ⟨c, .proceed source, o, c'⟩ = false := by
        have hnot : o.result ≠ some 1 := by
          rw [hresult]
          intro hone
          refine hflow ?_
          cases hret : jrtMutexLock c.kernel m timeout deadline false with
          | mk flow k =>
              rw [hret] at hone
              cases flow with
              | returns result =>
                  obtain rfl := Option.some.inj hone
                  rfl
              | yields => cases hone
        simp [Transition.acquires, hpc, hnot]
      rw [Transition.locks, hacquires, Bool.false_or]
      refine handsTo_eq_false fun hown => Or.inl ?_
      rw [← hown, hrecord]
      rfl
    · rcases hstep.waitsAt hs hon with hold | ⟨_, _, _, -, rfl, -⟩
      · exact Or.inl hold
      · exact Or.inr ⟨hlocked, howner⟩

/-- A step that neither creates nor locks nor unlocks the mutex leaves its
record, but for its link. -/
theorem onMutex_other (hcreate : a.createsMutex m = false) (hunlock : a ≠ .call (.mutexUnlock m))
    (hlock : ∀ source timeout deadline r, a = .proceed source →
      c.pc c.current ≠ .entered (.mutexLock m timeout deadline) r) (x : JrtMutex) :
    a.onMutex c m x = x := by
  cases a with
  | call made =>
      cases made with
      | mutexCreateRecursiveStatic b =>
          have hb : m ≠ b := fun heq => by simp [Action.createsMutex, heq] at hcreate
          simp only [Action.onMutex, Call.onMutex, if_neg hb]
      | mutexUnlock b =>
          have hb : m ≠ b := fun heq => hunlock (by rw [heq])
          simp only [Action.onMutex, Call.onMutex, if_neg hb]
      | _ => rfl
  | proceed source =>
      cases hpc : c.pc c.current with
      | entered w r =>
          cases w with
          | mutexLock b timeout deadline =>
              have hb : m ≠ b := fun heq => hlock source timeout deadline r rfl (by rw [hpc, heq])
              simp only [Action.onMutex, hpc, if_neg hb]
          | _ => simp only [Action.onMutex, hpc]
      | _ => simp only [Action.onMutex, hpc]
  | _ => rfl

/-- Every step is one of these, if it does not create the mutex anew. -/
theorem mutexStep_of_step (hs : Sched c) (hstep : StepCases c a c' o)
    (hcreate : a.createsMutex m = false) : MutexStep m ⟨c, a, o, c'⟩ := by
  by_cases hunlock : a = .call (.mutexUnlock m)
  · subst hunlock
    exact mutexStep_unlock hs hstep
  by_cases hlock : ∃ source timeout deadline r, a = .proceed source
      ∧ c.pc c.current = .entered (.mutexLock m timeout deadline) r
  · obtain ⟨source, timeout, deadline, r, rfl, hpc⟩ := hlock
    exact mutexStep_lock hs hstep hpc
  have hon : a.onMutex c m (c.kernel.mutexes m) = c.kernel.mutexes m :=
    onMutex_other hcreate hunlock (fun source timeout deadline r ha hpc =>
      hlock ⟨source, timeout, deadline, r, ha, hpc⟩) _
  obtain ⟨next, hrecord⟩ := step_mutex hstep m
  rw [hon] at hrecord
  have hacquires : ∀ i, Transition.acquires m i ⟨c, a, o, c'⟩ = false := fun i =>
    acquires_eq_false fun source timeout deadline r ha hpc =>
      hlock ⟨source, timeout, deadline, r, ha, hpc⟩
  refine .kept ⟨next, hrecord⟩ (fun i _ => ?_) (fun i => unlocks_eq_false hunlock) fun i hi => ?_
  · rw [Transition.locks, hacquires, Bool.false_or]
    refine handsTo_eq_false fun hown => Or.inl ?_
    rw [← hown, hrecord]
    rfl
  · rcases hstep.waitsAt hs hi with hold | ⟨source, w, r, ha, -, hpc, hat⟩
    · exact Or.inl hold
    · obtain ⟨timeout, deadline, rfl⟩ := waitsAt_mutexPlace_iff.mp hat
      exact absurd ⟨source, timeout, deadline, r, ha, hpc⟩ hlock

end Classify

/-! ## The account -/

/-- The record of the mutex is sound, and whoever waits waits for another task.
So nobody waits for a free mutex, and an unlock never hands one to the task
that unlocks it. -/
structure MutexInv (m : Ptr) (c : Cfg) : Prop where
  sound : (c.kernel.mutexes m).Sound c.kernel.taskCount
  waiting : ∀ i < c.kernel.taskCount, c.kernel.WaitsAt (mutexPlace m) i →
    (c.kernel.mutexes m).locked ≠ 0 ∧ (c.kernel.mutexes m).owner ≠ i

section Account

variable {m : Ptr} {x : Transition} {r : JrtMutex} {i : Nat}

theorem Transition.leaves.holds (h : x.leaves m r) (i : Nat) :
    x.post.kernel.holds m i = if r.owner = i then r.recursion.toNat else 0 := by
  obtain ⟨next, hrecord⟩ := h
  rw [Kernel.holds, hrecord]
  rfl

theorem Transition.leaves.sound {n : Nat} (h : x.leaves m r) (hr : r.Sound n) :
    (x.post.kernel.mutexes m).Sound n := by
  obtain ⟨next, hrecord⟩ := h
  rw [hrecord]
  exact ⟨hr.unlocked, hr.locked⟩

theorem holds_of_unlocked {k : Kernel} {n : Nat} (h : (k.mutexes m).Sound n)
    (hfree : (k.mutexes m).locked = 0) (i : Nat) : k.holds m i = 0 := by
  rw [Kernel.holds, (h.unlocked hfree).2]
  split <;> rfl

/-- A final unlock gives up the only hold there is. -/
theorem recursion_eq_one {n : Nat} (h : r.Sound n) (hlocked : r.locked ≠ 0)
    (hfinal : ¬r.recursion > 1) : r.recursion = 1 := by
  have hne := (h.locked hlocked).2
  have hle : r.recursion.toNat ≤ 1 := UInt32.not_lt.mp hfinal
  have hpos : r.recursion.toNat ≠ 0 := fun hzero => hne (UInt32.toNat_inj.mp hzero)
  refine UInt32.toNat_inj.mp ?_
  change r.recursion.toNat = 1
  omega

/-- The holds of one task: what it has and is granted, it unlocks or has
behind the step. -/
theorem MutexStep.holds (h : MutexStep m x) (hinv : MutexInv m x.pre)
    (hi : i < x.pre.kernel.taskCount)
    (hnesting : (x.locks m i).toNat + x.pre.kernel.holds m i < 2 ^ 32) :
    (x.locks m i).toNat + x.pre.kernel.holds m i
      = (x.unlocks m i).toNat + x.post.kernel.holds m i := by
  have hsound := hinv.sound
  cases h with
  | kept hleaves hlocks hunlocks =>
      rw [hlocks i hi, hunlocks i, hleaves.holds]
      rfl
  | acquired hfree hleaves hlocks hunlocks =>
      rw [hlocks i hi, hunlocks i, hleaves.holds, holds_of_unlocked hsound hfree]
      by_cases hic : i = x.pre.current
      · simp [hic, JrtMutex.lockedBy]
      · have hci : ¬x.pre.current = i := fun heq => hic heq.symm
        simp [hic, hci, JrtMutex.lockedBy]
  | reentered hlocked howner hleaves hlocks hunlocks =>
      rw [hlocks i hi] at hnesting ⊢
      rw [hunlocks i, hleaves.holds]
      rw [Kernel.holds, howner] at hnesting ⊢
      simp only [JrtMutex.withRecursion, howner]
      by_cases hic : x.pre.current = i
      · have hbeq : (i == x.pre.current) = true := by rw [hic, beq_self_eq_true]
        rw [if_pos hic, hbeq] at hnesting ⊢
        rw [if_pos hic, UInt32.toNat_add]
        have hmod : ((x.pre.kernel.mutexes m).recursion.toNat + UInt32.toNat 1) % 2 ^ 32
            = (x.pre.kernel.mutexes m).recursion.toNat + 1 :=
          Nat.mod_eq_of_lt (by rw [Nat.add_comm]; exact hnesting)
        rw [hmod]
        simp only [Bool.toNat_true, Bool.toNat_false]
        omega
      · have hbeq : (i == x.pre.current) = false := beq_false_of_ne fun heq => hic heq.symm
        rw [if_neg hic, if_neg hic, hbeq]
  | unlockedOnce hlocked howner hnested hleaves hlocks hunlocks =>
      rw [hlocks i hi, hunlocks i, hleaves.holds, Kernel.holds, howner]
      simp only [JrtMutex.withRecursion, howner]
      by_cases hic : x.pre.current = i
      · have hbeq : (i == x.pre.current) = true := by rw [hic, beq_self_eq_true]
        have hle : (1 : UInt32) ≤ (x.pre.kernel.mutexes m).recursion := UInt32.le_of_lt hnested
        have hpos : 1 ≤ (x.pre.kernel.mutexes m).recursion.toNat := hle
        rw [if_pos hic, if_pos hic, hbeq, UInt32.toNat_sub_of_le _ _ hle]
        change 0 + _ = 1 + (_ - 1)
        omega
      · have hbeq : (i == x.pre.current) = false := beq_false_of_ne fun heq => hic heq.symm
        rw [if_neg hic, if_neg hic, hbeq]
  | released hlocked howner hfinal _ hleaves hlocks hunlocks =>
      rw [hlocks i hi, hunlocks i, hleaves.holds, Kernel.holds, howner,
        recursion_eq_one hsound hlocked hfinal]
      by_cases hic : x.pre.current = i
      · have hbeq : (i == x.pre.current) = true := by rw [hic, beq_self_eq_true]
        simp [hic, JrtMutex.unlocked]
      · have hbeq : (i == x.pre.current) = false := beq_false_of_ne fun heq => hic heq.symm
        simp [hic, hbeq, JrtMutex.unlocked]
  | @handed w hlocked howner hfinal _ hw hleaves hlocks hunlocks =>
      rw [hlocks i hi, hunlocks i, hleaves.holds, Kernel.holds, howner,
        recursion_eq_one hsound hlocked hfinal]
      by_cases hiw : i = w
      · have hcw : ¬x.pre.current = w := fun heq => hw heq.symm
        simp [hiw, hcw, hw, JrtMutex.lockedBy]
      · have hwi : ¬w = i := fun heq => hiw heq.symm
        have hbw : (i == w) = false := beq_false_of_ne hiw
        by_cases hic : x.pre.current = i
        · simp [hic, hbw, hwi, JrtMutex.lockedBy]
        · have hbi : (i == x.pre.current) = false := beq_false_of_ne fun heq => hic heq.symm
          simp [hic, hbw, hbi, hwi, JrtMutex.lockedBy]

/-- No step is both a lock and an unlock by one task. -/
theorem MutexStep.not_unlocks (h : MutexStep m x) (hi : i < x.pre.kernel.taskCount)
    (hlocks : x.locks m i = true) : x.unlocks m i = false := by
  cases h with
  | kept _ hno _ _ | unlockedOnce _ _ _ _ hno _ _ | released _ _ _ _ _ hno _ _ =>
      rw [hno i hi] at hlocks
      cases hlocks
  | acquired _ _ _ hunlocks _ | reentered _ _ _ _ hunlocks _ => exact hunlocks i
  | handed _ _ _ _ hw _ hl hunlocks _ =>
      rw [hl i hi] at hlocks
      rw [hunlocks i, eq_of_beq hlocks]
      exact beq_false_of_ne hw

/-- A step that keeps the nesting below the width of the counter keeps the
invariant. -/
theorem MutexStep.inv (h : MutexStep m x) (hs : Sched x.pre)
    (hn : x.post.kernel.taskCount = x.pre.kernel.taskCount) (hinv : MutexInv m x.pre)
    (hnesting : ∀ i < x.pre.kernel.taskCount,
      (x.locks m i).toNat + x.pre.kernel.holds m i < 2 ^ 32) : MutexInv m x.post := by
  have hsound := hinv.sound
  have hwaited : ∀ {r : JrtMutex}, x.leaves m r →
      (∀ i < x.pre.kernel.taskCount, x.post.kernel.WaitsAt (mutexPlace m) i →
        r.locked ≠ 0 ∧ r.owner ≠ i) →
      ∀ i < x.post.kernel.taskCount, x.post.kernel.WaitsAt (mutexPlace m) i →
        (x.post.kernel.mutexes m).locked ≠ 0 ∧ (x.post.kernel.mutexes m).owner ≠ i := by
    rintro r ⟨next, hrecord⟩ hwait i hi hon
    rw [hrecord]
    exact hwait i (hn ▸ hi) hon
  cases h with
  | kept hleaves _ _ hwaits =>
      refine ⟨hn ▸ hleaves.sound hsound, hwaited hleaves fun i hi hon => ?_⟩
      rcases hwaits i hon with hold | hnew
      · exact hinv.waiting i hi hold
      · exact hnew
  | acquired hfree hleaves _ _ hwaits =>
      refine ⟨hn ▸ hleaves.sound (sound_lockedBy _ hs.current_lt),
        hwaited hleaves fun i hi hon => ?_⟩
      exact absurd hfree (hinv.waiting i hi (hwaits i hon)).1
  | reentered hlocked howner hleaves hlocks _ hwaits =>
      have hcur := hnesting x.pre.current hs.current_lt
      rw [hlocks _ hs.current_lt, beq_self_eq_true, Kernel.holds, if_pos howner] at hcur
      change 1 + (x.pre.kernel.mutexes m).recursion.toNat < 2 ^ 32 at hcur
      have hne : (x.pre.kernel.mutexes m).recursion + 1 ≠ 0 := by
        intro hzero
        have hmod := congrArg UInt32.toNat hzero
        rw [UInt32.toNat_add] at hmod
        change ((x.pre.kernel.mutexes m).recursion.toNat + 1) % 2 ^ 32 = 0 at hmod
        omega
      refine ⟨hn ▸ hleaves.sound ⟨fun hzero => absurd hzero hlocked,
        fun _ => ⟨(hsound.locked hlocked).1, hne⟩⟩, hwaited hleaves fun i hi hon => ?_⟩
      exact hinv.waiting i hi (hwaits i hon)
  | unlockedOnce hlocked howner hnested hleaves _ _ hwaits =>
      refine ⟨hn ▸ hleaves.sound ⟨fun hzero => absurd hzero hlocked,
        fun _ => ⟨(hsound.locked hlocked).1, sub_one_ne_zero hnested⟩⟩,
        hwaited hleaves fun i hi hon => ?_⟩
      exact hinv.waiting i hi (hwaits i hon)
  | released _ _ _ hnobody hleaves _ _ hwaits =>
      refine ⟨hn ▸ hleaves.sound (sound_unlocked _ _), hwaited hleaves fun i hi hon => ?_⟩
      exact absurd ⟨i, hi, hwaits i hon⟩ hnobody
  | @handed w _ _ _ hselected _ hleaves _ _ hview =>
      refine ⟨hn ▸ hleaves.sound (sound_lockedBy _ (wakeSelect_spec hselected).1),
        hwaited hleaves fun i _ hon => ⟨by simp [JrtMutex.lockedBy], ?_⟩⟩
      intro (heq : w = i)
      have hstate := hon.1
      rw [hview, heq, Function.update_self] at hstate
      cases hstate

end Account

/-- Up to each step of the run fewer than `2 ^ 32` locks of the mutex by one
task are not unlocked. -/
def Nested (m : Ptr) (n : Nat) (tr : List Transition) : Prop :=
  ∀ tr₁ tr₂, tr = tr₁ ++ tr₂ → ∀ i < n,
    tr₁.countP (Transition.locks m i) < tr₁.countP (Transition.unlocks m i) + 2 ^ 32

theorem Nested.init {m : Ptr} {n : Nat} {tr : List Transition} {x : Transition}
    (h : Nested m n (tr ++ [x])) : Nested m n tr := by
  intro tr₁ tr₂ heq
  refine h tr₁ (tr₂ ++ [x]) ?_
  rw [heq, List.append_assoc]

theorem nested_of_length_lt {m : Ptr} {n : Nat} {tr : List Transition} (h : tr.length < 2 ^ 32) :
    Nested m n tr := by
  intro tr₁ tr₂ heq i _
  have hle : tr₁.countP (Transition.locks m i) ≤ tr₁.length := List.countP_le_length
  rw [heq, List.length_append] at h
  omega

/-- A whole run: the locks a task was granted are those it unlocked and
those it holds. -/
theorem mutex_run {m : Ptr} {c c' : Cfg} {tr : List Transition} (hinv : MutexInv m c)
    (hs : Sched c) (hzero : ∀ i < c.kernel.taskCount, c.kernel.holds m i = 0) (hrun : Run c tr c')
    (honce : ∀ x ∈ tr, x.action.createsMutex m = false) (hnested : Nested m c.kernel.taskCount tr) :
    MutexInv m c' ∧ Sched c' ∧ ∀ i < c.kernel.taskCount,
      tr.countP (Transition.locks m i)
        = tr.countP (Transition.unlocks m i) + c'.kernel.holds m i := by
  induction hrun with
  | nil => exact ⟨hinv, hs, fun i hi => by simp [hzero i hi]⟩
  | @snoc tr c₁ c₂ a o hrun hstep ih =>
      obtain ⟨hinv₁, hs₁, hcount⟩ :=
        ih (fun x hx => honce x (List.mem_append_left _ hx)) hnested.init
      have hcases := step_cases hstep
      have hn₁ : c₁.kernel.taskCount = c.kernel.taskCount := hrun.taskCount
      have hmutex : MutexStep m ⟨c₁, a, o, c₂⟩ := mutexStep_of_step hs₁ hcases
        (honce ⟨c₁, a, o, c₂⟩ (List.mem_append_right _ List.mem_cons_self))
      -- A lock and an unlock by one task are no one step.
      have hexcl : ∀ i < c.kernel.taskCount, (Transition.locks m i ⟨c₁, a, o, c₂⟩).toNat
          + c₁.kernel.holds m i < 2 ^ 32 := by
        intro i hi
        have hlt := hnested (tr ++ [⟨c₁, a, o, c₂⟩]) [] (List.append_nil _).symm i hi
        have hold := hcount i hi
        rw [countP_snoc, countP_snoc] at hlt
        by_cases hone : Transition.locks m i ⟨c₁, a, o, c₂⟩ = true
        · have hno : Transition.unlocks m i ⟨c₁, a, o, c₂⟩ = false :=
            hmutex.not_unlocks (hn₁ ▸ hi) hone
          rw [hno] at hlt
          change _ < _ + 0 + _ at hlt
          omega
        · rw [Bool.not_eq_true] at hone
          rw [hone]
          change 0 + _ < _
          have hword : c₁.kernel.holds m i < 2 ^ 32 := by
            rw [Kernel.holds]
            split
            · exact (c₁.kernel.mutexes m).recursion.toNat_lt
            · decide
          omega
      refine ⟨hmutex.inv hs₁ hcases.taskCount hinv₁ (hn₁ ▸ hexcl), hs₁.step hcases,
        fun i hi => ?_⟩
      have hstep := hmutex.holds hinv₁ (hn₁ ▸ hi) (hexcl i hi)
      have hold := hcount i hi
      rw [countP_snoc, countP_snoc]
      change _ + _ = _ + c₂.kernel.holds m i at hstep
      change _ + c₁.kernel.holds m i = _ at hstep
      omega

/-! ## One wait -/

section OneWait

variable {c c' : Cfg} {a : Action} {o : Observation} {m : Ptr} {i : Nat}

/-- What a step makes of a wait for the mutex: it goes on, or ends with 1
exactly if the ownership is handed over, or with 0 exactly if the deadline
is over. -/
inductive MutexWaitStep (m : Ptr) (i : Nat) (x : Transition) : Prop where
  | kept : x.post.kernel.view i = x.pre.kernel.view i → x.handsTo m i = false →
      x.timesOut m i = false → MutexWaitStep m i x
  | handed : x.post.kernel.view i = (x.pre.kernel.view i).ended 1 → x.handsTo m i = true →
      x.timesOut m i = false → MutexWaitStep m i x
  | late : x.post.kernel.view i = (x.pre.kernel.view i).ended 0 → x.handsTo m i = false →
      x.timesOut m i = true → MutexWaitStep m i x

theorem timesOut_eq_false (ha : a ≠ .tick) : Transition.timesOut m i ⟨c, a, o, c'⟩ = false := by
  cases a with
  | tick => exact absurd rfl ha
  | _ => rfl

/-- Where the action makes nobody else the owner, nothing is handed over. -/
theorem handsTo_of_owner (hstep : StepCases c a c' o)
    (howner : (a.onMutex c m (c.kernel.mutexes m)).owner = i → (c.kernel.mutexes m).owner = i) :
    Transition.handsTo m i ⟨c, a, o, c'⟩ = false := by
  obtain ⟨next, hrecord⟩ := step_mutex hstep m
  refine handsTo_eq_false fun hown => Or.inl (howner ?_)
  change (c'.kernel.mutexes m).owner = i at hown
  rw [hrecord] at hown
  exact hown

theorem tick_mutexWait (hstep : StepCases c .tick c' o) (hi : i < c.kernel.taskCount)
    (hon : c.kernel.WaitsAt (mutexPlace m) i) : MutexWaitStep m i ⟨c, .tick, o, c'⟩ := by
  have hno : Transition.handsTo m i ⟨c, .tick, o, c'⟩ = false := handsTo_of_owner hstep id
  have hkind : (c.kernel.view i).waitKind ≠ .timerService := by
    rw [hon.2.2]
    exact fun h => nomatch h
  cases hstep with
  | thread _ _ hseg => cases hseg
  | tick _ hk =>
      have hview := tickTasks_blocked hk hi hon.1 hkind
      by_cases hexpired : (c.kernel.view i).deadline.Expired (c.kernel.gKernelTicks + 1)
      · rw [if_pos hexpired] at hview
        exact .late hview hno (decide_eq_true ⟨hon, hexpired⟩)
      · rw [if_neg hexpired] at hview
        exact .kept hview hno (decide_eq_false fun hboth => hexpired hboth.2)

/-- An unlock hands the mutex to the selected waiter, or leaves every wait
alone. -/
theorem unlock_mutexWait (hs : Sched c) (hstep : StepCases c (.call (.mutexUnlock m)) c' o)
    (hi : i < c.kernel.taskCount) (hon : c.kernel.WaitsAt (mutexPlace m) i) :
    MutexWaitStep m i ⟨c, .call (.mutexUnlock m), o, c'⟩ := by
  have hlate : Transition.timesOut m i ⟨c, .call (.mutexUnlock m), o, c'⟩ = false :=
    timesOut_eq_false (by simp)
  obtain ⟨hpc, hpost, -⟩ := hstep.unlock
  have hcur : i ≠ c.current := fun heq =>
    not_waitsAt_of_user hs hs.current_lt hpc (heq ▸ hon)
  have honMutex : (Action.call (.mutexUnlock m)).onMutex c m (c.kernel.mutexes m)
      = (c.kernel.mutexes m).unlockedFor c.kernel.gCurrentTaskIndex
        (c.kernel.selected (mutexPlace m)) := by
    simp only [Action.onMutex, Call.onMutex, if_true]
    rfl
  rcases jrtMutexUnlock_cases c.kernel m with ⟨hnot, heq⟩ | ⟨-, -, -, hleaves, -, hview⟩ |
    ⟨-, howner, -, hleaves, -, hview⟩
  · refine .kept (by rw [hpost, heq]) (handsTo_of_owner hstep ?_) hlate
    rw [honMutex, JrtMutex.unlockedFor, if_pos hnot]
    exact id
  · refine .kept (by rw [hpost, hview]) (handsTo_of_owner hstep ?_) hlate
    rw [honMutex, hleaves]
    exact id
  · rw [hleaves] at honMutex
    cases hselected : c.kernel.selected (mutexPlace m) with
    | none => exact absurd hon (wakeSelect_eq_none_iff.mp hselected i hi)
    | some w =>
        rw [hselected] at honMutex
        rw [Kernel.wokenView, hselected] at hview
        by_cases hiw : i = w
        · subst hiw
          obtain ⟨next, hrecord⟩ := step_mutex hstep m
          have howner' : (c'.kernel.mutexes m).owner = i := by
            rw [hrecord, honMutex]
            rfl
          refine .handed ?_ (decide_eq_true ⟨hon, ?_, howner'⟩) hlate
          · rw [hpost, hview]
            exact Function.update_self i _ _
          · exact fun heq => hcur (heq.symm.trans howner)
        · refine .kept ?_ (handsTo_of_owner hstep fun heq => ?_) hlate
          · rw [hpost, hview]
            exact Function.update_of_ne hiw _ _
          · rw [honMutex] at heq
            exact absurd heq.symm hiw

/-- Apart from an unlock of it the owner of a mutex stays, or becomes none, or
the running task, which waits nowhere. -/
theorem owner_of_onMutex (hs : Sched c) (hunlock : a ≠ .call (.mutexUnlock m))
    (hi : i < c.kernel.taskCount) (hon : c.kernel.WaitsAt (mutexPlace m) i)
    (hown : (a.onMutex c m (c.kernel.mutexes m)).owner = i) : (c.kernel.mutexes m).owner = i := by
  cases a with
  | call made =>
      cases made with
      | mutexCreateRecursiveStatic b =>
          simp only [Action.onMutex, Call.onMutex] at hown
          split at hown
          · have hlt := hs.count_lt
            change uint32Max = i at hown
            omega
          · exact hown
      | mutexUnlock b =>
          have hb : m ≠ b := fun heq => hunlock (by rw [heq])
          simp only [Action.onMutex, Call.onMutex, if_neg hb] at hown
          exact hown
      | _ => exact hown
  | proceed source =>
      cases hpc : c.pc c.current with
      | entered w r =>
          cases w with
          | mutexLock b timeout deadline =>
              simp only [Action.onMutex, hpc] at hown
              split at hown
              · have hcur : i ≠ c.current := fun heq =>
                  not_waitsAt_of_entered hs hpc (heq ▸ hon)
                rcases jrtMutexLock_cases c.kernel m timeout deadline with
                  ⟨-, hleaves, -⟩ | ⟨-, -, hleaves, -⟩ | ⟨-, -, hleaves, -⟩
                · rw [show c.current = c.kernel.gCurrentTaskIndex from rfl, hleaves] at hown
                  exact absurd hown.symm hcur
                · rwa [show c.current = c.kernel.gCurrentTaskIndex from rfl, hleaves] at hown
                · rwa [show c.current = c.kernel.gCurrentTaskIndex from rfl, hleaves] at hown
              · exact hown
          | _ =>
              simp only [Action.onMutex, hpc] at hown
              exact hown
      | _ =>
          simp only [Action.onMutex, hpc] at hown
          exact hown
  | _ => exact hown

theorem mutexWait_step (hs : Sched c) (hstep : StepCases c a c' o) (hi : i < c.kernel.taskCount)
    (hon : c.kernel.WaitsAt (mutexPlace m) i) : MutexWaitStep m i ⟨c, a, o, c'⟩ := by
  by_cases htick : a = .tick
  · subst htick
    exact tick_mutexWait hstep hi hon
  by_cases hunlock : a = .call (.mutexUnlock m)
  · subst hunlock
    exact unlock_mutexWait hs hstep hi hon
  · exact .kept (hstep.mutexWait_kept hs htick hunlock hon)
      (handsTo_of_owner hstep (owner_of_onMutex hs hunlock hi hon)) (timesOut_eq_false htick)

end OneWait

/-! ## One lock call -/

/-- How far the lock call `w` of task `i` is, by how often it was handed the
mutex and how often it timed out. -/
inductive LockPhase (w : WaitCall) (i : Nat) (c : Cfg) : Nat → Nat → Prop where
  | entered {r : Bool} : c.pc i = .entered w r → LockPhase w i c 0 0
  | waiting : c.Within i w → (c.kernel.view i).state = .blocked → LockPhase w i c 0 0
  | handed : c.Within i w → (c.kernel.view i).state ≠ .blocked →
      (c.kernel.view i).waitResult = 1 → LockPhase w i c 1 0
  | late : c.Within i w → (c.kernel.view i).state ≠ .blocked →
      (c.kernel.view i).waitResult = 0 → LockPhase w i c 0 1

section OneCall

variable {c c' : Cfg} {a : Action} {o : Observation} {m : Ptr} {i handed late : Nat}
  {timeout : UInt32} {deadline : TaskWaitDeadline}

theorem lockResult_eq {w : WaitCall} (hpc : (c.pc c.current).waitCall = some w)
    (hw : w = .mutexLock m timeout deadline) (source : Nat → UInt8) :
    Transition.lockResult m c.current ⟨c, .proceed source, o, c'⟩ = o.result := by
  subst hw
  simp [Transition.lockResult, hpc]

/-- Only the running task returns from a lock call. -/
theorem lockResult_proceed {r : UInt32}
    (hresult : Transition.lockResult m i ⟨c, a, o, c'⟩ = some r) :
    i = c.current ∧ ∃ source, a = .proceed source := by
  cases a with
  | proceed source =>
      refine ⟨?_, source, rfl⟩
      simp only [Transition.lockResult] at hresult
      split at hresult
      · split at hresult
        · next hboth => exact hboth.2
        · cases hresult
      · cases hresult
  | _ => cases hresult

/-- A task that does not wait is handed nothing and cannot time out. -/
theorem quiet_of_not_waitsAt (hnot : ¬c.kernel.WaitsAt (mutexPlace m) i) :
    Transition.handsTo m i ⟨c, a, o, c'⟩ = false
      ∧ Transition.timesOut m i ⟨c, a, o, c'⟩ = false := by
  refine ⟨handsTo_eq_false fun _ => Or.inr hnot, ?_⟩
  cases a with
  | tick => exact decide_eq_false fun hboth => hnot hboth.1
  | _ => rfl

/-- A call that has not reached its critical section, or blocks in it. -/
theorem LockPhase.step_entered {r : Bool} (hs : Sched c) (hstep : StepCases c a c' o)
    (hpc : c.pc i = .entered (.mutexLock m timeout deadline) r)
    (hnone : Transition.lockResult m i ⟨c, a, o, c'⟩ = none) :
    LockPhase (.mutexLock m timeout deadline) i c' 0 0 := by
  cases hstep with
  | @thread a s _ _ hseg =>
      by_cases hic : i = c.current
      · subst hic
        obtain ⟨source, rfl⟩ := hseg.proceeds (by simp [hpc])
        have he := hseg.of_entered hpc
        rw [lockResult_eq (by rw [hpc]; rfl) rfl] at hnone
        change s.result = none at hnone
        have hflow := he
        obtain rfl := Except.ok.inj hflow
        cases proceedEntered_exit he with
        | served _ huser | late _ _ huser =>
            generalize jrtMutexLock c.kernel m timeout deadline false = flow at hnone huser
            obtain ⟨ret | _, k⟩ := flow
            · cases hnone
            · cases huser
        | blocked _ _ hyield hview hv =>
            rw [hs.currentTask] at hview
            refine .waiting (Or.inl ((Sched.after_pc_current _).trans hyield)) ?_
            show (Kernel.view _ c.current).state = _
            rw [Cfg.after, hview, Function.update_self]
            exact hv.1
      · exact .entered ((Sched.after_pc_of_ne s hic).trans hpc)
  | start | tick | isr | pendsv | store | cycles => exact .entered hpc

theorem LockPhase.step (h : LockPhase (.mutexLock m timeout deadline) i c handed late)
    (hs : Sched c) (hi : i < c.kernel.taskCount) (hstep : StepCases c a c' o)
    (hnone : Transition.lockResult m i ⟨c, a, o, c'⟩ = none) :
    LockPhase (.mutexLock m timeout deadline) i c'
      (handed + (Transition.handsTo m i ⟨c, a, o, c'⟩).toNat)
      (late + (Transition.timesOut m i ⟨c, a, o, c'⟩).toNat) := by
  -- Behind its wait the call stays where it is until it returns.
  have hbehind : c.Within i (.mutexLock m timeout deadline) →
      c'.Within i (.mutexLock m timeout deadline) := by
    intro hwithin
    rcases hstep.within hwithin with hkept | ⟨rfl, -, -, ⟨source, rfl⟩, hresult⟩
    · exact hkept
    · rw [lockResult_eq hwithin.waitCall rfl, hresult] at hnone
      cases hnone
  have hended : c.Within i (.mutexLock m timeout deadline) →
      (c.kernel.view i).state ≠ .blocked → (c'.kernel.view i).state ≠ .blocked
        ∧ (c'.kernel.view i).waitResult = (c.kernel.view i).waitResult
        ∧ ¬c.kernel.WaitsAt (mutexPlace m) i := by
    intro hwithin hb
    obtain ⟨hb', hresult⟩ := hstep.ended_kept hs hwithin hb
    exact ⟨hb', hresult, fun hon => hb hon.1⟩
  cases h with
  | @entered r hpc =>
      have hnot : ¬c.kernel.WaitsAt (mutexPlace m) i := by
        intro hon
        obtain ⟨w, hw | hw⟩ := hs.blocked i hi hon.1 <;> rw [hpc] at hw <;> cases hw
      obtain ⟨hhands, hlate⟩ := quiet_of_not_waitsAt hnot
      rw [hhands, hlate]
      exact LockPhase.step_entered hs hstep hpc hnone
  | waiting hwithin hb =>
      have hon : c.kernel.WaitsAt (mutexPlace m) i := (hs.waiting i _ hwithin).on hb
      cases mutexWait_step hs hstep hi hon with
      | kept hview hhands hlate =>
          rw [hhands, hlate]
          refine .waiting (hbehind hwithin) ?_
          show (c'.kernel.view i).state = .blocked
          rw [hview]
          exact hb
      | handed hview hhands hlate =>
          change c'.kernel.view i = _ at hview
          rw [hhands, hlate]
          exact .handed (hbehind hwithin) (by rw [hview]; exact fun h => nomatch h)
            (by rw [hview]; rfl)
      | late hview hhands hlate =>
          change c'.kernel.view i = _ at hview
          rw [hhands, hlate]
          exact .late (hbehind hwithin) (by rw [hview]; exact fun h => nomatch h)
            (by rw [hview]; rfl)
  | handed hwithin hb hone =>
      obtain ⟨hb', hresult, hnot⟩ := hended hwithin hb
      obtain ⟨hhands, hlate⟩ := quiet_of_not_waitsAt hnot
      rw [hhands, hlate]
      exact .handed (hbehind hwithin) hb' (hresult.trans hone)
  | late hwithin hb hzero =>
      obtain ⟨hb', hresult, hnot⟩ := hended hwithin hb
      obtain ⟨hhands, hlate⟩ := quiet_of_not_waitsAt hnot
      rw [hhands, hlate]
      exact .late (hbehind hwithin) hb' (hresult.trans hzero)

/-- The call over any steps in which it does not return. -/
theorem LockPhase.run {tr : List Transition}
    (h : LockPhase (.mutexLock m timeout deadline) i c handed late) (hs : Sched c)
    (hi : i < c.kernel.taskCount) (hrun : Run c tr c')
    (hnone : ∀ x ∈ tr, x.lockResult m i = none) :
    LockPhase (.mutexLock m timeout deadline) i c'
      (handed + tr.countP (Transition.handsTo m i)) (late + tr.countP (Transition.timesOut m i)) := by
  induction hrun with
  | nil => exact h
  | @snoc tr c₁ c₂ a o hrun hstep ih =>
      have h₁ := ih fun x hx => hnone x (List.mem_append_left _ hx)
      have hs₁ : Sched c₁ := hrun.induction Sched (fun hs hst => hs.step hst) hs
      rw [countP_snoc, countP_snoc, ← Nat.add_assoc, ← Nat.add_assoc]
      exact h₁.step hs₁ (hrun.taskCount ▸ hi) (step_cases hstep)
        (hnone ⟨c₁, a, o, c₂⟩ (List.mem_append_right _ List.mem_cons_self))

theorem LockPhase.returns {r : UInt32}
    (h : LockPhase (.mutexLock m timeout deadline) i c handed late) (hs : Sched c)
    (hstep : StepCases c a c' o)
    (hresult : Transition.lockResult m i ⟨c, a, o, c'⟩ = some r) :
    ((∃ w reserved, c.pc i = .entered w reserved) ∧ handed = 0 ∧ late = 0)
      ∨ ((∃ w, c.pc i = .resumed w)
        ∧ ((r = 1 ∧ handed = 1 ∧ late = 0) ∨ (r = 0 ∧ handed = 0 ∧ late = 1))) := by
  obtain ⟨rfl, source, rfl⟩ := lockResult_proceed hresult
  -- Behind its wait the call returns what the wait ended with.
  have hreturn : c.Within c.current (.mutexLock m timeout deadline) →
      c.pc c.current = .resumed (.mutexLock m timeout deadline)
        ∧ r = (c.kernel.view c.current).waitResult ∧ c.pending = false := by
    intro hwithin
    rw [lockResult_eq hwithin.waitCall rfl] at hresult
    cases hstep with
    | thread _ hp hseg =>
        rcases hwithin with hpc | hpc
        · cases hseg with
          | yielding => cases hresult
          | entered hc | resumed hc | requestSwitch hc | inTime hc | delayed hc =>
              rw [hpc] at hc
              cases hc
        · refine ⟨hpc, ?_, hp⟩
          cases hseg with
          | resumed hc =>
              rw [hpc] at hc
              obtain rfl := Pc.resumed.inj hc
              rw [view_waitResult, ← hs.currentTask]
              exact (Option.some.inj hresult).symm
          | yielding hc | entered hc | requestSwitch hc | inTime hc | delayed hc =>
              rw [hpc] at hc
              cases hc
  cases h with
  | entered hpc => exact Or.inl ⟨⟨_, _, hpc⟩, rfl, rfl⟩
  | waiting hwithin hb =>
      obtain ⟨hpc, -, hp⟩ := hreturn hwithin
      have hrunning := hs.current_running hp fun w hy => by
        rw [hpc] at hy
        cases hy
      rw [hb] at hrunning
      cases hrunning
  | handed hwithin _ hone =>
      obtain ⟨hpc, hr, -⟩ := hreturn hwithin
      exact Or.inr ⟨⟨_, hpc⟩, Or.inl ⟨hr.trans hone, rfl, rfl⟩⟩
  | late hwithin _ hzero =>
      obtain ⟨hpc, hr, -⟩ := hreturn hwithin
      exact Or.inr ⟨⟨_, hpc⟩, Or.inr ⟨hr.trans hzero, rfl, rfl⟩⟩

end OneCall

/-! ## From the creation on -/

/-- The mutex is as `JRT_MutexCreateRecursiveStatic` leaves it, in a
reachable configuration in which no task is in a lock of it. -/
structure MutexCreated (img : Image) (m : Ptr) (c : Cfg) : Prop where
  reachable : Reachable img c
  unused : c.Unused (mutexPlace m)
  mutex : c.kernel.mutexes m = (c.kernel.mutexes m).unlocked

section Created

variable {img : Image} {m : Ptr} {c c₀ c₁ c' : Cfg} {o : Observation}

theorem MutexCreated.of_boot (hboot : Boot img c)
    (hmutex : c.kernel.mutexes m = (c.kernel.mutexes m).unlocked) : MutexCreated img m c :=
  ⟨⟨c, [], hboot, .nil⟩, .boot hboot (by simp [mutexPlace]), hmutex⟩

theorem MutexCreated.of_call (hreachable : Reachable img c₀) (hunused : c₀.Unused (mutexPlace m))
    (hcreate : step c₀ (.call (.mutexCreateRecursiveStatic m)) = some (c₁, o)) :
    MutexCreated img m c₁ := by
  have hstep := step_cases hcreate
  obtain ⟨next, hrecord⟩ := step_mutex hstep m
  simp only [Action.onMutex, Call.onMutex, if_true] at hrecord
  refine ⟨hreachable.step hcreate, ?_, by rw [hrecord]; rfl⟩
  cases hstep with
  | thread _ _ hseg =>
      cases hseg with
      | call _ _ hs =>
          simp only [enter, exec_bind_eq_ok] at hs
          obtain ⟨k', -, hs⟩ := hs
          obtain rfl := Except.ok.inj hs
          exact hunused.after rfl

theorem MutexCreated.inv (h : MutexCreated img m c) : MutexInv m c := by
  refine ⟨?_, fun i hi hon => absurd ⟨i, hi, hon⟩ (h.unused.not_waited h.reachable.sched)⟩
  rw [h.mutex]
  exact sound_unlocked _ _

theorem MutexCreated.holds (h : MutexCreated img m c) (i : Nat) : c.kernel.holds m i = 0 :=
  holds_of_unlocked h.inv.sound (by rw [h.mutex]; rfl) i

/-- What an unlock does: nothing, if it is not the owner's; one hold less;
or, as the last one, the ownership passed on or given up. -/
theorem MutexInv.unlock (hinv : MutexInv m c) (hs : Sched c)
    (hstep : StepCases c (.call (.mutexUnlock m)) c' o) :
    ((c.kernel.mutexes m).owner ≠ c.current ∧ c' = c ∧ o.result = some 0)
      ∨ ((c.kernel.mutexes m).owner = c.current ∧ (c.kernel.mutexes m).recursion > 1
        ∧ o.result = some 1 ∧ c'.kernel.view = c.kernel.view
        ∧ c'.kernel.mutexes m
          = (c.kernel.mutexes m).withRecursion ((c.kernel.mutexes m).recursion - 1))
      ∨ ((c.kernel.mutexes m).owner = c.current ∧ (c.kernel.mutexes m).recursion = 1
        ∧ o.result = some 1
        ∧ ((∃ i < c.kernel.taskCount, c.kernel.WaitsAt (mutexPlace m) i
            ∧ (∀ j < c.kernel.taskCount, c.kernel.WaitsAt (mutexPlace m) j →
                (c.kernel.tasks j).priority ≤ (c.kernel.tasks i).priority)
            ∧ c'.kernel.mutexes m = (c.kernel.mutexes m).lockedBy i
            ∧ c'.kernel.view i = (c.kernel.view i).ended 1
            ∧ ∀ j, j ≠ i → c'.kernel.view j = c.kernel.view j)
          ∨ (¬c.kernel.Waited (mutexPlace m) ∧ c'.kernel.view = c.kernel.view
            ∧ c'.kernel.mutexes m = (c.kernel.mutexes m).unlocked))) := by
  obtain ⟨-, hpost, hresult⟩ := hstep.unlock
  have hrecord : c'.kernel.mutexes m = (c.kernel.mutexes m).unlockedFor c.kernel.gCurrentTaskIndex
      (c.kernel.selected (mutexPlace m)) := by
    rw [hpost]
    change (jrtMutexUnlock c.kernel m false).2.mutexes m = _
    rw [jrtMutexUnlock_mutexes, Function.update_self]
    rfl
  rcases jrtMutexUnlock_cases c.kernel m with ⟨hnot, heq⟩ |
    ⟨-, howner, hnested, hleaves, hone, hview⟩ | ⟨hlocked, howner, hfinal, hleaves, hone, hview⟩
  · refine Or.inl ⟨?_, by rw [hpost, heq], by rw [hresult, heq]⟩
    rcases hnot with hfree | hother
    · rw [(hinv.sound.unlocked hfree).1]
      have hlt := hs.current_lt
      have hcount := hs.count_lt
      omega
    · exact hother
  · rw [hleaves] at hrecord
    refine Or.inr (Or.inl ⟨howner, hnested, by rw [hresult, hone], ?_, hrecord⟩)
    rw [hpost]
    exact hview
  · have hview' : c'.kernel.view = c.kernel.wokenView (mutexPlace m) := by
      rw [hpost]
      exact hview
    rw [hleaves] at hrecord
    refine Or.inr (Or.inr ⟨howner, recursion_eq_one hinv.sound hlocked hfinal,
      by rw [hresult, hone], ?_⟩)
    rw [Kernel.wokenView] at hview'
    cases hselected : c.kernel.selected (mutexPlace m) with
    | none =>
        rw [hselected] at hview' hrecord
        refine Or.inr ⟨?_, hview', hrecord⟩
        rintro ⟨i, hi, hon⟩
        exact wakeSelect_eq_none_iff.mp hselected i hi hon
    | some w =>
        rw [hselected] at hview' hrecord
        obtain ⟨hlt, hon, hmax⟩ := wakeSelect_spec hselected
        refine Or.inl ⟨w, hlt, hon, hmax, hrecord, ?_, fun j hj => ?_⟩
        · rw [hview']
          exact Function.update_self w _ _
        · rw [hview']
          exact Function.update_of_ne hj _ _

end Created

/-- From the creation of a mutex on each task was granted as many locks of
it as it unlocked successfully and the recursion counter says it holds, and
only the owner holds any; nobody waits for an unlocked mutex. A final
unlock hands the mutex to a waiter of the highest effective priority if
there is one, an unlock by another task than the owner changes nothing, and
a lock call that blocked returns 1 if it was handed the mutex and 0 if it
timed out. -/
theorem mutex_excludes (img : Image) (c₁ c : Cfg) (m : Ptr) (tr : List Transition)
    (hcreated : MutexCreated img m c₁) (hrun : Run c₁ tr c)
    (honce : ∀ x ∈ tr, x.action.createsMutex m = false)
    (hnested : Nested m c₁.kernel.taskCount tr) :
    (∀ i < c.kernel.taskCount, tr.countP (Transition.locks m i)
        = tr.countP (Transition.unlocks m i)
          + if (c.kernel.mutexes m).owner = i then (c.kernel.mutexes m).recursion.toNat else 0)
      ∧ ((c.kernel.mutexes m).locked = 0 ↔ (c.kernel.mutexes m).owner = uint32Max)
      ∧ ((c.kernel.mutexes m).owner = uint32Max ↔ (c.kernel.mutexes m).recursion = 0)
      ∧ ((c.kernel.mutexes m).locked ≠ 0 → (c.kernel.mutexes m).owner < c.kernel.taskCount)
      ∧ ((c.kernel.mutexes m).locked = 0 → ¬c.kernel.Waited (mutexPlace m))
      ∧ (∀ c' o, step c (.call (.mutexUnlock m)) = some (c', o) →
          ((c.kernel.mutexes m).owner ≠ c.current ∧ c' = c ∧ o.result = some 0)
            ∨ ((c.kernel.mutexes m).owner = c.current ∧ (c.kernel.mutexes m).recursion > 1
              ∧ o.result = some 1 ∧ c'.kernel.view = c.kernel.view
              ∧ c'.kernel.mutexes m
                = (c.kernel.mutexes m).withRecursion ((c.kernel.mutexes m).recursion - 1))
            ∨ ((c.kernel.mutexes m).owner = c.current ∧ (c.kernel.mutexes m).recursion = 1
              ∧ o.result = some 1
              ∧ ((∃ i < c.kernel.taskCount, c.kernel.WaitsAt (mutexPlace m) i
                  ∧ (∀ j < c.kernel.taskCount, c.kernel.WaitsAt (mutexPlace m) j →
                      (c.kernel.tasks j).priority ≤ (c.kernel.tasks i).priority)
                  ∧ c'.kernel.mutexes m = (c.kernel.mutexes m).lockedBy i
                  ∧ c'.kernel.view i = (c.kernel.view i).ended 1
                  ∧ ∀ j, j ≠ i → c'.kernel.view j = c.kernel.view j)
                ∨ (¬c.kernel.Waited (mutexPlace m) ∧ c'.kernel.view = c.kernel.view
                  ∧ c'.kernel.mutexes m = (c.kernel.mutexes m).unlocked))))
      ∧ ∀ timeout c₂ o₂ (next : List Transition) c₃ a c₄ o r,
          step c (.call (.mutexLock m timeout)) = some (c₂, o₂) → Run c₂ next c₃ →
          (∀ x ∈ next, x.lockResult m c.current = none) → step c₃ a = some (c₄, o) →
          Transition.lockResult m c.current ⟨c₃, a, o, c₄⟩ = some r →
            ((∃ w reserved, c₃.pc c.current = .entered w reserved)
                ∧ next.countP (Transition.handsTo m c.current) = 0
                ∧ next.countP (Transition.timesOut m c.current) = 0)
              ∨ ((∃ w, c₃.pc c.current = .resumed w)
                ∧ ((r = 1 ∧ next.countP (Transition.handsTo m c.current) = 1
                    ∧ next.countP (Transition.timesOut m c.current) = 0)
                  ∨ (r = 0 ∧ next.countP (Transition.handsTo m c.current) = 0
                    ∧ next.countP (Transition.timesOut m c.current) = 1))) := by
  have hs₁ := hcreated.reachable.sched
  obtain ⟨hinv, hs, hcount⟩ := mutex_run hcreated.inv hs₁ (fun i _ => hcreated.holds i) hrun honce
    hnested
  have hn : c.kernel.taskCount = c₁.kernel.taskCount := hrun.taskCount
  have hlt := hs.count_lt
  have hfree : (c.kernel.mutexes m).owner = uint32Max → (c.kernel.mutexes m).locked = 0 := by
    intro howner
    by_contra hlocked
    have hown := (hinv.sound.locked hlocked).1
    omega
  refine ⟨fun i hi => hcount i (hn ▸ hi), ⟨fun h => (hinv.sound.unlocked h).1, hfree⟩,
    ⟨fun h => (hinv.sound.unlocked (hfree h)).2, fun hzero => ?_⟩,
    fun hlocked => (hinv.sound.locked hlocked).1, ?_, ?_, ?_⟩
  · by_contra hown
    have hlocked : (c.kernel.mutexes m).locked ≠ 0 := fun h => hown (hinv.sound.unlocked h).1
    exact (hinv.sound.locked hlocked).2 hzero
  · rintro hunlocked ⟨i, hi, hon⟩
    exact (hinv.waiting i hi hon).1 hunlocked
  · intro c' o hstep
    exact hinv.unlock hs (step_cases hstep)
  · intro timeout c₂ o₂ next c₃ a c₄ o r hcall hnext hnone hlast hresult
    have hcases := step_cases hcall
    have hs₂ : Sched c₂ := hs.step hcases
    have hi₂ : c.current < c₂.kernel.taskCount := hcases.taskCount ▸ hs.current_lt
    have hphase : LockPhase (.mutexLock m timeout (taskWaitDeadline c.kernel timeout)) c.current c₂
        0 0 := by
      cases hcases with
      | thread _ _ hseg =>
          cases hseg with
          | call _ _ he =>
              obtain rfl := Except.ok.inj he
              exact .entered (Sched.after_pc_current _)
    have hphase₃ := hphase.run hs₂ hi₂ hnext hnone
    rw [Nat.zero_add, Nat.zero_add] at hphase₃
    have hs₃ : Sched c₃ := hnext.induction Sched (fun hs hst => hs.step hst) hs₂
    exact hphase₃.returns hs₃ (step_cases hlast) hresult

/-- The first task locks a mutex twice, unlocks it once and goes to sleep, the
second waits for it, and the first unlocks it again. -/
def handOffActions : List Action :=
  [.call (.mutexLock 16 0), .proceed fun _ => 0, .call (.mutexLock 16 0), .proceed fun _ => 0,
    .call (.mutexUnlock 16), .call (.taskDelay 1), .pendsv (sampleSp 0),
    .call (.mutexLock 16 5), .proceed fun _ => 0, .tick, .pendsv (sampleSp 1),
    .call (.mutexUnlock 16)]

theorem mutex_excludes_sample : ∃ c₁ tr c, MutexCreated .sample 16 c₁
    ∧ runActions c₁ handOffActions = some (tr, c)
    ∧ (c.kernel.mutexes 16).owner = 1 ∧ c.kernel.gCurrentTaskIndex = 0
    ∧ tr.countP (Transition.locks 16 0) = 2 ∧ tr.countP (Transition.locks 16 1) = 1 := by
  have hsome : ((sampleBoot [2, 1]).bind fun b => (step b .start).bind fun r₀ =>
      (step r₀.1 (.call (.mutexCreateRecursiveStatic 16))).bind fun r₁ =>
        (runActions r₁.1 handOffActions).filter fun r =>
          decide ((r.2.kernel.mutexes 16).owner = 1 ∧ (r.2.kernel.mutexes 16).recursion = 1
            ∧ r.2.kernel.gCurrentTaskIndex = 0 ∧ r.2.kernel.taskCount = 4)
          && (r.1.countP (Transition.unlocks 16 0) == 2
            && r.1.countP (Transition.unlocks 16 1) == 0)).isSome = true := by
    decide +kernel
  obtain ⟨⟨tr, c⟩, hbind⟩ := Option.isSome_iff_exists.mp hsome
  obtain ⟨b, hboot, hbind⟩ := Option.bind_eq_some_iff.mp hbind
  obtain ⟨⟨c₀, o₀⟩, hstart, hbind⟩ := Option.bind_eq_some_iff.mp hbind
  obtain ⟨⟨c₁, o₁⟩, hcreate, hbind⟩ := Option.bind_eq_some_iff.mp hbind
  obtain ⟨hrun, hchecks⟩ := Option.filter_eq_some_iff.mp hbind
  simp only [Bool.and_eq_true, decide_eq_true_eq, beq_iff_eq] at hchecks
  obtain ⟨⟨howner, hrecursion, hcurrent, hcount⟩, hunlocks₀, hunlocks₁⟩ := hchecks
  have hb : Boot .sample b := sampleBoot_boot hboot
  have hunused : b.Unused (mutexPlace 16) := .boot hb (by simp [mutexPlace])
  have hreachable : Reachable .sample b := ⟨b, [], hb, .nil⟩
  have hcreated : MutexCreated .sample 16 c₁ :=
    .of_call (hreachable.step hstart) (hunused.start hstart) hcreate
  have hactions : ∀ a ∈ handOffActions, a.createsMutex 16 = false := by
    simp [handOffActions, Action.createsMutex]
  have honce : ∀ x ∈ tr, x.action.createsMutex 16 = false := fun x hx => by
    refine hactions x.action ?_
    rw [← runActions_actions hrun]
    exact List.mem_map_of_mem hx
  have hlength : tr.length < 2 ^ 32 := by
    rw [← List.length_map, runActions_actions hrun]
    decide
  obtain ⟨haccount, -⟩ := mutex_excludes .sample c₁ c 16 tr hcreated (runActions_run hrun) honce
    (nested_of_length_lt hlength)
  have h₀ := haccount 0 (by rw [hcount]; decide)
  have h₁ := haccount 1 (by rw [hcount]; decide)
  rw [hunlocks₀, howner, hrecursion] at h₀
  rw [hunlocks₁, howner, hrecursion] at h₁
  exact ⟨c₁, tr, c, hcreated, hrun, howner, hcurrent, h₀, h₁⟩

end JustRT
