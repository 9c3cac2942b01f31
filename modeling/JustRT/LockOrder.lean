import JustRT.Preemption

/-!
# Locks in an order

A mutex is recursive and is lent its waiters' priorities, but nothing in
the kernel keeps tasks from waiting for each other in a cycle. An
application that ranks its mutexes does: a task that asks for a mutex only
while everything it owns ranks below never closes a cycle
(`Ordered`). The condition is on the calls of the tasks; between a call and
its critical section other tasks run, and an owner of a mutex may be handed
another one while it waits.

What a waiter waits for then ranks above all it owns, so the ranks grow
along every chain of waits, and every chain ends in a task that waits for
no mutex.
-/

namespace JustRT

open Relation Inheritance

/-! ## Owners -/

def Kernel.Owns (k : Kernel) (m : Ptr) (i : Nat) : Prop :=
  (k.mutexes m).locked ≠ 0 ∧ (k.mutexes m).owner = i

instance (k : Kernel) (m : Ptr) (i : Nat) : Decidable (k.Owns m i) :=
  inferInstanceAs (Decidable (_ ∧ _))

def Kernel.awaited (k : Kernel) (i : Nat) : Ptr :=
  match (k.view i).waitObject with
  | .ptr m => m
  | _ => 0

theorem awaited_eq {k : Kernel} {m : Ptr} {i : Nat} (h : k.WaitsAt (mutexPlace m) i) :
    k.awaited i = m := by
  have hobject : (k.view i).waitObject = .ptr m := h.2.1
  simp only [Kernel.awaited, hobject]

section Owners

variable {c c' : Cfg} {a : Action} {o : Observation} {m : Ptr} {i : Nat}

/-- A task that comes to own a mutex acquires it in its lock call, or is the
waiter an unlock selects. -/
theorem owner_new (hstep : StepCases c a c' o) (hown : c'.kernel.Owns m i)
    (hnew : ¬c.kernel.Owns m i) :
    (∃ source timeout deadline r, a = .proceed source ∧ i = c.current
        ∧ c.pc c.current = .entered (.mutexLock m timeout deadline) r
        ∧ (c.kernel.mutexes m).locked = 0)
      ∨ (a = .call (.mutexUnlock m) ∧ c.kernel.FinalUnlock m
        ∧ c.kernel.selected (mutexPlace m) = some i) := by
  obtain ⟨next, hrecord⟩ := step_mutex hstep m
  rw [Kernel.Owns, hrecord] at hown
  change (a.onMutex c m (c.kernel.mutexes m)).locked ≠ 0
    ∧ (a.onMutex c m (c.kernel.mutexes m)).owner = i at hown
  cases a with
  | call made =>
      cases made with
      | mutexCreateRecursiveStatic b =>
          simp only [Action.onMutex, Call.onMutex] at hown
          split at hown
          · exact absurd rfl hown.1
          · exact absurd hown hnew
      | mutexUnlock b =>
          simp only [Action.onMutex, Call.onMutex] at hown
          split at hown
          · next hb =>
              subst hb
              change ((c.kernel.mutexes m).unlockedFor c.current
                  (c.kernel.selected (mutexPlace m))).locked ≠ 0
                ∧ ((c.kernel.mutexes m).unlockedFor c.current
                  (c.kernel.selected (mutexPlace m))).owner = i at hown
              unfold JrtMutex.unlockedFor at hown
              split at hown
              · exact absurd hown hnew
              · next howner =>
                  obtain ⟨hlocked, howner⟩ := not_or.mp howner
                  split at hown
                  · exact absurd hown hnew
                  · next hfinal =>
                      cases hselected : c.kernel.selected (mutexPlace m) with
                      | none =>
                          rw [hselected] at hown
                          exact absurd rfl hown.1
                      | some w =>
                          rw [hselected] at hown
                          obtain rfl : w = i := hown.2
                          exact Or.inr ⟨rfl, ⟨hlocked, not_not.mp howner, hfinal⟩, rfl⟩
          · exact absurd hown hnew
      | _ => exact absurd hown hnew
  | proceed source =>
      cases hpc : c.pc c.current with
      | entered w r =>
          cases w with
          | mutexLock b timeout deadline =>
              simp only [Action.onMutex, hpc] at hown
              split at hown
              · next hb =>
                  subst hb
                  unfold JrtMutex.lockedFor at hown
                  split at hown
                  · next hfree =>
                      exact Or.inl ⟨source, timeout, deadline, r, rfl, hown.2.symm, rfl, hfree⟩
                  · split at hown <;> exact absurd hown hnew
              · exact absurd hown hnew
          | _ =>
              simp only [Action.onMutex, hpc] at hown
              exact absurd hown hnew
      | _ =>
          simp only [Action.onMutex, hpc] at hown
          exact absurd hown hnew
  | _ => exact absurd hown hnew

/-- The program counter of a task that does not run a segment stays. -/
theorem StepCases.pc_other (hstep : StepCases c a c' o) (hi : i ≠ c.current) :
    c'.pc i = c.pc i := by
  cases hstep with
  | thread => exact Sched.after_pc_of_ne _ hi
  | _ => rfl

/-- The critical section of a lock that finds the mutex free returns. -/
theorem StepCases.lock_free {source : Nat → UInt8} {timeout : UInt32}
    {deadline : TaskWaitDeadline} {r : Bool} (hstep : StepCases c (.proceed source) c' o)
    (hpc : c.pc c.current = .entered (.mutexLock m timeout deadline) r)
    (hfree : (c.kernel.mutexes m).locked = 0) : c'.pc c.current = .user := by
  cases hstep with
  | thread _ _ hseg =>
      obtain rfl := Except.ok.inj (hseg.of_entered hpc)
      rw [Sched.after_pc_current]
      simp [jrtMutexLock, hfree, Segment.ofFlow, Segment.ret]

/-- A task that comes to own a mutex waits for nothing then, and is in no
critical section. -/
theorem new_owner_free (hs : Sched c) (hstep : StepCases c a c' o) (hi : i < c.kernel.taskCount)
    (hown : c'.kernel.Owns m i) (hnew : ¬c.kernel.Owns m i) :
    (∀ p, ¬c'.kernel.WaitsAt p i) ∧ ∀ w r, c'.pc i ≠ .entered w r := by
  rcases owner_new hstep hown hnew with
    ⟨source, timeout, deadline, r, rfl, rfl, hpc, hfree⟩ | ⟨rfl, hfinal, hselected⟩
  · have huser := hstep.lock_free hpc hfree
    refine ⟨fun p => not_waitsAt_of_user (hs.step hstep) (by rw [hstep.taskCount]; exact hi) huser,
      fun w r hentered => ?_⟩
    rw [huser] at hentered
    cases hentered
  · obtain ⟨hw, hon, -⟩ := wakeSelect_spec hselected
    obtain ⟨hpc, hpost, -⟩ := hstep.unlock
    have hic : i ≠ c.current := fun heq =>
      not_waitsAt_of_user hs hs.current_lt hpc (p := mutexPlace m) (heq ▸ hon)
    constructor
    · intro p hat
      have hview : c'.kernel.view i = (c.kernel.view i).ended 1 := by
        cases hstep.unlockStep hs with
        | kept hnot => exact absurd hfinal hnot
        | released _ hnone =>
            rw [hselected] at hnone
            cases hnone
        | handed _ hselected' hview =>
            obtain rfl := Option.some.inj (hselected'.symm.trans hselected)
            rw [hview, Function.update_self]
      rw [Kernel.WaitsAt, hview] at hat
      cases hat.1
    · intro w r hentered
      rw [hstep.pc_other hic] at hentered
      obtain ⟨call, hwithin | hwithin⟩ := hs.blocked i hi hon.1 <;> rw [hentered] at hwithin <;>
        cases hwithin

theorem createsMutex_eq (h : a.createsMutex m = true) :
    a = .call (.mutexCreateRecursiveStatic m) := by
  unfold Action.createsMutex at h
  split at h
  · rw [eq_of_beq h]
  · cases h

/-- The first segment of a lock call leads to its critical section, and that of
no other call does. -/
theorem enter_lock {k : Kernel} {call : Call} {s : Segment} {timeout : UInt32}
    {deadline : TaskWaitDeadline} {r : Bool} (h : enter k call = .ok s)
    (hpc : s.pc = .entered (.mutexLock m timeout deadline) r) :
    call = .mutexLock m timeout ∧ s.kernel = k := by
  cases call with
  | taskDelayUntil previousWake =>
      cases previousWake <;> obtain rfl := Except.ok.inj h <;> cases hpc
  | mutexCreateRecursiveStatic | timerCreateStatic | timerStart | timerStartPeriodic
  | timerRestart =>
      simp only [enter, exec_bind_eq_ok] at h
      obtain ⟨k', -, h⟩ := h
      obtain rfl := Except.ok.inj h
      cases hpc
  | taskNotify | eventGroupSetBits | timerSetCallback =>
      simp only [enter] at h
      split at h <;> obtain rfl := Except.ok.inj h <;> cases hpc
  | mutexLock b limit =>
      obtain rfl := Except.ok.inj h
      obtain ⟨hcall, -⟩ := Pc.entered.inj hpc
      obtain ⟨rfl, rfl, -⟩ := WaitCall.mutexLock.inj hcall
      exact ⟨rfl, rfl⟩
  | _ =>
      obtain rfl := Except.ok.inj h
      cases hpc

/-- A task ahead of the critical section of a lock was there before, or has
just made the call. -/
theorem StepCases.lock_entered {timeout : UInt32} {deadline : TaskWaitDeadline} {r : Bool}
    (hstep : StepCases c a c' o) (hpc : c'.pc i = .entered (.mutexLock m timeout deadline) r) :
    c.pc i = .entered (.mutexLock m timeout deadline) r
      ∨ (i = c.current ∧ a = .call (.mutexLock m timeout) ∧ c'.kernel = c.kernel) := by
  by_cases hic : i = c.current
  · subst hic
    cases hstep with
    | thread _ _ hseg =>
        rw [Sched.after_pc_current] at hpc
        cases hseg with
        | call _ _ hs =>
            obtain ⟨rfl, hkernel⟩ := enter_lock hs hpc
            exact Or.inr ⟨rfl, rfl, hkernel⟩
        | entered _ hs =>
            rcases proceedEntered_pc hs with huser | hyielding
            · rw [huser] at hpc
              cases hpc
            · rw [hyielding] at hpc
              cases hpc
        | resumed =>
            obtain rfl := proceedResumed_entered hpc
            cases hpc
        | _ => cases hpc
    | _ => exact Or.inl hpc
  · rw [hstep.pc_other hic] at hpc
    exact Or.inl hpc

/-- A task keeps a mutex it owns while it is in a critical section, unless
somebody creates the mutex anew. -/
theorem owns_kept (hs : Sched c) (hstep : StepCases c a c' o) {w : WaitCall} {r : Bool}
    (hpc : c.pc i = .entered w r) (hcreate : a.createsMutex m = false) (hown : c.kernel.Owns m i) :
    c'.kernel.Owns m i := by
  obtain ⟨hlocked, howner⟩ := hown
  have hleaves : ∀ {x : JrtMutex}, Transition.leaves m ⟨c, a, o, c'⟩ x → x.locked ≠ 0 →
      x.owner = i → c'.kernel.Owns m i := by
    rintro x ⟨next, hrecord⟩ hlocked' howner'
    rw [Kernel.Owns, hrecord]
    exact ⟨hlocked', howner'⟩
  have hnot : ¬Transition.unlocks m c.current ⟨c, a, o, c'⟩ = true ∨ i ≠ c.current := by
    refine or_iff_not_imp_right.mpr fun hic => ?_
    rw [not_not.mp hic] at hpc
    intro hunlocks
    by_cases hunlock : a = .call (.mutexUnlock m)
    · subst hunlock
      rw [hstep.unlock.1] at hpc
      cases hpc
    · rw [unlocks_eq_false hunlock] at hunlocks
      cases hunlocks
  cases mutexStep_of_step hs hstep hcreate with
  | kept hrecord => exact hleaves hrecord hlocked howner
  | acquired hfree => exact absurd hfree hlocked
  | reentered _ _ hrecord | unlockedOnce _ _ _ hrecord => exact hleaves hrecord hlocked howner
  | released _ hcur _ _ _ _ hunlocks | handed _ hcur _ _ _ _ _ hunlocks =>
      rcases hnot with hnot | hnot
      · exact absurd (by rw [hunlocks, beq_self_eq_true]) hnot
      · exact absurd (howner.symm.trans hcur) hnot

end Owners

/-! ## The order -/

section Order

variable {α : Type*} [Preorder α] (rank : Ptr → α)

/-- A task asks for a mutex only while everything it owns ranks below, or for
one it owns already, and nobody creates a locked mutex anew. -/
def Cfg.Ordered (c : Cfg) : Action → Prop
  | .call (.mutexLock m _) => ¬c.kernel.Owns m c.current →
      ∀ h, c.kernel.Owns h c.current → rank h < rank m
  | .call (.mutexCreateRecursiveStatic m) => (c.kernel.mutexes m).locked = 0
  | _ => True

/-- What the order makes of the tasks in a lock call and of the waiters. A call
is checked ahead of its critical section, and others run in between; so
`entered` carries the order to the section, where the task may come to wait. -/
structure LockOrdered (c : Cfg) : Prop where
  entered : ∀ i < c.kernel.taskCount, ∀ m timeout deadline r,
    c.pc i = .entered (.mutexLock m timeout deadline) r → ¬c.kernel.Owns m i →
    ∀ h, c.kernel.Owns h i → rank h < rank m
  waiting : ∀ i < c.kernel.taskCount, ∀ m, c.kernel.WaitsAt (mutexPlace m) i →
    ∀ h, c.kernel.Owns h i → rank h < rank m
  held : ∀ i < c.kernel.taskCount, ∀ m, c.kernel.WaitsAt (mutexPlace m) i →
    (c.kernel.mutexes m).locked ≠ 0 ∧ (c.kernel.mutexes m).owner ≠ i

variable {rank} {c c' : Cfg} {a : Action} {o : Observation}

/-- The mutex a task waits for is owned by another one. -/
theorem LockOrdered.held_step (h : LockOrdered rank c) (hs : Sched c) (hstep : StepCases c a c' o)
    (hordered : c.Ordered rank a) {i : Nat} (hi : i < c.kernel.taskCount) {m : Ptr}
    (hon : c'.kernel.WaitsAt (mutexPlace m) i) :
    (c'.kernel.mutexes m).locked ≠ 0 ∧ (c'.kernel.mutexes m).owner ≠ i := by
  have hleaves : ∀ {x : JrtMutex}, Transition.leaves m ⟨c, a, o, c'⟩ x →
      (x.locked ≠ 0 ∧ x.owner ≠ i) →
      (c'.kernel.mutexes m).locked ≠ 0 ∧ (c'.kernel.mutexes m).owner ≠ i := by
    rintro x ⟨next, hrecord⟩ hx
    rw [hrecord]
    exact hx
  by_cases hcreate : a.createsMutex m = true
  · -- A creation leaves the waits alone, and nobody waits for an unlocked mutex.
    exfalso
    obtain rfl := createsMutex_eq hcreate
    rcases hstep.waitsAt hs hon with hold | ⟨_, _, _, ha, -⟩
    · exact (h.held i hi m hold).1 hordered
    · cases ha
  cases mutexStep_of_step hs hstep (Bool.eq_false_iff.mpr hcreate) with
  | kept hrecord _ _ hwaits =>
      rcases hwaits i hon with hold | hnew
      · exact hleaves hrecord (h.held i hi m hold)
      · exact hleaves hrecord hnew
  | acquired hfree _ _ _ hwaits => exact absurd hfree (h.held i hi m (hwaits i hon)).1
  | reentered _ _ hrecord _ _ hwaits | unlockedOnce _ _ _ hrecord _ _ hwaits =>
      exact hleaves hrecord (h.held i hi m (hwaits i hon))
  | released _ _ _ hnobody _ _ _ hwaits => exact absurd ⟨i, hi, hwaits i hon⟩ hnobody
  | @handed w _ _ _ _ _ hrecord _ _ hview =>
      refine hleaves hrecord ⟨by simp [JrtMutex.lockedBy], fun heq : w = i => ?_⟩
      have hstate := hon.1
      rw [hview, heq, Function.update_self] at hstate
      cases hstate

/-- A step of an application that keeps to the order. -/
theorem LockOrdered.step (h : LockOrdered rank c) (hs : Sched c) (hstep : StepCases c a c' o)
    (hordered : c.Ordered rank a) : LockOrdered rank c' := by
  have hn := hstep.taskCount
  refine ⟨fun i hi m timeout deadline r hpc hnot b hown => ?_, fun i hi m hon b hown => ?_,
    fun i hi m hon => h.held_step hs hstep hordered (hn ▸ hi) hon⟩
  · rw [hn] at hi
    have hold : c.kernel.Owns b i := by
      by_contra hnew
      exact (new_owner_free hs hstep hi hown hnew).2 _ _ hpc
    rcases hstep.lock_entered hpc with hbefore | ⟨rfl, rfl, hkernel⟩
    · refine h.entered i hi m timeout deadline r hbefore (fun hown' => ?_) b hold
      by_cases hcreate : a.createsMutex m = true
      · obtain rfl := createsMutex_eq hcreate
        exact hown'.1 hordered
      · exact hnot (owns_kept hs hstep hbefore (Bool.eq_false_iff.mpr hcreate) hown')
    · rw [hkernel] at hnot
      exact hordered hnot b hold
  · rw [hn] at hi
    have hold : c.kernel.Owns b i := by
      by_contra hnew
      exact (new_owner_free hs hstep hi hown hnew).1 _ hon
    rcases hstep.waitsAt hs hon with hwaits | ⟨source, w, r, rfl, rfl, hpc, hat⟩
    · exact h.waiting i hi m hwaits b hold
    · obtain ⟨timeout, deadline, rfl⟩ := waitsAt_mutexPlace_iff.mp hat
      refine h.entered _ hi m timeout deadline r hpc (fun hown' => ?_) b hold
      have hkept := owns_kept hs hstep hpc rfl hown'
      exact (h.held_step hs hstep hordered hi hon).2 hkept.2

/-- Nobody is in a lock call behind `JRT_KernelInit`. -/
theorem LockOrdered.boot {img : Image} (hboot : Boot img c) : LockOrdered rank c := by
  have hs : Sched c := Reachable.sched ⟨c, [], hboot, .nil⟩
  have hunused : ∀ m, c.Unused (mutexPlace m) := fun m =>
    Cfg.Unused.boot hboot (show TaskWaitKind.mutex ≠ .timerService by decide)
  refine ⟨fun i _ m timeout deadline r hpc => ?_, fun i hi m hon => ?_, fun i hi m hon => ?_⟩
  · have hcall : (c.pc i).waitCall = some (.mutexLock m timeout deadline) := by rw [hpc]; rfl
    have hat := hunused m i _ hcall
    rw [waitsAt_mutexPlace_iff.mpr ⟨timeout, deadline, rfl⟩] at hat
    cases hat
  · exact absurd ⟨i, hi, hon⟩ ((hunused m).not_waited hs)
  · exact absurd ⟨i, hi, hon⟩ ((hunused m).not_waited hs)

/-- Every state of an application that keeps to the order. -/
theorem Run.lockOrdered {img : Image} {c₀ : Cfg} {tr : List Transition} (hboot : Boot img c₀)
    (hrun : Run c₀ tr c) (hordered : ∀ x ∈ tr, x.pre.Ordered rank x.action) :
    Sched c ∧ LockOrdered rank c := by
  induction hrun with
  | nil => exact ⟨Reachable.sched ⟨c₀, [], hboot, .nil⟩, .boot hboot⟩
  | snoc _ hstep ih =>
      simp only [List.forall_mem_append, List.forall_mem_singleton] at hordered
      obtain ⟨hs, h⟩ := ih hordered.1
      have hcases := step_cases hstep
      exact ⟨hs.step hcases, h.step hs hcases hordered.2⟩

theorem LockOrdered.ranked (h : LockOrdered rank c) (hs : Sched c) :
    Ranked c.kernel.WaitsFor fun i => rank (c.kernel.awaited i) := by
  intro u t v hut htv
  obtain ⟨-, -, m, -, hon, hlocked, howner⟩ := (waitsFor_iff hs).mp hut
  obtain ⟨ht, -, n, -, hon', -⟩ := (waitsFor_iff hs).mp htv
  change rank (c.kernel.awaited u) < rank (c.kernel.awaited t)
  rw [awaited_eq hon, awaited_eq hon']
  exact h.waiting t ht n hon' m ⟨hlocked, howner⟩

/-- A chain of waits ends in a task that waits for no other one. -/
theorem LockOrdered.exists_end (h : LockOrdered rank c) (hs : Sched c) {u : Nat}
    (hu : u < c.kernel.taskCount) :
    ∃ e < c.kernel.taskCount, ReflTransGen c.kernel.WaitsFor u e ∧ ∀ t, ¬c.kernel.WaitsFor e t := by
  obtain ⟨e, hpath, hend⟩ := Inheritance.exists_end c.kernel.table_finite
    (fun _ _ hwaits _ => hwaits.2.1) (h.ranked hs).acyclic hu
  refine ⟨e, ?_, hpath, hend⟩
  rcases hpath.cases_tail with rfl | ⟨t, -, hlast⟩
  · exact hu
  · exact hlast.2.1

end Order

/-! ## Priorities under the order -/

section Priorities

variable {α : Type*} [Preorder α] {rank : Ptr → α} {c c₀ : Cfg} {a : Action}
  {tr : List Transition} {img : Image}

/-- A lock that finds the mutex with another task, and may wait, does wait: its
deadline is not over by its critical section. -/
def Cfg.Punctual (c : Cfg) : Action → Prop
  | .proceed _ => ∀ m timeout deadline r,
      c.pc c.current = .entered (.mutexLock m timeout deadline) r →
      (c.kernel.mutexes m).locked ≠ 0 → (c.kernel.mutexes m).owner ≠ c.current → timeout ≠ 0 →
      m ≠ 0 ∧ ¬deadline.Expired c.kernel.gKernelTicks
  | _ => True

/-- Under the order base priorities account for every step that is punctual:
there are no cycles of waits, and nobody waits for a free mutex. -/
theorem LockOrdered.accounts (h : LockOrdered rank c) (hs : Sched c) (hordered : c.Ordered rank a)
    (hpunctual : c.Punctual a) : c.Accounts a := by
  cases a with
  | tick =>
      intro i _ hcycle
      exact absurd (TransGen.mono (fun _ _ hwaits => hwaits.1) _ _ hcycle)
        ((h.ranked hs).acyclic i)
  | call made =>
      cases made with
      | mutexCreateRecursiveStatic m => exact fun hlocked => absurd hordered hlocked
      | _ => trivial
  | proceed source =>
      intro m timeout deadline r hpc
      constructor
      · intro hfree _ u hu hon
        exact absurd hfree (h.held u hu m hon).1
      · intro hlocked howner htimeout hwhy
        obtain ⟨hm, hlive⟩ := hpunctual m timeout deadline r hpc hlocked howner htimeout
        exact absurd hwhy (not_or.mpr ⟨hm, hlive⟩)
  | _ => trivial

/-- A run that keeps to the order and is punctual leaves the priorities balanced
behind every step. -/
theorem Run.ordered_balanced (hboot : Boot img c₀) (hrun : Run c₀ tr c)
    (hordered : ∀ x ∈ tr, x.pre.Ordered rank x.action)
    (hpunctual : ∀ x ∈ tr, x.pre.Punctual x.action) : c.kernel.Balanced := by
  induction hrun with
  | nil => exact hboot.balanced
  | snoc hrun hstep ih =>
      simp only [List.forall_mem_append, List.forall_mem_singleton] at hordered hpunctual
      obtain ⟨hs, h⟩ := hrun.lockOrdered hboot hordered.1
      have haccounts := h.accounts hs hordered.2 hpunctual.2
      exact ((step_cases hstep).balanced_iff hs (ih hordered.1 hpunctual.1)).mpr haccounts

end Priorities

/-! ## Sample runs -/

/-- No mutex outside of the list is locked, or being locked. -/
structure Cfg.LocksIn (c : Cfg) (l : List Ptr) : Prop where
  locked : ∀ m, (c.kernel.mutexes m).locked ≠ 0 → m ∈ l
  entered : ∀ i m timeout deadline r, c.pc i = .entered (.mutexLock m timeout deadline) r → m ∈ l

section LocksIn

variable {c c' : Cfg} {a : Action} {o : Observation} {l : List Ptr}

theorem Cfg.LocksIn.step (h : c.LocksIn l) (hstep : StepCases c a c' o)
    (hcall : ∀ m timeout, a = .call (.mutexLock m timeout) → m ∈ l) : c'.LocksIn l := by
  constructor
  · intro m hlocked
    by_cases hown : c.kernel.Owns m (c'.kernel.mutexes m).owner
    · exact h.locked m hown.1
    · rcases owner_new hstep ⟨hlocked, rfl⟩ hown with
        ⟨_, timeout, deadline, r, -, -, hpc, -⟩ | ⟨-, hfinal, -⟩
      · exact h.entered _ m timeout deadline r hpc
      · exact h.locked m hfinal.locked
  · intro i m timeout deadline r hpc
    rcases hstep.lock_entered hpc with hbefore | ⟨-, rfl, -⟩
    · exact h.entered i m timeout deadline r hbefore
    · exact hcall m timeout rfl

/-- A test that is enough for `Cfg.Ordered` by address where only the mutexes of
the list are locked. -/
def Cfg.orderedTest (c : Cfg) (l : List Ptr) : Action → Bool
  | .call (.mutexLock m _) => l.contains m && l.all fun h =>
      decide (c.kernel.Owns h c.current → h.toNat < m.toNat)
  | .call (.mutexCreateRecursiveStatic m) => (c.kernel.mutexes m).locked == 0
  | _ => true

theorem ordered_of_orderedTest (h : c.LocksIn l) (htest : c.orderedTest l a = true) :
    c.Ordered UInt32.toNat a ∧ ∀ m timeout, a = .call (.mutexLock m timeout) → m ∈ l := by
  cases a with
  | call made =>
      cases made with
      | mutexLock m timeout =>
          simp only [Cfg.orderedTest, Bool.and_eq_true, List.contains_iff_mem, List.all_eq_true,
            decide_eq_true_eq] at htest
          refine ⟨fun _ b hown => htest.2 b (h.locked b hown.1) hown, fun m' _ ha => ?_⟩
          cases ha
          exact htest.1
      | mutexCreateRecursiveStatic m =>
          exact ⟨eq_of_beq htest, by simp⟩
      | _ => exact ⟨trivial, by simp⟩
  | _ => exact ⟨trivial, by simp⟩

theorem Run.ordered_of_test {tr : List Transition} (hrun : Run c tr c') (h : c.LocksIn l)
    (htest : ∀ x ∈ tr, x.pre.orderedTest l x.action = true) :
    c'.LocksIn l ∧ ∀ x ∈ tr, x.pre.Ordered UInt32.toNat x.action := by
  induction hrun with
  | nil => exact ⟨h, by simp⟩
  | snoc _ hstep ih =>
      simp only [List.forall_mem_append, List.forall_mem_singleton] at htest ⊢
      obtain ⟨hbefore, hordered⟩ := ih htest.1
      obtain ⟨hlast, hcall⟩ := ordered_of_orderedTest hbefore htest.2
      exact ⟨hbefore.step (step_cases hstep) hcall, hordered, hlast⟩

end LocksIn

/-- A test that is enough for `Cfg.Punctual`. -/
def Cfg.punctualTest (c : Cfg) : Action → Bool
  | .proceed _ =>
      match c.pc c.current with
      | .entered (.mutexLock m _ deadline) _ => (c.kernel.mutexes m).locked == 0
          || m != 0 && decide ¬deadline.Expired c.kernel.gKernelTicks
      | _ => true
  | _ => true

theorem punctual_of_test {c : Cfg} {a : Action} (h : c.punctualTest a = true) : c.Punctual a := by
  cases a with
  | proceed source =>
      intro m timeout deadline r hpc hlocked _ _
      simp only [Cfg.punctualTest, hpc, Bool.or_eq_true, beq_iff_eq, Bool.and_eq_true, bne_iff_ne,
        decide_eq_true_eq] at h
      exact h.resolve_left hlocked
  | _ => trivial

/-- Behind the initialisation of zeroed memory no mutex is locked. -/
theorem sampleBoot_locksIn {priorities : List Nat} {c : Cfg} {l : List Ptr}
    (h : sampleBoot priorities = some c) : c.LocksIn l := by
  unfold sampleBoot at h
  split at h
  · next k hinit =>
      cases h
      have hmutexes : k.mutexes = (Kernel.zero 0).mutexes := (jrtKernelInit_booted hinit).heap.2.2.1
      constructor
      · intro m hlocked
        change (k.mutexes m).locked ≠ 0 at hlocked
        rw [hmutexes] at hlocked
        exact absurd rfl hlocked
      · intro i m timeout deadline r hpc
        change initialPc k i = _ at hpc
        unfold initialPc at hpc
        split at hpc
        · cases hpc
        · split at hpc <;> cases hpc
  · cases h

/-- The weakest of three tasks locks a mutex, the second one another and then
waits for that one, and the strongest waits for the second. -/
def chainActions : List Action :=
  [.start, .call (.mutexCreateRecursiveStatic 16), .call (.mutexCreateRecursiveStatic 32),
    .call (.taskDelay 2), .pendsv (sampleSp 0), .call (.taskDelay 1), .pendsv (sampleSp 1),
    .call (.mutexLock 32 0), .proceed fun _ => 0, .tick, .pendsv (sampleSp 2),
    .call (.mutexLock 16 0), .proceed fun _ => 0, .call (.mutexLock 32 jrtWaitForever),
    .proceed fun _ => 0, .proceed fun _ => 0, .pendsv (sampleSp 1), .tick, .pendsv (sampleSp 2),
    .call (.mutexLock 16 jrtWaitForever), .proceed fun _ => 0, .proceed fun _ => 0,
    .pendsv (sampleSp 0)]

theorem chainActions_ordered : ∃ c₀ tr c, sampleRun [3, 2, 1] chainActions = some (tr, c)
    ∧ Boot .sample c₀ ∧ Run c₀ tr c ∧ (∀ x ∈ tr, x.pre.Ordered UInt32.toNat x.action)
    ∧ (∀ x ∈ tr, x.pre.Punctual x.action) ∧ (∀ x ∈ tr, x.post.Preemptive)
    ∧ c.threadRuns = true ∧ c.current = 2 ∧ (c.kernel.view c.current).state = .running
    ∧ c.pc c.current = .user ∧ c.kernel.WaitsFor 0 1 ∧ c.kernel.WaitsFor 1 2 := by
  have hsome : ((sampleRun [3, 2, 1] chainActions).any fun r =>
      (r.1.all fun x => x.pre.orderedTest [16, 32] x.action && x.pre.punctualTest x.action
        && (!x.post.threadRuns || decide (x.post.kernel.Tops x.post.current)))
      && decide (r.2.threadRuns = true ∧ r.2.current = 2
        ∧ (r.2.kernel.view r.2.current).state = .running ∧ r.2.pc r.2.current = .user
        ∧ r.2.kernel.WaitsFor 0 1 ∧ r.2.kernel.WaitsFor 1 2)) = true := by
    decide +kernel
  obtain ⟨⟨tr, c⟩, hsample, hchecks⟩ := (Option.any_eq_true _ _).mp hsome
  simp only [Bool.and_eq_true, List.all_eq_true, Bool.or_eq_true, Bool.not_eq_true',
    decide_eq_true_eq] at hchecks
  obtain ⟨htests, hlast⟩ := hchecks
  obtain ⟨c₀, hboot, hrun⟩ := sampleRun_run hsample
  have hordered := hrun.ordered_of_test (sampleBoot_locksIn hboot) fun x hx => (htests x hx).1.1
  exact ⟨c₀, tr, c, hsample, sampleBoot_boot hboot, hrun, hordered.2,
    fun x hx => punctual_of_test (htests x hx).1.2,
    fun x hx hthread _ _ => (htests x hx).2.resolve_left (by simp [hthread]), hlast⟩

/-! ## Main results -/

/-- Tasks that ask for mutexes in an order never deadlock on them: over every
run no cycle of waits comes up, and behind every task that waits for another
one stands, at the end of the chain, a task that waits for none. -/
theorem lock_order_prevents_deadlock {α : Type*} [Preorder α] (rank : Ptr → α) (img : Image)
    (c₀ c : Cfg) (tr : List Transition) (hboot : Boot img c₀) (hrun : Run c₀ tr c)
    (hordered : ∀ x ∈ tr, x.pre.Ordered rank x.action) :
    (∀ i, ¬TransGen c.kernel.WaitsFor i i)
      ∧ (∀ i < c.kernel.taskCount, ∀ m, c.kernel.WaitsAt (mutexPlace m) i →
        (c.kernel.mutexes m).locked ≠ 0 ∧ (c.kernel.mutexes m).owner ≠ i)
      ∧ ∀ u t, c.kernel.WaitsFor u t →
        ∃ e < c.kernel.taskCount, TransGen c.kernel.WaitsFor u e ∧ ∀ v, ¬c.kernel.WaitsFor e v := by
  obtain ⟨hs, h⟩ := hrun.lockOrdered hboot hordered
  refine ⟨(h.ranked hs).acyclic, h.held, fun u t hwaits => ?_⟩
  obtain ⟨e, he, hpath, hend⟩ := h.exists_end hs hwaits.2.1
  exact ⟨e, he, .head' hwaits hpath, hend⟩

theorem lock_order_prevents_deadlock_sample : ∃ c₀ tr c, Run c₀ tr c
    ∧ (∀ x ∈ tr, x.pre.Ordered UInt32.toNat x.action) ∧ c.kernel.WaitsFor 0 1
    ∧ (∀ i, ¬TransGen c.kernel.WaitsFor i i)
    ∧ ∃ e < c.kernel.taskCount, TransGen c.kernel.WaitsFor 0 e ∧ ∀ v, ¬c.kernel.WaitsFor e v := by
  obtain ⟨c₀, tr, c, -, hboot, hrun, hordered, -, -, -, -, -, -, hwaits, -⟩ := chainActions_ordered
  obtain ⟨hacyclic, -, hend⟩ :=
    lock_order_prevents_deadlock UInt32.toNat .sample c₀ c tr hboot hrun hordered
  exact ⟨c₀, tr, c, hrun, hordered, hwaits, hacyclic, hend 0 1 hwaits⟩

/-- Over every run that keeps to an order of the mutexes, locks punctually and
is orderly, no task waits behind a weaker one: at the end of the chain of every
task stands one of at least its priority that waits for no other, and while
task code executes and that one is ready to run, the running task is at least
as strong as the first. -/
theorem lock_order_bounds_inversion {α : Type*} [Preorder α] (rank : Ptr → α) (img : Image)
    (c₀ c : Cfg) (tr : List Transition) (hboot : Boot img c₀) (hrun : Run c₀ tr c)
    (hordered : ∀ x ∈ tr, x.pre.Ordered rank x.action)
    (hpunctual : ∀ x ∈ tr, x.pre.Punctual x.action)
    (horderly : ∀ x ∈ tr, x.pre.Orderly x.action) :
    c.kernel.Balanced ∧ ∀ u < c.kernel.taskCount, ∃ e < c.kernel.taskCount,
      ReflTransGen c.kernel.WaitsFor u e ∧ (∀ t, ¬c.kernel.WaitsFor e t)
        ∧ c.kernel.basePrio u ≤ c.kernel.prio e ∧ c.kernel.prio u ≤ c.kernel.prio e
        ∧ (c.threadRuns = true → (c.kernel.view c.current).state = .running →
          (∀ r, c.pc c.current ≠ .requestSwitch r) →
          (c.kernel.view e).state = .ready ∨ (c.kernel.view e).state = .running →
          c.kernel.prio u ≤ c.kernel.prio c.current) := by
  obtain ⟨hs, h⟩ := hrun.lockOrdered hboot hordered
  have hbalanced := hrun.ordered_balanced hboot hordered hpunctual
  obtain ⟨hiff, hlast⟩ := hrun.preemptive_iff hboot
  have hpreemptive : c.Preemptive := hlast (hiff.mp horderly)
  refine ⟨hbalanced, fun u hu => ?_⟩
  obtain ⟨e, he, hpath, hend⟩ := h.exists_end hs hu
  have hle : c.kernel.prio u ≤ c.kernel.prio e := (hbalanced e he).le (hbalanced u hu) hpath
  refine ⟨e, he, hpath, hend, (hbalanced e he).base_le hpath, hle, ?_⟩
  intro hthread hrunning hpc hstate
  rcases hstate with hready | hrun
  · exact hle.trans (hpreemptive hthread hrunning hpc e he hready)
  · rw [← hs.running e he hrun]
    exact hle

theorem lock_order_bounds_inversion_sample : ∃ c₀ tr c, Run c₀ tr c
    ∧ (∀ x ∈ tr, x.pre.Orderly x.action) ∧ c.current = 2 ∧ c.kernel.WaitsFor 0 1
    ∧ c.kernel.WaitsFor 1 2 ∧ c.kernel.Balanced ∧ c.kernel.prio 0 ≤ c.kernel.prio c.current := by
  obtain ⟨c₀, tr, c, -, hboot, hrun, hordered, hpunctual, hpreemptive, hthread, hcurrent, hrunning,
    hpc, hfirst, hsecond⟩ := chainActions_ordered
  have horderly := (hrun.preemptive_iff hboot).1.mpr hpreemptive
  obtain ⟨hbalanced, hinversion⟩ := lock_order_bounds_inversion UInt32.toNat .sample c₀ c tr hboot
    hrun hordered hpunctual horderly
  refine ⟨c₀, tr, c, hrun, horderly, hcurrent, hfirst, hsecond, hbalanced, ?_⟩
  obtain ⟨e, -, hpath, hend, -, -, hle⟩ := hinversion 0 hfirst.1
  -- The chain of the first task ends in the running one.
  have hlast : e = c.current := by
    rcases hpath.cases_head with rfl | ⟨t, hstep, hrest⟩
    · exact absurd hfirst (hend 1)
    obtain rfl := hstep.unique hfirst
    rcases hrest.cases_head with rfl | ⟨t, hstep, hrest⟩
    · exact absurd hsecond (hend 2)
    obtain rfl := hstep.unique hsecond
    rcases hrest.cases_head with rfl | ⟨t, hstep, -⟩
    · exact hcurrent.symm
    · exfalso
      refine not_waitsFor_of_state ?_ hstep
      rw [← hcurrent, hrunning]
      decide
  refine hle hthread hrunning (fun r hr => ?_) (Or.inr (hlast ▸ hrunning))
  rw [hpc] at hr
  cases hr

end JustRT
