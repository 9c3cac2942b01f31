import JustRT.Discipline

/-!
# Corrupted lists

What a tick does with lists whose links were overwritten. The checker
behind the tick always comes to its end: its tortoise and hare meet on any
list that does not end. The walk of `kernel_timer_tick` over the timers
comes first and has no such guard, so a corrupted timer list is never
diagnosed: the tick does not get that far.
-/

namespace JustRT

open Chain

/-! ## The walks over a list without an end -/

/-- The walkers of the cycle check are behind `i` of their steps. -/
theorem listCycleLoop_meets {next : Ptr → Ptr} {a : Ptr} {m fuel i : Nat}
    (hmeet : next^[m] a = next^[2 * m] a) (hi : i < m) (hm : m ≤ i + fuel) :
    ∃ r, listCycleLoop next fuel (next^[i] a) (next^[2 * i] a) = .ok r := by
  induction fuel generalizing i with
  | zero => omega
  | succ fuel ih =>
      unfold listCycleLoop
      split
      · exact ⟨none, rfl⟩
      · have hslow : next (next^[i] a) = next^[i + 1] a := (Function.iterate_succ_apply' ..).symm
        have hfast : next (next (next^[2 * i] a)) = next^[2 * (i + 1)] a := by
          rw [Nat.mul_add, Function.iterate_succ_apply', Function.iterate_succ_apply']
        simp only [hslow, hfast]
        split
        · exact ⟨_, rfl⟩
        · next hapart =>
            have hlater : i + 1 ≠ m := fun heq => hapart (heq ▸ hmeet)
            exact ih (by omega) (by omega)

/-- The cycle check comes to its end, on any list. -/
theorem listCycleLoop_ends (next : Ptr → Ptr) (a : Ptr) :
    ∃ r, listCycleLoop next addressSpace a a = .ok r := by
  obtain ⟨m, hpos, hm, hmeet⟩ := exists_meeting UInt32.toFin
    (fun x y hxy => UInt32.toFin_inj.mp hxy) next a
  exact listCycleLoop_meets (i := 0) hmeet hpos (by simpa [addressSpace, UInt32.size] using hm)

/-- The check of a list comes to its end. It names a cycle if the list has
no end, and nothing if the list ends and its records pass. -/
theorem listInvariantCheck_ends (next : Ptr → Ptr) (check : Ptr → JrtKernelInvariantCode)
    (cycle : JrtKernelInvariantCode) (head : Ptr) :
    ∃ code object, listInvariantCheck next check cycle head = .ok (code, object)
      ∧ ((¬∃ l, Linked 0 next head l) → code = cycle) := by
  obtain ⟨meeting, hloop⟩ := listCycleLoop_ends next head
  cases meeting with
  | some b => exact ⟨cycle, b, exec_bind_eq_ok.mpr ⟨some b, hloop, rfl⟩, fun _ => rfl⟩
  | none =>
      obtain ⟨l, hl⟩ := linked_of_listCycleLoop hloop
      obtain ⟨⟨code, object⟩, hcheck⟩ : ∃ r, listCheckLoop next check addressSpace head = .ok r :=
        ⟨_, listCheckLoop_eq hl (length_lt_addressSpace hl)⟩
      refine ⟨code, object, exec_bind_eq_ok.mpr ⟨none, hloop, hcheck⟩, fun hnone => ?_⟩
      exact absurd ⟨l, hl⟩ hnone

/-- The walk of `kernel_timer_tick` comes to its end only on a list that
has one ... -/
theorem linked_of_timerTickLoop {now : UInt32} {fuel : Nat} {a : Ptr} {k k' : Kernel}
    (h : timerTickLoop now fuel a k = .ok k') :
    ∃ l, Linked 0 (fun b => (k.timers b).next) a l := by
  induction fuel generalizing a k with
  | zero => cases h
  | succ fuel ih =>
      unfold timerTickLoop at h
      split at h
      · next hnull => exact ⟨[], hnull ▸ .nil⟩
      · next hne =>
          obtain ⟨l, hl⟩ := ih h
          have hnext : ((timerTickStep now k a).timers a).next = (k.timers a).next :=
            congrFun (timerTickStep_next now k a) a
          rw [timerTickStep_next, hnext] at hl
          exact ⟨a :: l, .cons hne hl⟩

/-- ... and on any other it goes on, however many links it may follow. -/
theorem timerTickLoop_hangs {now : UInt32} {a : Ptr} {k : Kernel}
    (h : ¬∃ l, Linked 0 (fun b => (k.timers b).next) a l) (fuel : Nat) :
    timerTickLoop now fuel a k = .error .hang := by
  cases hloop : timerTickLoop now fuel a k with
  | ok k' => exact absurd (linked_of_timerTickLoop hloop) h
  | error e =>
      congr 1
      clear h
      induction fuel generalizing a k with
      | zero => exact (Except.error.inj hloop).symm
      | succ fuel ih =>
          unfold timerTickLoop at hloop
          split at hloop
          · cases hloop
          · exact ih hloop

/-! ## A tick -/

/-- The tick comes to its end: it is completed, or the kernel halts. -/
def Ends {α : Type} (e : Exec α) : Prop := e ≠ .error .hang

/-- The kernel halts with the invariant code recorded. -/
def HaltsWith {α : Type} (code : JrtKernelInvariantCode) (e : Exec α) : Prop :=
  ∃ k, e = .error (.fatal .kernelInvariant k) ∧ k.diag.gKernelInvariantActive = true
    ∧ k.diag.gKernelInvariantCode = code

/-- The mutex list has no end, and nothing else is wrong. -/
structure Kernel.OnlyMutexCycle (k : Kernel) : Prop where
  tasks : ∀ i < k.taskCount, (k.view i).Consistent
  cyclic : ¬∃ l, Mutexes k l
  timers : ∃ l, Timers k l ∧ l.Nodup ∧ ∀ t ∈ l, (k.timers t).Consistent

/-- The timer list has no end, and nothing else is wrong. -/
structure Kernel.OnlyTimerCycle (k : Kernel) : Prop where
  tasks : ∀ i < k.taskCount, (k.view i).Consistent
  mutexes : ∃ l, Mutexes k l ∧ l.Nodup ∧ ∀ m ∈ l, (k.mutexes m).Sound k.taskCount
  cyclic : ¬∃ l, Timers k l

/-- A tick on the kernel `k` comes to its end, and names a corrupted list. -/
structure Diagnosed (k : Kernel) : Prop where
  ends : Ends (tickTasks k)
  mutexCycle : k.OnlyMutexCycle → HaltsWith .mutexListCycle (tickTasks k)
  timerCycle : k.OnlyTimerCycle → HaltsWith .timerListCycle (tickTasks k)

section Exec

variable {α β : Type} {e : Exec α} {f : α → Exec β}

theorem Ends.bind (he : Ends e) (hf : ∀ a, e = .ok a → Ends (f a)) : Ends (e >>= f) := by
  cases e with
  | ok a => exact hf a rfl
  | error halt => exact fun h => he (congrArg Except.error (Except.error.inj h))

theorem HaltsWith.bind {code : JrtKernelInvariantCode} (he : HaltsWith code e) :
    HaltsWith code (e >>= f) := by
  obtain ⟨k, rfl, hcode⟩ := he
  exact ⟨k, rfl, hcode⟩

theorem ends_forM {l : List α} {g : α → Exec Unit} (h : ∀ a, Ends (g a)) : Ends (l.forM g) := by
  induction l with
  | nil => exact fun hnil => nomatch hnil
  | cons a l ih => exact (h a).bind fun _ _ => ih

end Exec

section Tick

variable {k k' : Kernel}

theorem checkTask_ends (k : Kernel) (index : Nat) : Ends (checkTask k index) := by
  simp only [checkTask, TaskState.toWord_le, TaskWaitKind.toWord_le, if_false, or_false]
  split
  · split
    · intro h
      cases h
    · split <;> intro h <;> cases h
  · split <;> intro h <;> cases h

/-- The checker comes to its end, whatever the lists hold. -/
theorem kernelCheckInvariantsLocked_ends (k : Kernel) : Ends (kernelCheckInvariantsLocked k) := by
  refine (ends_forM (checkTask_ends k)).bind fun _ _ => ?_
  obtain ⟨code, object, hsync, -⟩ := listInvariantCheck_ends (fun a => (k.mutexes a).next)
    (fun a => mutexCheck k.taskCount (k.mutexes a)) .mutexListCycle k.mutexList
  obtain ⟨code', object', htimer, -⟩ := listInvariantCheck_ends (fun a => (k.timers a).next)
    (fun a => timerCheck (k.timers a)) .timerListCycle k.timerList
  rw [syncInvariantCheck_eq, timerInvariantCheck_eq, hsync, htimer]
  by_cases hcode : code = .none
  · by_cases hcode' : code' = .none
    · subst hcode hcode'
      exact fun h => nomatch h
    · subst hcode
      simp only [bind, Except.bind, ne_eq, not_true_eq_false, if_false, hcode', not_false_eq_true,
        if_true]
      exact fun h => nomatch h
  · simp only [bind, Except.bind, ne_eq, hcode, not_false_eq_true, if_true]
    exact fun h => nomatch h

/-- Behind consistent task records the checker names a mutex list without
an end. -/
theorem kernelCheckInvariantsLocked_mutexCycle (htasks : ∀ i < k.taskCount, (k.view i).Consistent)
    (hcyclic : ¬∃ l, Mutexes k l) :
    HaltsWith .mutexListCycle (kernelCheckInvariantsLocked k) := by
  have hforM : (List.range k.taskCount).forM (checkTask k) = .ok () :=
    forM_eq_ok_iff.mpr fun i hi => (checkTask_eq_ok_iff k i).mpr (htasks i (List.mem_range.mp hi))
  obtain ⟨code, object, hsync, hcode⟩ := listInvariantCheck_ends (fun a => (k.mutexes a).next)
    (fun a => mutexCheck k.taskCount (k.mutexes a)) .mutexListCycle k.mutexList
  obtain rfl := hcode hcyclic
  rw [kernelCheckInvariantsLocked, hforM, syncInvariantCheck_eq, hsync]
  exact ⟨_, rfl, rfl, rfl⟩

/-- On a timer list without an end the tick never gets to its checks. -/
theorem tickTasks_hangs (hl : ¬∃ l, Timers k l) : tickTasks k = .error .hang := by
  have hloop : kernelTimerTick (advanceTicks k) = .error .hang := timerTickLoop_hangs (k := advanceTicks k) hl _
  rw [tickTasks, tickTasksBody, hloop]
  rfl

/-- With a timer list that ends, a tick diagnoses whatever else is wrong. -/
theorem diagnosed_of_timers (hl : ∃ l, Timers k l) : Diagnosed k := by
  obtain ⟨l, hlist⟩ := hl
  obtain ⟨k', hbody⟩ := tickTasksBody_ok hlist
  have hframe := tickTasksBody_frame hbody
  simp only [TickFrame] at hframe
  have htick : tickTasks k = (kernelCheckInvariantsLocked k' >>= fun _ => pure k') := by
    rw [tickTasks, hbody]
    rfl
  refine ⟨?_, fun h => ?_, fun h => absurd ⟨l, hlist⟩ h.cyclic⟩
  · rw [htick]
    refine (kernelCheckInvariantsLocked_ends k').bind fun _ _ hret => ?_
    cases hret
  · rw [htick]
    refine (kernelCheckInvariantsLocked_mutexCycle (fun i hi => ?_) ?_).bind
    · exact (h.tasks i (hframe.1 ▸ hi)).woken (tickTasksBody_wakes hbody i)
    · rintro ⟨l, hl'⟩
      rw [Mutexes, hframe.2.2.2.2.2.2.2.2.2.1, hframe.2.2.2.2.2.2.2.2.2.2.1] at hl'
      exact h.cyclic ⟨l, hl'⟩

end Tick

/-! ## When a tick diagnoses its lists -/

/-- A tick comes to its end, and names a corrupted list, exactly if the
timer list has an end; the mutex list may hold anything. -/
theorem diagnosed_iff (k : Kernel) : Diagnosed k ↔ ∃ l, Timers k l := by
  refine ⟨fun h => ?_, diagnosed_of_timers⟩
  by_contra hl
  exact h.ends (tickTasks_hangs hl)

/-- One task runs, and the only timer is linked to itself. -/
def selfLinkedTimer : Kernel :=
  { Kernel.zero 0 with
    taskCount := 1
    kernelInitialized := true
    kernelStarted := true
    timers := fun _ => .created 0x20000000
    timerList := 0x20000000 }

theorem selfLinkedTimer_cyclic : ¬∃ l, Timers selfLinkedTimer l := by
  rintro ⟨l, hl⟩
  obtain ⟨l', rfl, hl'⟩ := Linked.uncons hl (by decide)
  have hself : Linked 0 (fun a => (selfLinkedTimer.timers a).next) 0x20000000 l' := hl'
  have hlen := congrArg List.length (hself.unique hl)
  simp at hlen

/-- The corrupted timer list is all that is wrong, and the tick hangs. -/
theorem selfLinkedTimer_undiagnosed :
    selfLinkedTimer.OnlyTimerCycle ∧ tickTasks selfLinkedTimer = .error .hang
      ∧ ¬Diagnosed selfLinkedTimer := by
  have hhangs := tickTasks_hangs selfLinkedTimer_cyclic
  refine ⟨⟨fun i _ => ?_, ⟨[], .nil, List.nodup_nil, fun m hm => (nomatch hm)⟩,
    selfLinkedTimer_cyclic⟩, hhangs, fun h => h.ends hhangs⟩
  exact (checkTask_eq_ok_iff _ _).mp rfl

end JustRT
