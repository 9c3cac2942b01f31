import JustRT.MutexList

/-!
# The run-time invariant checker

`Healthy k` says in the kernel's own terms what
`kernel_check_invariants_locked` looks for: task records that wait for
something exactly while they are `BLOCKED`, two lists that end, with each
object on them once, and consistent records. The checker finds nothing exactly on the
healthy kernels; on any other it halts, or its walk hangs.
-/

namespace JustRT

open Chain

/-! ## Healthy kernels -/

/-- The record of a task that is not `BLOCKED` waits for nothing. -/
def WaitView.Clean (v : WaitView) : Prop :=
  v.state ≠ .blocked → v.waitObject = .null ∧ v.waitKind = .none ∧ v.waitStart = 0
    ∧ v.waitDeadline = 0 ∧ v.waitForever = 0

/-- A record waits for something exactly while its task is `BLOCKED`. -/
structure WaitView.Consistent (v : WaitView) : Prop where
  blocked : v.state = .blocked → v.waitObject ≠ .null ∧ v.waitKind ≠ .none
  clean : v.Clean

/-- An unlocked mutex has no owner, a locked one is owned by one of `n`
tasks, which locked it. -/
structure JrtMutex.Sound (n : Nat) (m : JrtMutex) : Prop where
  unlocked : m.locked = 0 → m.owner = uint32Max ∧ m.recursion = 0
  locked : m.locked ≠ 0 → m.owner < n ∧ m.recursion ≠ 0

/-- A timer is periodic exactly if it has a period. -/
def JrtTimer.Consistent (t : JrtTimer) : Prop := t.periodic ≠ 0 ↔ t.period ≠ 0

/-- What the invariant checker looks for: each record of the task table, and of
the kernel's two lists, is sound by itself. -/
structure Healthy (k : Kernel) : Prop where
  tasks : ∀ i < k.taskCount, (k.view i).Consistent
  mutexes : ∃ l, Mutexes k l ∧ l.Nodup ∧ ∀ m ∈ l, (k.mutexes m).Sound k.taskCount
  timers : ∃ l, Timers k l ∧ l.Nodup ∧ ∀ t ∈ l, (k.timers t).Consistent

/-! ## The checks of one record -/

theorem checkTask_eq_ok_iff (k : Kernel) (index : Nat) :
    checkTask k index = .ok () ↔ (k.view index).Consistent := by
  simp only [checkTask, TaskState.toWord_le, TaskWaitKind.toWord_le, if_false, or_false]
  split
  · next hb =>
      split
      · next hobject =>
          refine ⟨fun h => (nomatch h), fun h => absurd hobject (h.blocked hb).1⟩
      · next hobject =>
          split
          · next hkind =>
              exact ⟨fun h => (nomatch h), fun h => absurd hkind (h.blocked hb).2⟩
          · next hkind =>
              exact ⟨fun _ => ⟨fun _ => ⟨hobject, hkind⟩, fun hnot => absurd hb hnot⟩, fun _ => rfl⟩
  · next hb =>
      split
      · next hdirty =>
          refine ⟨fun h => (nomatch h), fun h => ?_⟩
          obtain ⟨hobject, hkind, hstart, hdeadline, hforever⟩ := h.clean hb
          rcases hdirty with hne | hne | hne | hne | hne
          · exact absurd hobject hne
          · exact absurd hkind hne
          · exact absurd hstart hne
          · exact absurd hdeadline hne
          · exact absurd hforever hne
      · next hclean =>
          simp only [not_or, not_not] at hclean
          exact ⟨fun _ => ⟨fun hblocked => absurd hblocked hb, fun _ => hclean⟩, fun _ => rfl⟩

theorem mutexCheck_eq_none_iff (n : Nat) (m : JrtMutex) : mutexCheck n m = .none ↔ m.Sound n := by
  unfold mutexCheck
  split
  · next hlocked =>
      split
      · next hstate =>
          refine ⟨fun h => (nomatch h), fun h => ?_⟩
          obtain ⟨howner, hrecursion⟩ := h.unlocked hlocked
          exact hstate.elim (absurd howner) (absurd hrecursion)
      · next hstate =>
          simp only [not_or, not_not] at hstate
          exact ⟨fun _ => ⟨fun _ => hstate, fun hne => absurd hlocked hne⟩, fun _ => rfl⟩
  · next hlocked =>
      split
      · next howner =>
          refine ⟨fun h => (nomatch h), fun h => ?_⟩
          exact absurd (h.locked hlocked).1 (Nat.not_lt.mpr howner)
      · next howner =>
          split
          · next hrecursion =>
              exact ⟨fun h => (nomatch h), fun h => absurd hrecursion (h.locked hlocked).2⟩
          · next hrecursion =>
              refine ⟨fun _ => ⟨fun hzero => absurd hzero hlocked, fun _ => ?_⟩, fun _ => rfl⟩
              exact ⟨Nat.not_le.mp howner, hrecursion⟩

theorem timerCheck_eq_none_iff (t : JrtTimer) : timerCheck t = .none ↔ t.Consistent := by
  unfold timerCheck JrtTimer.Consistent
  by_cases hperiodic : t.periodic = 0 <;> by_cases hperiod : t.period = 0 <;>
    simp [hperiodic, hperiod]

/-! ## The walks over a list -/

/-- The tortoise and the hare do not meet on a list that ends: behind every
step the hare is nearer to its end. -/
theorem listCycleLoop_eq {next : Ptr → Ptr} {fuel : Nat} {slow fast : Ptr} {ls lf : List Ptr}
    (hslow : Linked 0 next slow ls) (hfast : Linked 0 next fast lf)
    (hle : lf.length ≤ ls.length) (hfuel : lf.length < fuel) :
    listCycleLoop next fuel slow fast = .ok none := by
  induction fuel generalizing slow fast ls lf with
  | zero => exact absurd hfuel (Nat.not_lt_zero _)
  | succ fuel ih =>
      unfold listCycleLoop
      split
      · rfl
      · next hgo =>
          rw [not_or] at hgo
          obtain ⟨hne, hnext⟩ := hgo
          obtain ⟨rest, rfl, hrest⟩ := hfast.uncons hne
          obtain ⟨last, rfl, hlast⟩ := hrest.uncons hnext
          simp only [List.length_cons] at hle hfuel
          cases hslow with
          | nil => simp at hle
          | @cons _ ls _ hslow =>
              simp only [List.length_cons] at hle
              have hapart : next slow ≠ next (next fast) := by
                intro hmeet
                rw [hmeet] at hslow
                have hlen := congrArg List.length (hslow.unique hlast)
                omega
              rw [if_neg hapart]
              exact ih hslow hlast (by omega) (by omega)

/-- The hare only gives up at the end of the list. -/
theorem linked_of_listCycleLoop {next : Ptr → Ptr} {fuel : Nat} {slow fast : Ptr}
    (h : listCycleLoop next fuel slow fast = .ok none) : ∃ l, Linked 0 next fast l := by
  induction fuel generalizing slow fast with
  | zero => cases h
  | succ fuel ih =>
      unfold listCycleLoop at h
      split at h
      · next hend =>
          by_cases hfast : fast = 0
          · exact ⟨[], hfast ▸ .nil⟩
          · refine ⟨[fast], .cons hfast ?_⟩
            rw [hend.resolve_left hfast]
            exact .nil
      · next hgo =>
          rw [not_or] at hgo
          dsimp only at h
          split at h
          · cases h
          · obtain ⟨l, hl⟩ := ih h
            exact ⟨fast :: next fast :: l, .cons hgo.1 (.cons hgo.2 hl)⟩

/-- The second walk reports the first record that fails its check. -/
theorem listCheckLoop_eq {next : Ptr → Ptr} {check : Ptr → JrtKernelInvariantCode} {a : Ptr}
    {l : List Ptr} (h : Linked 0 next a l) {fuel : Nat} (hfuel : l.length < fuel) :
    listCheckLoop next check fuel a
      = .ok ((l.find? fun b => decide (check b ≠ .none)).elim (.none, 0) fun b => (check b, b)) := by
  induction h generalizing fuel with
  | nil =>
      obtain ⟨fuel, rfl⟩ := Nat.exists_eq_succ_of_ne_zero (Nat.ne_of_gt hfuel)
      simp [listCheckLoop]
  | @cons a l hne _ ih =>
      rw [List.length_cons] at hfuel
      obtain ⟨fuel, rfl⟩ := Nat.exists_eq_succ_of_ne_zero (show fuel ≠ 0 by omega)
      unfold listCheckLoop
      rw [if_neg hne, List.find?_cons]
      by_cases hcheck : check a ≠ .none
      · rw [if_pos hcheck, decide_eq_true hcheck]
        rfl
      · rw [if_neg hcheck, decide_eq_false hcheck]
        exact ih (by omega)

/-- What `sync_invariant_check` and `timer_invariant_check` do with their
lists. -/
def listInvariantCheck (next : Ptr → Ptr) (check : Ptr → JrtKernelInvariantCode)
    (cycle : JrtKernelInvariantCode) (head : Ptr) : Exec (JrtKernelInvariantCode × Ptr) := do
  match ← listCycleLoop next addressSpace head head with
  | some object => return (cycle, object)
  | none => listCheckLoop next check addressSpace head

theorem syncInvariantCheck_eq (k : Kernel) :
    syncInvariantCheck k = listInvariantCheck (fun a => (k.mutexes a).next)
      (fun a => mutexCheck k.taskCount (k.mutexes a)) .mutexListCycle k.mutexList := rfl

theorem timerInvariantCheck_eq (k : Kernel) :
    timerInvariantCheck k = listInvariantCheck (fun a => (k.timers a).next)
      (fun a => timerCheck (k.timers a)) .timerListCycle k.timerList := rfl

/-- A list passes exactly if it ends, each object on it once, and every
record on it passes. -/
theorem listInvariantCheck_iff {next : Ptr → Ptr} {check : Ptr → JrtKernelInvariantCode}
    {cycle : JrtKernelInvariantCode} (hcycle : cycle ≠ .none) {head : Ptr} :
    (∃ object, listInvariantCheck next check cycle head = .ok (.none, object))
      ↔ ∃ l, Linked 0 next head l ∧ l.Nodup ∧ ∀ a ∈ l, check a = .none := by
  constructor
  · rintro ⟨object, h⟩
    simp only [listInvariantCheck, exec_bind_eq_ok] at h
    obtain ⟨meeting, hloop, h⟩ := h
    cases meeting with
    | some b => exact absurd (Prod.mk.inj (Except.ok.inj h)).1 hcycle
    | none =>
        obtain ⟨l, hl⟩ := linked_of_listCycleLoop hloop
        change listCheckLoop next check addressSpace head = _ at h
        rw [listCheckLoop_eq hl (length_lt_addressSpace hl)] at h
        refine ⟨l, hl, hl.nodup, fun a ha => ?_⟩
        by_contra hne
        cases hfind : l.find? fun b => decide (check b ≠ .none) with
        | none => simpa [hne] using List.find?_eq_none.mp hfind a ha
        | some b =>
            rw [hfind] at h
            have hfails := List.find?_some hfind
            exact of_decide_eq_true hfails (Prod.mk.inj (Except.ok.inj h)).1
  · rintro ⟨l, hl, -, hcheck⟩
    have hlen := length_lt_addressSpace hl
    refine ⟨0, exec_bind_eq_ok.mpr ⟨none, listCycleLoop_eq hl hl (Nat.le_refl _) hlen, ?_⟩⟩
    have hnone : l.find? (fun b => decide (check b ≠ .none)) = none := by
      rw [List.find?_eq_none]
      intro b hb
      simp [hcheck b hb]
    show listCheckLoop next check addressSpace head = _
    rw [listCheckLoop_eq hl hlen, hnone]
    rfl

/-! ## The checker -/

theorem forM_eq_ok_iff {α : Type} {l : List α} {f : α → Exec Unit} :
    l.forM f = .ok () ↔ ∀ a ∈ l, f a = .ok () := by
  induction l with
  | nil => exact ⟨fun _ a ha => (nomatch ha), fun _ => rfl⟩
  | cons a l ih =>
      have hcons : (a :: l).forM f = (f a >>= fun _ => l.forM f) := rfl
      rw [hcons, exec_bind_eq_ok]
      simp only [List.forall_mem_cons]
      constructor
      · rintro ⟨⟨⟩, ha, hl⟩
        exact ⟨ha, ih.mp hl⟩
      · rintro ⟨ha, hl⟩
        exact ⟨(), ha, ih.mpr hl⟩

theorem throw_ne_ok {α : Type} (halt : Halt) (a : α) : (throw halt : Exec α) ≠ .ok a :=
  fun h => nomatch h

/-- The checker finds nothing exactly on the healthy kernels. -/
theorem kernelCheckInvariantsLocked_eq_ok_iff (k : Kernel) :
    kernelCheckInvariantsLocked k = .ok () ↔ Healthy k := by
  have htasks : (List.range k.taskCount).forM (checkTask k) = .ok ()
      ↔ ∀ i < k.taskCount, (k.view i).Consistent := by
    simp only [forM_eq_ok_iff, List.mem_range, checkTask_eq_ok_iff]
  have hmutexes : (∃ object, syncInvariantCheck k = .ok (.none, object))
      ↔ ∃ l, Mutexes k l ∧ l.Nodup ∧ ∀ m ∈ l, (k.mutexes m).Sound k.taskCount := by
    rw [syncInvariantCheck_eq, listInvariantCheck_iff (by simp)]
    simp only [mutexCheck_eq_none_iff]
    rfl
  have htimers : (∃ object, timerInvariantCheck k = .ok (.none, object))
      ↔ ∃ l, Timers k l ∧ l.Nodup ∧ ∀ t ∈ l, (k.timers t).Consistent := by
    rw [timerInvariantCheck_eq, listInvariantCheck_iff (by simp)]
    simp only [timerCheck_eq_none_iff]
    rfl
  constructor
  · intro h
    simp only [kernelCheckInvariantsLocked, exec_bind_eq_ok] at h
    obtain ⟨⟨⟩, hforM, ⟨code, object⟩, hsync, h⟩ := h
    by_cases hcode : code = .none
    · rw [if_neg (not_not.mpr hcode), exec_bind_eq_ok] at h
      obtain ⟨⟨code', object'⟩, htimer, h⟩ := h
      by_cases hcode' : code' = .none
      · exact ⟨htasks.mp hforM, hmutexes.mp ⟨object, hcode ▸ hsync⟩,
          htimers.mp ⟨object', hcode' ▸ htimer⟩⟩
      · rw [if_pos hcode'] at h
        exact absurd h (throw_ne_ok _ _)
    · rw [if_pos hcode, exec_bind_eq_ok] at h
      obtain ⟨⟨⟩, h, -⟩ := h
      exact absurd h (throw_ne_ok _ _)
  · rintro ⟨htask, hmutex, htimer⟩
    obtain ⟨object, hsync⟩ := hmutexes.mpr hmutex
    obtain ⟨object', hcheck⟩ := htimers.mpr htimer
    simp only [kernelCheckInvariantsLocked, exec_bind_eq_ok]
    refine ⟨(), htasks.mpr htask, (.none, object), hsync, ?_⟩
    rw [if_neg (not_not.mpr rfl), exec_bind_eq_ok]
    exact ⟨(.none, object'), hcheck, rfl⟩

end JustRT
