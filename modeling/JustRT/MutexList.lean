import JustRT.TimerList
import JustRT.Heap

/-!
# The list of mutexes

`Mutexes k l` says that the links from `mutex_list` run through the mutexes
`l` and end. What every step does to the record of every mutex is
`Action.onMutex`, up to the link; only a creation links.
-/

namespace JustRT

open Chain

/-! ## Linking -/

/-- The links from `mutex_list` run through `l`. -/
def Mutexes (k : Kernel) (l : List Ptr) : Prop :=
  Linked 0 (fun a => (k.mutexes a).next) k.mutexList l

theorem mutexIsLinkedLocked_eq {k : Kernel} {l : List Ptr} (h : Mutexes k l) (mutex : Ptr) :
    mutexIsLinkedLocked k mutex = .ok (decide (mutex ∈ l)) :=
  isLinkedLoop_eq h (length_lt_addressSpace h)

/-- Linking a mutex writes no other field than `next`. -/
theorem mutexLinkLocked_mutexes {k k' : Kernel} {mutex : Ptr}
    (h : mutexLinkLocked k mutex = .ok k') (m : Ptr) :
    ∃ next, k'.mutexes m = (k.mutexes m).withNext next := by
  simp only [mutexLinkLocked, exec_bind_eq_ok] at h
  obtain ⟨linked, -, h⟩ := h
  split at h
  · obtain rfl := Except.ok.inj h
    exact ⟨(k.mutexes m).next, rfl⟩
  · obtain rfl := Except.ok.inj h
    by_cases hm : m = mutex
    · exact ⟨k.mutexList, by simp [setMutex_mutexes, hm]⟩
    · exact ⟨(k.mutexes m).next, by simp [setMutex_mutexes, hm, JrtMutex.withNext]⟩

/-- Linking a mutex answers, and puts it on the list. -/
theorem mutexLinkLocked_list {k : Kernel} {l : List Ptr} {mutex : Ptr} (h : Mutexes k l)
    (hne : mutex ≠ 0) :
    ∃ k', mutexLinkLocked k mutex = .ok k' ∧ Mutexes k' (linkedList l mutex) := by
  unfold mutexLinkLocked linkedList
  rw [mutexIsLinkedLocked_eq h]
  by_cases hmem : mutex ∈ l
  · rw [if_pos hmem, decide_eq_true hmem]
    exact ⟨k, rfl, h⟩
  · rw [if_neg hmem, decide_eq_false hmem]
    refine ⟨_, rfl, h.push hne hmem ?_ ?_⟩
    · simp [setMutex_mutexes, JrtMutex.withNext]
    · intro m hm
      simp [setMutex_mutexes, hm]

section Mutexes

variable {k k' : Kernel} {l : List Ptr} {mutex : Ptr}

/-- A write that keeps the `next` of a listed mutex. -/
theorem Mutexes.setMutex (h : Mutexes k l) {m : JrtMutex}
    (hm : mutex ∈ l → m.next = (k.mutexes mutex).next) : Mutexes (k.setMutex mutex m) l := by
  refine Linked.congr h fun b hb => ?_
  rw [setMutex_mutexes]
  split
  · next heq => rw [heq, hm (heq ▸ hb)]
  · rfl

theorem Mutexes.of_next_eq (h : Mutexes k l)
    (hnext : ∀ m, (k'.mutexes m).next = (k.mutexes m).next) (hlist : k'.mutexList = k.mutexList) :
    Mutexes k' l := by
  rw [Mutexes, hlist, funext hnext]
  exact h

/-! ## Operations -/

def JrtMutex.lockedFor (m : JrtMutex) (i : Nat) : JrtMutex :=
  if m.locked = 0 then m.lockedBy i
  else if m.owner = i then m.withRecursion (m.recursion + 1)
  else m

/-- The record of a mutex behind an unlock by task `i`, where `waiter` is
the task its final unlock selects. -/
def JrtMutex.unlockedFor (m : JrtMutex) (i : Nat) (waiter : Option Nat) : JrtMutex :=
  if m.locked = 0 ∨ m.owner ≠ i then m
  else if m.recursion > 1 then m.withRecursion (m.recursion - 1)
  else waiter.elim m.unlocked m.lockedBy

theorem lockedFor_next (m : JrtMutex) (i : Nat) : (m.lockedFor i).next = m.next := by
  unfold JrtMutex.lockedFor
  split
  · rfl
  · split <;> rfl

theorem unlockedFor_next (m : JrtMutex) (i : Nat) (waiter : Option Nat) :
    (m.unlockedFor i waiter).next = m.next := by
  unfold JrtMutex.unlockedFor
  split
  · rfl
  · split
    · rfl
    · cases waiter <;> rfl

/-- A created mutex is unlocked; no other mutex changes. -/
theorem jrtMutexCreateRecursiveStatic_mutexes
    (hcreate : jrtMutexCreateRecursiveStatic k mutex = .ok k') (m : Ptr) :
    ∃ next, k'.mutexes m
      = (if m = mutex then (k.mutexes m).unlocked else k.mutexes m).withNext next := by
  simp only [jrtMutexCreateRecursiveStatic, exec_bind_eq_ok] at hcreate
  obtain ⟨linked, -, hlink⟩ := hcreate
  obtain ⟨next, hm⟩ := mutexLinkLocked_mutexes hlink m
  refine ⟨next, ?_⟩
  rw [hm, setMutex_mutexes]
  by_cases hmutex : m = mutex
  · rw [if_pos hmutex, if_pos hmutex, hmutex]
    rfl
  · rw [if_neg hmutex, if_neg hmutex]

theorem jrtMutexCreateRecursiveStatic_list (h : Mutexes k l) (hne : mutex ≠ 0)
    (hcreate : jrtMutexCreateRecursiveStatic k mutex = .ok k') :
    Mutexes k' (linkedList l mutex) := by
  unfold jrtMutexCreateRecursiveStatic at hcreate
  rw [mutexIsLinkedLocked_eq h] at hcreate
  have hcreated : Mutexes (k.setMutex mutex ((k.mutexes mutex).unlocked.withNext
      (if decide (mutex ∈ l) = true then (k.mutexes mutex).next else 0))) l :=
    h.setMutex fun hmem => by simp [hmem, JrtMutex.withNext]
  obtain ⟨k₁, hok, hlist⟩ := mutexLinkLocked_list hcreated hne
  obtain rfl : k₁ = k' := Except.ok.inj (hok.symm.trans hcreate)
  exact hlist

theorem setMutex_mutexes_eq (k : Kernel) (mutex : Ptr) (m : JrtMutex) :
    (k.setMutex mutex m).mutexes = Function.update k.mutexes mutex m := by
  funext b
  rw [setMutex_mutexes, Function.update_apply]

/-- A lock writes the record of its mutex, if it writes any. -/
theorem jrtMutexLock_mutexes (k : Kernel) (mutex : Ptr) (timeoutTicks : UInt32)
    (deadline : TaskWaitDeadline) :
    (jrtMutexLock k mutex timeoutTicks deadline false).2.mutexes
      = Function.update k.mutexes mutex ((k.mutexes mutex).lockedFor k.gCurrentTaskIndex) := by
  simp only [jrtMutexLock, JrtMutex.lockedFor, Bool.false_eq_true, if_false]
  split
  · exact setMutex_mutexes_eq _ _ _
  · split
    · exact setMutex_mutexes_eq _ _ _
    · rw [Function.update_eq_self]
      split
      · rfl
      · simp

/-- An unlock writes the record of its mutex, if it writes any. -/
theorem jrtMutexUnlock_mutexes (k : Kernel) (mutex : Ptr) :
    (jrtMutexUnlock k mutex false).2.mutexes
      = Function.update k.mutexes mutex ((k.mutexes mutex).unlockedFor k.gCurrentTaskIndex
          (wakeSelect k (.ptr mutex) .mutex)) := by
  simp only [jrtMutexUnlock, JrtMutex.unlockedFor, taskWakeGetId_eq, Bool.false_eq_true, if_false]
  split
  · rw [Function.update_eq_self]
  · split
    · exact setMutex_mutexes_eq _ _ _
    · cases wakeSelect k (.ptr mutex) .mutex <;> simp [setMutex_mutexes_eq]

end Mutexes

/-! ## Steps -/

/-- The record of mutex `m` behind a call of task `i`, up to its link. -/
def Call.onMutex (k : Kernel) (m : Ptr) (x : JrtMutex) : Call → JrtMutex
  | .mutexCreateRecursiveStatic a => if m = a then x.unlocked else x
  | .mutexUnlock a =>
      if m = a then x.unlockedFor k.gCurrentTaskIndex (wakeSelect k (.ptr a) .mutex) else x
  | _ => x

/-- The record of mutex `m` behind an action, up to its link. -/
def Action.onMutex (c : Cfg) (m : Ptr) (x : JrtMutex) : Action → JrtMutex
  | .call made => made.onMutex c.kernel m x
  | .proceed _ =>
      match c.pc c.current with
      | .entered (.mutexLock a _ _) _ => if m = a then x.lockedFor c.current else x
      | _ => x
  | _ => x

def Action.mutexesBehind (l : List Ptr) : Action → List Ptr
  | .call (.mutexCreateRecursiveStatic m) => linkedList l m
  | _ => l

section Records

variable {c c' : Cfg} {a : Action} {o : Observation} {k' : Kernel}

/-- A step that writes no other field of a mutex than `Action.onMutex` says,
and links none. -/
structure WritesMutexes (c : Cfg) (a : Action) (k' : Kernel) : Prop where
  record : ∀ m, k'.mutexes m = a.onMutex c m (c.kernel.mutexes m)
  list : k'.mutexList = c.kernel.mutexList

theorem WritesMutexes.of_eq (hmutexes : k'.mutexes = c.kernel.mutexes)
    (hlist : k'.mutexList = c.kernel.mutexList) (hon : ∀ m x, a.onMutex c m x = x) :
    WritesMutexes c a k' :=
  ⟨fun m => by rw [hon, hmutexes], hlist⟩

theorem WritesMutexes.of_update (mutex : Ptr) (f : JrtMutex → JrtMutex)
    (hmutexes : k'.mutexes = Function.update c.kernel.mutexes mutex (f (c.kernel.mutexes mutex)))
    (hlist : k'.mutexList = c.kernel.mutexList)
    (hon : ∀ m x, a.onMutex c m x = if m = mutex then f x else x) : WritesMutexes c a k' := by
  refine ⟨fun m => ?_, hlist⟩
  rw [hmutexes, hon, Function.update_apply]
  exact ite_congr rfl (fun heq => by rw [heq]) fun _ => rfl

theorem mutexesBehind_eq (hcreate : ∀ m, a ≠ .call (.mutexCreateRecursiveStatic m))
    (l : List Ptr) : a.mutexesBehind l = l := by
  unfold Action.mutexesBehind
  split
  · next m => exact absurd rfl (hcreate m)
  · rfl

theorem onMutex_next (hcreate : ∀ m, a ≠ .call (.mutexCreateRecursiveStatic m)) (m : Ptr)
    (x : JrtMutex) : (a.onMutex c m x).next = x.next := by
  unfold Action.onMutex
  split
  · next made =>
      cases made with
      | mutexCreateRecursiveStatic b => exact absurd rfl (hcreate b)
      | mutexUnlock b =>
          simp only [Call.onMutex]
          split
          · exact unlockedFor_next _ _ _
          · rfl
      | _ => rfl
  · split
    · split
      · exact lockedFor_next _ _
      · rfl
    · rfl
  · rfl

theorem enter_mutexes {made : Call} {s : Segment} (hs : enter c.kernel made = .ok s)
    (hcreate : ∀ m, made ≠ .mutexCreateRecursiveStatic m) :
    WritesMutexes c (.call made) s.kernel := by
  by_cases hkind : made.objectKind = .mutex
  · cases made with
    | mutexCreateRecursiveStatic m => exact absurd rfl (hcreate m)
    | mutexUnlock m =>
        obtain rfl := Except.ok.inj hs
        exact .of_update m (fun x => x.unlockedFor c.kernel.gCurrentTaskIndex
            (wakeSelect c.kernel (.ptr m) .mutex))
          (jrtMutexUnlock_mutexes c.kernel m) (by simp) fun _ _ => rfl
    | _ => cases hkind
  · have hheap := enter_heap hs
    refine .of_eq (hheap.mutexes hkind) (hheap.mutexList hkind) ?_
    intro m x
    cases made <;> first | rfl | exact absurd rfl hkind

theorem segment_mutexes {s : Segment} (hseg : ThreadSegment c a s)
    (hcreate : ∀ m, a ≠ .call (.mutexCreateRecursiveStatic m)) : WritesMutexes c a s.kernel := by
  -- Behind the first segment of a call only the section of a lock writes mutexes.
  have hrest : ∀ source, a = .proceed source → a.objectKind c ≠ .mutex →
      (∀ m x, a.onMutex c m x = x) → WritesMutexes c a s.kernel := by
    rintro source rfl hkind hon
    have hheap := hseg.heap
    exact .of_eq (hheap.mutexes hkind) (hheap.mutexList hkind) hon
  cases hseg with
  | call _ _ hs => exact enter_mutexes hs fun m hm => hcreate m (by rw [hm])
  | @entered w reserved source s hpc hs =>
      by_cases hw : ∃ m timeout deadline, w = .mutexLock m timeout deadline
      · obtain ⟨m, timeout, deadline, rfl⟩ := hw
        obtain rfl := Except.ok.inj hs
        refine .of_update m (fun x => x.lockedFor c.current) ?_ (by simp) ?_
        · rw [ofFlow_kernel]
          exact jrtMutexLock_mutexes c.kernel m timeout deadline
        · intro m' x
          simp only [Action.onMutex, hpc]
      · refine hrest source rfl ?_ ?_
        · rw [Action.objectKind, hpc]
          cases w <;> simp_all [Pc.objectKind, WaitCall.objectKind]
        · intro m x
          simp only [Action.onMutex, hpc]
          cases w <;> simp_all
  | @resumed w source hpc =>
      have hon : ∀ m x, Action.onMutex c m x (.proceed source) = x := by
        intro m x
        simp only [Action.onMutex, hpc]
      by_cases hw : ∃ m timeout deadline, w = .mutexLock m timeout deadline
      · obtain ⟨m, timeout, deadline, rfl⟩ := hw
        exact .of_eq rfl rfl hon
      · refine hrest source rfl ?_ hon
        rw [Action.objectKind, hpc]
        cases w <;> simp_all [Pc.objectKind, WaitCall.objectKind]
  | yielding hpc | requestSwitch hpc | inTime hpc | delayed hpc =>
      refine hrest _ rfl (by simp [Action.objectKind, hpc, Pc.objectKind]) ?_
      intro m x
      simp only [Action.onMutex, hpc]

theorem segment_createsMutex {mutex : Ptr} {s : Segment}
    (hseg : ThreadSegment c (.call (.mutexCreateRecursiveStatic mutex)) s) :
    jrtMutexCreateRecursiveStatic c.kernel mutex = .ok s.kernel := by
  cases hseg with
  | call _ _ hs =>
      simp only [enter, exec_bind_eq_ok] at hs
      obtain ⟨k', hcreate, hs⟩ := hs
      obtain rfl := Except.ok.inj hs
      exact hcreate

/-- A segment treats every mutex as `Action.onMutex` says, up to its link. -/
theorem segment_mutex {s : Segment} (hseg : ThreadSegment c a s) (m : Ptr) :
    ∃ next, s.kernel.mutexes m = (a.onMutex c m (c.kernel.mutexes m)).withNext next := by
  by_cases hcreate : ∃ mutex, a = .call (.mutexCreateRecursiveStatic mutex)
  · obtain ⟨mutex, rfl⟩ := hcreate
    exact jrtMutexCreateRecursiveStatic_mutexes (segment_createsMutex hseg) m
  · have hwrites := segment_mutexes hseg fun mutex ha => hcreate ⟨mutex, ha⟩
    refine ⟨(s.kernel.mutexes m).next, ?_⟩
    rw [← hwrites.record m]
    rfl

theorem segment_mutexList {s : Segment} {l : List Ptr} (h : Mutexes c.kernel l)
    (hseg : ThreadSegment c a s)
    (hne : ∀ m, a = .call (.mutexCreateRecursiveStatic m) → m ≠ 0) :
    Mutexes s.kernel (a.mutexesBehind l) := by
  by_cases hcreate : ∃ mutex, a = .call (.mutexCreateRecursiveStatic mutex)
  · obtain ⟨mutex, rfl⟩ := hcreate
    exact jrtMutexCreateRecursiveStatic_list h (hne mutex rfl) (segment_createsMutex hseg)
  · have hno : ∀ m, a ≠ .call (.mutexCreateRecursiveStatic m) := fun m ha => hcreate ⟨m, ha⟩
    have hwrites := segment_mutexes hseg hno
    rw [mutexesBehind_eq hno]
    refine h.of_next_eq (fun m => ?_) hwrites.list
    rw [hwrites.record, onMutex_next hno]

/-- Every step treats every mutex as `Action.onMutex` says, up to its
link. -/
theorem step_mutex (hstep : StepCases c a c' o) (m : Ptr) :
    ∃ next, c'.kernel.mutexes m = (a.onMutex c m (c.kernel.mutexes m)).withNext next := by
  have hkept : c'.kernel.mutexes = c.kernel.mutexes → (∀ x, a.onMutex c m x = x) →
      ∃ next, c'.kernel.mutexes m = (a.onMutex c m (c.kernel.mutexes m)).withNext next := by
    intro hmutexes hon
    rw [hmutexes, hon]
    exact ⟨_, rfl⟩
  cases hstep with
  | start _ hk =>
      obtain rfl := jrtKernelStart_spec hk
      exact hkept rfl fun _ => rfl
  | thread _ _ hseg => exact segment_mutex hseg m
  | tick _ hk => exact hkept ((tickTasks_heap hk).mutexes (by simp)) fun _ => rfl
  | @isr call _ =>
      have hkind : call.objectKind ≠ .mutex := by cases call <;> simp [IsrCall.objectKind]
      exact hkept ((isrCall_heap c.kernel call).mutexes hkind) fun _ => rfl
  | pendsv _ _ hk => exact hkept ((pendsvSwitch_heap hk .none).mutexes (by simp)) fun _ => rfl
  | store => exact hkept rfl fun _ => rfl
  | cycles => exact hkept rfl fun _ => rfl

end Records

end JustRT
