import JustRT.Frame
import Mathlib.Logic.Function.Basic

/-!
# Waits, seen from outside

What a task record says about its task's wait is its `WaitView`. Nearly
every function of the kernel either leaves all of them alone or ends some
waits; `WakesOnly` is that statement, with the reason a wait may end as a
parameter. What one segment, handler or tick does to the waits of all
tasks is then one lemma per function.

Statements about the whole table compose: a function that wakes twice, or
wakes and restores priorities, is the transitive closure of its parts, and
a part that only writes other fields is the identity on views.
-/

namespace JustRT

/-! ## The wait of a task -/

/-- What a task record says about its task's wait. The scheduler's invariant
sees records through it, and a function that writes none of these fields leaves
the view as it is. -/
structure WaitView where
  state : TaskState
  waitObject : WaitObject
  waitKind : TaskWaitKind
  waitStart : UInt32
  waitDeadline : UInt32
  waitForever : UInt32
  waitResult : UInt32
  eventWaitBits : UInt32
  eventWaitAll : UInt32
  eventClearOnExit : UInt32
deriving Repr, DecidableEq

def Task.waitView (t : Task) : WaitView :=
  { state := t.state
    waitObject := t.waitObject
    waitKind := t.waitKind
    waitStart := t.waitStart
    waitDeadline := t.waitDeadline
    waitForever := t.waitForever
    waitResult := t.waitResult
    eventWaitBits := t.eventWaitBits
    eventWaitAll := t.eventWaitAll
    eventClearOnExit := t.eventClearOnExit }

def Kernel.view (k : Kernel) (j : Nat) : WaitView := (k.tasks j).waitView

namespace WaitView

def withState (v : WaitView) (state : TaskState) : WaitView := { v with state }

/-- The wait has ended with `result`. -/
def ended (v : WaitView) (result : UInt32) : WaitView :=
  { v with
    state := .ready
    waitResult := result
    waitObject := .null
    waitKind := .none
    waitStart := 0
    waitDeadline := 0
    waitForever := 0 }

def On (v : WaitView) (object : WaitObject) (waitKind : TaskWaitKind) : Prop :=
  v.state = .blocked ∧ v.waitObject = object ∧ v.waitKind = waitKind

instance (v : WaitView) (object : WaitObject) (waitKind : TaskWaitKind) :
    Decidable (v.On object waitKind) :=
  inferInstanceAs (Decidable (_ ∧ _ ∧ _))

@[simp] theorem withState_state (v : WaitView) (s : TaskState) : (v.withState s).state = s := rfl

@[simp] theorem withState_waitObject (v : WaitView) (s : TaskState) :
    (v.withState s).waitObject = v.waitObject := rfl

@[simp] theorem withState_waitKind (v : WaitView) (s : TaskState) :
    (v.withState s).waitKind = v.waitKind := rfl

@[simp] theorem withState_waitResult (v : WaitView) (s : TaskState) :
    (v.withState s).waitResult = v.waitResult := rfl

@[simp] theorem ended_state (v : WaitView) (r : UInt32) : (v.ended r).state = .ready := rfl

@[simp] theorem ended_waitResult (v : WaitView) (r : UInt32) : (v.ended r).waitResult = r := rfl

end WaitView

theorem view_state (k : Kernel) (j : Nat) : (k.view j).state = (k.tasks j).state := rfl

theorem view_waitObject (k : Kernel) (j : Nat) :
    (k.view j).waitObject = (k.tasks j).waitObject := rfl

theorem view_waitKind (k : Kernel) (j : Nat) :
    (k.view j).waitKind = (k.tasks j).waitKind := rfl

theorem view_waitResult (k : Kernel) (j : Nat) :
    (k.view j).waitResult = (k.tasks j).waitResult := rfl

@[simp] theorem waitView_withState (t : Task) (s : TaskState) :
    (t.withState s).waitView = t.waitView.withState s := rfl

@[simp] theorem waitView_withPriority (t : Task) (p : Nat) :
    (t.withPriority p).waitView = t.waitView := rfl

@[simp] theorem waitView_withSleepTicks (t : Task) (n : UInt32) :
    (t.withSleepTicks n).waitView = t.waitView := rfl

@[simp] theorem waitView_withNotification (t : Task) (n : UInt32) :
    (t.withNotification n).waitView = t.waitView := rfl

@[simp] theorem waitView_waitEnded (t : Task) (r : UInt32) :
    (t.waitEnded r).waitView = t.waitView.ended r := rfl

theorem view_eq_of_tasks_eq {k k' : Kernel} (h : k'.tasks = k.tasks) : k'.view = k.view := by
  funext j
  rw [Kernel.view, Kernel.view, h]

theorem setTask_view (k : Kernel) (i : Nat) (t : Task) :
    (k.setTask i t).view = Function.update k.view i t.waitView := by
  funext j
  by_cases h : j = i
  · simp [h, Kernel.view]
  · simp [h, Kernel.view, Kernel.setTask_tasks_of_ne]

/-! ## Functions that leave every wait alone -/

@[simp] theorem setSemaphore_view (k : Kernel) (a : Ptr) (s : JrtSemaphore) :
    (k.setSemaphore a s).view = k.view := rfl

@[simp] theorem setMutex_view (k : Kernel) (a : Ptr) (m : JrtMutex) :
    (k.setMutex a m).view = k.view := rfl

@[simp] theorem setQueue_view (k : Kernel) (a : Ptr) (q : JrtQueue) :
    (k.setQueue a q).view = k.view := rfl

@[simp] theorem setEventGroup_view (k : Kernel) (a : Ptr) (g : JrtEventGroup) :
    (k.setEventGroup a g).view = k.view := rfl

@[simp] theorem setTimer_view (k : Kernel) (a : Ptr) (t : JrtTimer) :
    (k.setTimer a t).view = k.view := rfl

@[simp] theorem taskBenchmarkReleaseLocked_view (k : Kernel) (task : Nat) (coalesced : Bool) :
    (taskBenchmarkReleaseLocked k task coalesced).view = k.view := rfl

@[simp] theorem taskBenchmarkCoalescedLocked_view (k : Kernel) (task : Nat) :
    (taskBenchmarkCoalescedLocked k task).view = k.view := rfl

@[simp] theorem taskBenchmarkStartLocked_view (k : Kernel) (task : Nat) :
    (taskBenchmarkStartLocked k task).view = k.view := rfl

@[simp] theorem taskBenchmarkCompleteLocked_view (k : Kernel) (task : Nat) :
    (taskBenchmarkCompleteLocked k task).view = k.view := rfl

@[simp] theorem advanceTicks_view (k : Kernel) : (advanceTicks k).view = k.view := rfl

@[simp] theorem mapDiag_view (k : Kernel) (f : Diagnostics → Diagnostics) :
    (k.mapDiag f).view = k.view := rfl

@[simp] theorem countContextMisuse_view (k : Kernel) (bump : SyncMisuse → SyncMisuse) :
    (countContextMisuse k bump).view = k.view := rfl

@[simp] theorem setPriority_view (k : Kernel) (task priority : Nat) :
    (setPriority k task priority).view = k.view := by
  simp only [setPriority, setTask_view, waitView_withPriority]
  exact Function.update_eq_self task k.view

@[simp] theorem inheritLoop_view (priority depth id : Nat) (k : Kernel) :
    (inheritLoop priority depth id k).view = k.view :=
  (inheritLoop_reprioritized priority depth id k).kept Kernel.view setPriority_view

@[simp] theorem taskInheritPriority_view (k : Kernel) (task priority : Nat) :
    (taskInheritPriority k task priority).view = k.view :=
  (taskInheritPriority_reprioritized k task priority).kept Kernel.view setPriority_view

@[simp] theorem restoreLoop_view (depth id : Nat) (k : Kernel) :
    (restoreLoop depth id k).view = k.view :=
  (restoreLoop_reprioritized depth id k).kept Kernel.view setPriority_view

@[simp] theorem restorePriorityChain_view (k : Kernel) (task : Nat) :
    (restorePriorityChain k task).view = k.view :=
  (restorePriorityChain_reprioritized k task).kept Kernel.view setPriority_view

@[simp] theorem taskRestorePriority_view (k : Kernel) (task : Nat) :
    (taskRestorePriority k task).view = k.view :=
  (taskRestorePriority_reprioritized k task).kept Kernel.view setPriority_view

@[simp] theorem jrtTaskNotifyTakeResume_view (k : Kernel) :
    (jrtTaskNotifyTakeResume k).2.2.view = k.view := by
  simp only [jrtTaskNotifyTakeResume, setTask_view, waitView_withNotification]
  exact Function.update_eq_self _ k.view

@[simp] theorem countTimeout_view (k : Kernel) (waitKind : TaskWaitKind) :
    (countTimeout k waitKind).view = k.view := by
  cases waitKind <;> rfl

/-! ## Functions that end waits -/

/-- What may become of a wait where nobody starts one: nothing, its end with a
result `R` admits, or the end of a sleep. The relation is closed under
composition, so a loop over the task table is in it once its body is. -/
inductive Woken (R : WaitView → UInt32 → Prop) (v : WaitView) : WaitView → Prop where
  | kept : Woken R v v
  | ended {r : UInt32} : v.state = .blocked → R v r → Woken R v (v.ended r)
  | awoken : v.state = .sleeping → Woken R v (v.withState .ready)

/-- Between `k` and `k'` waits only end, for reasons `R` admits. -/
def WakesOnly (R : WaitView → UInt32 → Prop) (k k' : Kernel) : Prop :=
  ∀ j, Woken R (k.view j) (k'.view j)

/-- The reason of a wake: the waiter is on `object` with `waitKind`. -/
def wakesOn (object : WaitObject) (waitKind : TaskWaitKind) (v : WaitView) (r : UInt32) : Prop :=
  v.waitObject = object ∧ v.waitKind = waitKind ∧ r = 1

/-- No reason. -/
def noWake (_ : WaitView) (_ : UInt32) : Prop := False

theorem Woken.trans {R : WaitView → UInt32 → Prop} {v₁ v₂ v₃ : WaitView}
    (h₁ : Woken R v₁ v₂) (h₂ : Woken R v₂ v₃) : Woken R v₁ v₃ := by
  cases h₁ with
  | kept => exact h₂
  | ended hb hr =>
      cases h₂ with
      | kept => exact .ended hb hr
      | ended hb' => simp at hb'
      | awoken hs => simp at hs
  | awoken hs =>
      cases h₂ with
      | kept => exact .awoken hs
      | ended hb' => simp at hb'
      | awoken hs' => simp at hs'

theorem Woken.mono {R S : WaitView → UInt32 → Prop} (h : ∀ v r, R v r → S v r)
    {v v' : WaitView} (hw : Woken R v v') : Woken S v v' := by
  cases hw with
  | kept => exact .kept
  | ended hb hr => exact .ended hb (h _ _ hr)
  | awoken hs => exact .awoken hs

/-- A task that neither blocks nor sleeps keeps its wait record. -/
theorem Woken.eq_of_not_waiting {R : WaitView → UInt32 → Prop} {v v' : WaitView}
    (hw : Woken R v v') (hb : v.state ≠ .blocked) (hs : v.state ≠ .sleeping) : v' = v := by
  cases hw with
  | kept => rfl
  | ended h _ => exact absurd h hb
  | awoken h => exact absurd h hs

/-- A task that is still blocked has been all along, on the same wait. -/
theorem Woken.eq_of_blocked {R : WaitView → UInt32 → Prop} {v v' : WaitView}
    (hw : Woken R v v') (hb : v'.state = .blocked) : v' = v := by
  cases hw with
  | kept => rfl
  | ended => simp at hb
  | awoken => simp at hb

namespace WakesOnly

variable {R S : WaitView → UInt32 → Prop} {k k₁ k₂ k₃ k' : Kernel}

theorem of_view_eq (h : k'.view = k.view) : WakesOnly R k k' := fun j => by
  rw [h]
  exact .kept

theorem refl (k : Kernel) : WakesOnly R k k := of_view_eq rfl

theorem trans (h₁ : WakesOnly R k₁ k₂) (h₂ : WakesOnly R k₂ k₃) : WakesOnly R k₁ k₃ :=
  fun j => (h₁ j).trans (h₂ j)

theorem mono (h : ∀ v r, R v r → S v r) (hw : WakesOnly R k k') : WakesOnly S k k' :=
  fun j => (hw j).mono h

theorem of_ended {i : Nat} {r : UInt32} (h : k'.view = Function.update k.view i ((k.view i).ended r))
    (hb : (k.view i).state = .blocked) (hr : R (k.view i) r) : WakesOnly R k k' := fun j => by
  rw [h]
  by_cases hj : j = i
  · rw [hj, Function.update_self]
    exact .ended hb hr
  · rw [Function.update_of_ne hj]
    exact .kept

end WakesOnly

theorem taskWaitEnd_view (k : Kernel) (task : Nat) (result : UInt32) (coalesced : Bool) :
    (taskWaitEnd k task result coalesced).view
      = Function.update k.view task ((k.view task).ended result) := by
  simp only [taskWaitEnd, setTask_view, taskBenchmarkReleaseLocked_view]
  rfl

theorem waitsOn_iff {k : Kernel} {object : WaitObject} {waitKind : TaskWaitKind} {j : Nat} :
    waitsOn k object waitKind j = true ↔ (k.view j).On object waitKind := by
  simp [waitsOn, WaitView.On, and_assoc, view_state, view_waitObject, view_waitKind]

theorem wakeScanStep_eq (k : Kernel) (object : WaitObject) (waitKind : TaskWaitKind) :
    wakeScanStep k object waitKind
      = Scan.bestStep (waitsOn k object waitKind) fun j => (k.tasks j).priority := by
  funext selected j
  cases selected <;> rfl

theorem wakeSelect_eq_none_iff {k : Kernel} {object : WaitObject} {waitKind : TaskWaitKind} :
    wakeSelect k object waitKind = none
      ↔ ∀ j < k.taskCount, ¬(k.view j).On object waitKind := by
  simp only [wakeSelect, wakeScanStep_eq, Scan.best_eq_none_iff, List.mem_range,
    ← waitsOn_iff, Bool.not_eq_true]

/-- The selected task is a waiter, and no waiter has a higher priority. -/
theorem wakeSelect_spec {k : Kernel} {object : WaitObject} {waitKind : TaskWaitKind} {s : Nat}
    (h : wakeSelect k object waitKind = some s) :
    s < k.taskCount ∧ (k.view s).On object waitKind
      ∧ ∀ j < k.taskCount, (k.view j).On object waitKind →
          (k.tasks j).priority ≤ (k.tasks s).priority := by
  rw [wakeSelect, wakeScanStep_eq] at h
  obtain ⟨hs, hw, hmax⟩ := Scan.best_spec _ _ h
  refine ⟨List.mem_range.mp hs, waitsOn_iff.mp hw, fun j hj hon => ?_⟩
  exact hmax j (List.mem_range.mpr hj) (waitsOn_iff.mpr hon)

theorem wakeSelected_wakes (k : Kernel) (object : WaitObject) (waitKind : TaskWaitKind) :
    WakesOnly (wakesOn object waitKind) k
      ((wakeSelect k object waitKind).elim k fun s => taskWaitEnd k s 1 false) := by
  cases h : wakeSelect k object waitKind with
  | none => exact .refl k
  | some s =>
      obtain ⟨-, ⟨hb, ho, hk⟩, -⟩ := wakeSelect_spec h
      exact .of_ended (taskWaitEnd_view k s 1 false) hb ⟨ho, hk, rfl⟩

theorem taskTimerServiceWakeLocked_wakes (k : Kernel) :
    WakesOnly (wakesOn .timerServiceWaitObject .timerService) k (taskTimerServiceWakeLocked k) := by
  simp only [taskTimerServiceWakeLocked]
  split
  · next h => exact .of_ended (taskWaitEnd_view _ _ _ _) h.1 ⟨h.2.1, h.2.2, rfl⟩
  · exact .refl k

/-! ## Functions that begin a wait -/

theorem taskWaitBeginUntil_view (k : Kernel) (task : Nat) (object : WaitObject)
    (waitKind : TaskWaitKind) (deadline : TaskWaitDeadline) :
    (taskWaitBeginUntil k task object waitKind deadline).view
      = Function.update k.view task
          ((k.tasks task).waitBegun object waitKind deadline).waitView := by
  simp [taskWaitBeginUntil, setTask_view]

end JustRT
