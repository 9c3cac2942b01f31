import JustRT.Priority
import JustRT.Lib.Cyclic

/-!
# What a context switch does

`pendsv_switch` in three parts: what saving the outgoing task changes,
which task the two scans select, and what installing it changes. The scans
are those of `Lib.Scan`, over the places behind the outgoing task, so that
what they find is a matter of greatest keys and first places and not of
loops. No priority, no object and no wait changes but the states of the two
tasks.
-/

namespace JustRT

/-- The state an outgoing task is left in. -/
def TaskState.demoted (s : TaskState) : TaskState := if s = .running then .ready else s

@[simp] theorem demoted_ne_running (s : TaskState) : s.demoted ≠ .running := by
  cases s <;> decide

theorem demoted_eq_ready_iff {s : TaskState} : s.demoted = .ready ↔ s = .ready ∨ s = .running := by
  cases s <;> decide

theorem demoted_of_ne {s : TaskState} (h : s ≠ .running) : s.demoted = s := by
  simp [TaskState.demoted, h]

/-! ## Saving -/

@[simp] theorem recordHighWater_frame (k : Kernel) (words : UInt32) :
    TableFrame k (recordHighWater k words) ∧ (recordHighWater k words).tasks = k.tasks := by
  unfold recordHighWater
  split <;> simp

theorem updateStackUsage_spec {k k' : Kernel} {task : Nat} {currentSp : Ptr}
    (h : updateStackUsage k task currentSp = .ok k') :
    TableFrame k k' ∧ k'.view = k.view ∧ PrioFrame k k' := by
  simp only [updateStackUsage] at h
  split at h
  · cases h
  · cases h
    refine ⟨by simp, ?_, ?_⟩
    · rw [view_eq_of_tasks_eq (recordHighWater_frame _ _).2, setTask_view]
      exact Function.update_eq_self task k.view
    · refine (?_ : PrioFrame k (k.setTask task ((k.tasks task).withStackUsage _ _))).trans
        (prio_eq_of_tasks_eq (recordHighWater_frame _ _).2)
      exact setTask_prioFrame rfl rfl

/-- Saving demotes the outgoing task and changes no other state, wait or
priority. -/
theorem pendsvSave_spec {k k' : Kernel} {currentSp : Ptr} (h : pendsvSave k currentSp = .ok k') :
    TableFrame k k'
      ∧ k'.view = Function.update k.view k.currentTask
          ((k.view k.currentTask).withState (k.view k.currentTask).state.demoted)
      ∧ PrioFrame k k' := by
  simp only [pendsvSave, exec_bind_eq_ok] at h
  obtain ⟨k₁, husage, h⟩ := h
  obtain ⟨hframe, hview, hprio⟩ := updateStackUsage_spec husage
  have hsp : (k.setTask k.currentTask ((k.tasks k.currentTask).withSp currentSp)).view
      = k.view := by
    rw [setTask_view]
    exact Function.update_eq_self _ k.view
  have hspPrio : PrioFrame k
      (k.setTask k.currentTask ((k.tasks k.currentTask).withSp currentSp)) :=
    setTask_prioFrame rfl rfl
  rw [hsp] at hview
  cases h
  refine ⟨?_, ?_, (hspPrio.trans hprio).trans (setTask_prioFrame rfl rfl)⟩
  · exact (setTask_frame _ _ _).trans (hframe.trans (setTask_frame _ _ _))
  · rw [setTask_view, ← hview]
    rfl

/-! ## Selection -/

def Kernel.Ready (k : Kernel) (i : Nat) : Prop := i < k.taskCount ∧ (k.view i).state = .ready

theorem pendsvBestPriority_isGreatest (k : Kernel) (baseIndex : Nat) :
    IsGreatest {x | x = 0 ∨ ∃ offset ∈ List.range k.taskCount,
        (k.tasks (scanIndex k baseIndex offset)).state = .ready
          ∧ x = (k.tasks (scanIndex k baseIndex offset)).priority}
      (pendsvBestPriority k baseIndex) :=
  Scan.raise_isGreatest _ _ _ _

theorem exists_scanIndex_eq {k : Kernel} {baseIndex i : Nat} (hb : baseIndex < k.taskCount)
    (hi : i < k.taskCount) : ∃ offset < k.taskCount, scanIndex k baseIndex offset = i := by
  refine ⟨Cyclic.ahead k.taskCount baseIndex i % k.taskCount, Nat.mod_lt _ (by omega), ?_⟩
  rw [scanIndex, Nat.add_mod_mod, Cyclic.add_ahead_mod hb hi]

theorem prio_le_pendsvBestPriority {k : Kernel} {baseIndex i : Nat}
    (hb : baseIndex < k.taskCount) (hi : k.Ready i) :
    k.prio i ≤ pendsvBestPriority k baseIndex := by
  obtain ⟨offset, hlt, rfl⟩ := exists_scanIndex_eq hb hi.1
  exact (pendsvBestPriority_isGreatest k baseIndex).2
    (Or.inr ⟨offset, List.mem_range.mpr hlt, hi.2, rfl⟩)

/-- Some `READY` task has the best priority, if there is a `READY` task. -/
theorem exists_prio_eq_pendsvBestPriority {k : Kernel} {baseIndex i : Nat}
    (hb : baseIndex < k.taskCount) (hi : k.Ready i) :
    ∃ j, k.Ready j ∧ k.prio j = pendsvBestPriority k baseIndex := by
  have hle := prio_le_pendsvBestPriority hb hi
  rcases (pendsvBestPriority_isGreatest k baseIndex).1 with h | ⟨offset, -, hready, h⟩
  · exact ⟨i, hi, by omega⟩
  · exact ⟨_, ⟨Nat.mod_lt _ (by omega), hready⟩, h.symm⟩

/-- With a `READY` task in the table the second scan finds a candidate. -/
theorem pendsvSelectedOffset_isSome {k : Kernel} {baseIndex i : Nat}
    (hb : baseIndex < k.taskCount) (hi : k.Ready i) :
    ∃ offset, pendsvSelectedOffset k baseIndex (pendsvBestPriority k baseIndex) = some offset := by
  obtain ⟨j, hj, hbest⟩ := exists_prio_eq_pendsvBestPriority hb hi
  rw [← Option.ne_none_iff_exists']
  intro hnone
  have hno := (Cyclic.find_eq_none_iff (p := fun i => (k.tasks i).state == .ready
    && (k.tasks i).priority == pendsvBestPriority k baseIndex) hb).mp hnone j hj.1
  have hstate : (k.tasks j).state = .ready := hj.2
  have hprio : (k.tasks j).priority = pendsvBestPriority k baseIndex := hbest
  simp [hstate, hprio] at hno

/-- What the scans select, with a `READY` task in the table: a `READY` task
no `READY` task has a higher priority than, the first of its priority
behind the outgoing one. -/
theorem pendsvNextIndex_spec {k : Kernel} {baseIndex i : Nat} (hb : baseIndex < k.taskCount)
    (hi : k.Ready i) :
    k.Ready (pendsvNextIndex k baseIndex)
      ∧ (∀ j, k.Ready j → k.prio j ≤ k.prio (pendsvNextIndex k baseIndex))
      ∧ ∀ j, k.Ready j → k.prio j = k.prio (pendsvNextIndex k baseIndex) →
          Cyclic.ahead k.taskCount baseIndex (pendsvNextIndex k baseIndex)
            ≤ Cyclic.ahead k.taskCount baseIndex j := by
  obtain ⟨offset, hsel⟩ := pendsvSelectedOffset_isSome hb hi
  obtain ⟨hone, hle, hp, hfirst⟩ := Cyclic.find_spec (p := fun i => (k.tasks i).state == .ready
    && (k.tasks i).priority == pendsvBestPriority k baseIndex) hb hsel
  have hnext : pendsvNextIndex k baseIndex = (baseIndex + offset) % k.taskCount := by
    simp only [pendsvNextIndex, hsel, scanIndex]
  rw [Bool.and_eq_true, beq_iff_eq, beq_iff_eq] at hp
  have hprio : k.prio (pendsvNextIndex k baseIndex) = pendsvBestPriority k baseIndex := by
    rw [hnext]
    exact hp.2
  refine ⟨?_, ?_, ?_⟩
  · rw [hnext]
    exact ⟨Nat.mod_lt _ (by omega), hp.1⟩
  · intro j hj
    rw [hprio]
    exact prio_le_pendsvBestPriority hb hj
  · intro j hj hjprio
    rw [hnext, Cyclic.ahead_add_mod hb hone hle]
    have hstate : (k.tasks j).state = .ready := hj.2
    have hjbest : (k.tasks j).priority = pendsvBestPriority k baseIndex := hjprio.trans hprio
    exact hfirst j hj.1 (by simp [hstate, hjbest])

/-! ## The switch -/

/-- The frame of a context switch: what it leaves alone besides waits and
priorities. -/
@[simp] abbrev SwitchFrame (k k' : Kernel) : Prop :=
  k'.taskCount = k.taskCount ∧ k'.applicationTaskCount = k.applicationTaskCount
    ∧ k'.kernelInitialized = k.kernelInitialized ∧ k'.kernelStarted = k.kernelStarted
    ∧ k'.timerServiceTaskIndex = k.timerServiceTaskIndex ∧ k'.gKernelTicks = k.gKernelTicks
    ∧ k'.semaphores = k.semaphores ∧ k'.mutexes = k.mutexes ∧ k'.mutexList = k.mutexList
    ∧ k'.queues = k.queues ∧ k'.eventGroups = k.eventGroups ∧ k'.timers = k.timers
    ∧ k'.timerList = k.timerList

@[simp] theorem pendsvStatistics_frame (k : Kernel) (baseIndex : Nat) :
    TableFrame k (pendsvStatistics k baseIndex)
      ∧ (pendsvStatistics k baseIndex).tasks = k.tasks := by
  simp [pendsvStatistics]

/-- Everything a switch does to states, waits and priorities: it saves the
outgoing task, and marks the selected one `RUNNING`. -/
theorem pendsvSwitch_cases {k k' : Kernel} {currentSp sp : Ptr}
    (h : pendsvSwitch k currentSp = .ok (sp, k')) :
    ∃ k₁, pendsvSave k currentSp = .ok k₁
      ∧ SwitchFrame k k' ∧ PrioFrame k k'
      ∧ k'.gCurrentTaskIndex = pendsvNextIndex k₁ k.gCurrentTaskIndex
      ∧ k'.currentTask = pendsvNextIndex k₁ k.gCurrentTaskIndex
      ∧ k'.view = Function.update k₁.view (pendsvNextIndex k₁ k.gCurrentTaskIndex)
          ((k₁.view (pendsvNextIndex k₁ k.gCurrentTaskIndex)).withState .running) := by
  simp only [pendsvSwitch, exec_bind_eq_ok] at h
  obtain ⟨k₁, hsave, k₂, hinstall, h⟩ := h
  cases h
  obtain ⟨hframe, -, hprio⟩ := pendsvSave_spec hsave
  simp only [pendsvInstall, exec_bind_eq_ok] at hinstall
  obtain ⟨mpu, -, hinstall⟩ := hinstall
  cases hinstall
  refine ⟨k₁, hsave, ?_, hprio.trans ?_, ?_, ?_, ?_⟩
  · simp only [TableFrame] at hframe
    simp [hframe]
  · exact setTask_prioFrame rfl rfl
  · rfl
  · rfl
  · exact setTask_view _ _ _

end JustRT
