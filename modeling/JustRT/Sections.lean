import JustRT.Masking

/-!
# The services, run alone

Most operations are followed instruction by instruction, with whatever comes in
between (`JustRT.CallSegments`). The services of the supervisor call need not
be: nothing interrupts `SVC_Handler`, so their code runs from `critical_enter` to
its end by itself. Run that way it returns what the one-step function of
`JustRT.Task` returns, leaves the kernel as that does, and is back at the mask
it began with. Only the port's two counters tell that there was a critical
section.
-/

namespace JustRT

open Interference

/-- The counters of the port behind a `critical_enter` from `x`. -/
abbrev Shared.entered (x : Mask) (s : Shared) : Shared :=
  { s with
    gCriticalEntries := s.gCriticalEntries + 1
    gCriticalNestingMax :=
      if x.gCriticalNesting + 1 > s.gCriticalNestingMax then x.gCriticalNesting + 1
      else s.gCriticalNestingMax }

namespace Critical

/-- Where a run of code stopped, and what it left, the port's counters apart. -/
def stopped {α : Type} (r : Code α × Mask × Shared) : Code α × Mask × Kernel × Pools :=
  (r.1, r.2.1, r.2.2.kernel, r.2.2.pools)

@[simp] theorem stopped_mk {α : Type} (p : Code α) (x : Mask) (s : Shared) :
    stopped (p, x, s) = (p, x, s.kernel, s.pools) := rfl

section Alone

variable {x : Mask} {s : Shared} {α : Type}

/-! ## The port and the kernel -/

@[simp] theorem alone_criticalEnter :
    criticalEnter.alone x s = (.done x.primask, x.entered, s.entered x) := by
  show (_, x.entered, _) = _
  unfold Shared.entered
  by_cases hmax : x.gCriticalNesting + 1 > s.gCriticalNestingMax
  · simp [hmax]
  · simp [hmax]

theorem alone_criticalExit (hfits : x.Fits 1) :
    (criticalExit x.primask).alone x.entered s = (.done (), x, s) := by
  show (_, x.entered.exited x.primask, s) = _
  rw [Mask.exited_entered hfits]

@[simp] theorem alone_readKernel : readKernel.alone x s = (.done s.kernel, x, s) := rfl

@[simp] theorem alone_modifyKernel (f : Kernel → Kernel) :
    (modifyKernel f).alone x s = (.done (), x, { s with kernel := f s.kernel }) := rfl

@[simp] theorem alone_modifyGetKernel (f : Kernel → α × Kernel) :
    (modifyGetKernel f).alone x s
      = (.done (f s.kernel).1, x, { s with kernel := (f s.kernel).2 }) := rfl

/-! ## The services -/

theorem kernelTaskSuspend_alone (hfits : x.Fits 1) (requestedTaskId : Nat) :
    stopped ((kernelTaskSuspend requestedTaskId).alone x s)
      = (.done (JustRT.kernelTaskSuspend s.kernel requestedTaskId).1, x,
          (JustRT.kernelTaskSuspend s.kernel requestedTaskId).2, s.pools) := by
  simp only [kernelTaskSuspend, JustRT.kernelTaskSuspend, Prog.alone_bind, alone_criticalEnter,
    alone_readKernel, Prog.resume_done]
  split
  · simp [alone_criticalExit hfits]
  · split
    · simp [alone_criticalExit hfits]
    · cases resolveApplicationTaskId s.kernel requestedTaskId true with
      | error status => simp [alone_criticalExit hfits]
      | ok taskId =>
          dsimp only
          split
          · simp [alone_criticalExit hfits]
          · simp [alone_criticalExit hfits]

theorem kernelTaskResume_alone (hfits : x.Fits 1) (requestedTaskId : Nat) :
    stopped ((kernelTaskResume requestedTaskId).alone x s)
      = (.done (JustRT.kernelTaskResume s.kernel requestedTaskId).1, x,
          (JustRT.kernelTaskResume s.kernel requestedTaskId).2, s.pools) := by
  simp only [kernelTaskResume, JustRT.kernelTaskResume, Prog.alone_bind, alone_criticalEnter,
    alone_readKernel, Prog.resume_done]
  split
  · simp [alone_criticalExit hfits]
  · split
    · simp [alone_criticalExit hfits]
    · cases resolveApplicationTaskId s.kernel requestedTaskId false with
      | error status => simp [alone_criticalExit hfits]
      | ok taskId =>
          dsimp only
          split
          · simp [alone_criticalExit hfits]
          · simp [alone_criticalExit hfits]

theorem sleepCurrent_alone (hfits : x.Fits 1) (ticks : UInt32) :
    stopped ((sleepCurrent ticks).alone x s)
      = (.done (), x, JustRT.sleepCurrent s.kernel ticks, s.pools) := by
  simp [sleepCurrent, alone_criticalExit hfits]

end Alone

end Critical

end JustRT
