import JustRT.Core

/-!
# The code follows the segments

Every call of a task, and every handler, is refined by the steps the running
system takes for it: its critical sections, and where it leaves the core, are
the segments of `JustRT.System`, and between them the kernel is left alone.

There is one rule for `critical_enter` and one for `critical_exit`, each for the
outermost section and for a nested one; the code of an operation is followed
along its paths, with the kernel carried through the section, and at its end the
kernel is the one the segment says.
-/

namespace JustRT

open Interference

namespace Critical

abbrev codeSegments {L α : Type} (good : Kernel → Prop)
    (step : L → Kernel → L → Kernel → Prop) (leave : Departure → L → L → Prop)
    (final : L → α → Prop) : Segments Shared Kernel Departure L α :=
  { abs := Shared.kernel, good, step, leave, final }

/-! ## The port and the kernel -/

/-- `critical_enter` behind its change of PRIMASK. -/
def countEntry : Code Unit := do
  .modify fun s => { s with gCriticalEntries := s.gCriticalEntries + 1 }
  let m ← readMask
  let nesting := m.gCriticalNesting + 1
  setCriticalNesting nesting
  .modify fun s =>
    if nesting > s.gCriticalNestingMax then { s with gCriticalNestingMax := nesting } else s

theorem criticalEnter_eq : criticalEnter = do
    let old ← readMask
    setPrimask true
    countEntry
    return old.primask := by
  rfl

section Rules

variable {L α β : Type} {good : Kernel → Prop} {step : L → Kernel → L → Kernel → Prop}
  {leave : Departure → L → L → Prop} {final : L → α → Prop} {x m : Mask} {l : L} {k : Kernel}
  {s : Shared}

/-! ### Under a mask -/

section Masked

variable (hm : m.primask = true)

include hm

theorem readKernel_follows {Q : Kernel → L → Mask → Kernel → Shared → Prop} :
    readKernel.Follows (codeSegments good step leave final) x Q l m k s
      ↔ Q s.kernel l m k s := by
  simp only [readKernel, Prog.follows_bind, Prog.pure_eq, Prog.follows_done]
  exact Prog.follows_read hm

theorem modifyKernel_follows {f : Kernel → Kernel}
    {Q : Unit → L → Mask → Kernel → Shared → Prop} :
    (modifyKernel f).Follows (codeSegments good step leave final) x Q l m k s
      ↔ Q () l m k { s with kernel := f s.kernel } :=
  Prog.follows_modify hm

theorem modifyGetKernel_follows {f : Kernel → β × Kernel}
    {Q : β → L → Mask → Kernel → Shared → Prop} :
    (modifyGetKernel f).Follows (codeSegments good step leave final) x Q l m k s
      ↔ Q (f s.kernel).1 l m k { s with kernel := (f s.kernel).2 } :=
  Prog.follows_modifyGet hm

theorem attemptKernel_follows {f : Kernel → Exec (β × Kernel)}
    {Q : β → L → Mask → Kernel → Shared → Prop}
    (h : ∀ a kernel, f s.kernel = .ok (a, kernel) → Q a l m k { s with kernel }) :
    (attemptKernel f).Follows (codeSegments good step leave final) x Q l m k s := by
  refine (Prog.follows_update hm).mpr ?_
  cases hf : f s.kernel with
  | ok r =>
      have hr := h r.1 r.2 hf
      simpa [hf, bind, Except.bind, pure, Except.pure] using hr
  | error e => simp [hf, bind, Except.bind]

theorem attemptUnit_follows {f : Kernel → Exec Kernel}
    {Q : Unit → L → Mask → Kernel → Shared → Prop}
    (h : ∀ kernel, f s.kernel = .ok kernel → Q () l m k { s with kernel }) :
    (attemptKernel fun k => do let k ← f k; return ((), k)).Follows
      (codeSegments good step leave final) x Q l m k s := by
  refine attemptKernel_follows hm fun a kernel hf => ?_
  obtain ⟨k', hk', hdone⟩ := exec_bind_eq_ok.mp hf
  obtain rfl : k' = kernel := congrArg Prod.snd (Except.ok.inj hdone)
  exact h k' hk'

theorem countEntry_follows {Q : Unit → L → Mask → Kernel → Shared → Prop} :
    countEntry.Follows (codeSegments good step leave final) x Q l m k s
      ↔ Q () l m.entered k (s.entered m) := by
  have hnested : InterruptMask.masked (id m) = true := hm
  have hcounted : InterruptMask.masked { m with gCriticalNesting := m.gCriticalNesting + 1 }
      = true := hm
  have hentered : { m with gCriticalNesting := m.gCriticalNesting + 1 } = m.entered := by
    rw [Mask.entered, hm]
  simp only [countEntry, readMask, setCriticalNesting, Prog.follows_bind, Prog.pure_eq,
    Prog.follows_done]
  rw [Prog.follows_modify hm, Prog.follows_changeMask hm hnested, id,
    Prog.follows_changeMask hm hcounted, Prog.follows_modify hcounted, hentered, Shared.entered]
  by_cases hmax : m.gCriticalNesting + 1 > s.gCriticalNestingMax
  · rw [if_pos hmax, if_pos hmax]
  · rw [if_neg hmax, if_neg hmax]

theorem criticalEnter_follows {Q : Bool → L → Mask → Kernel → Shared → Prop} :
    criticalEnter.Follows (codeSegments good step leave final) x Q l m k s
      ↔ Q true l m.entered k (s.entered m) := by
  have hnested : InterruptMask.masked (id m) = true := hm
  have hsame : { m with primask := true } = m := by rw [← hm]
  simp only [criticalEnter_eq, readMask, setPrimask, Prog.follows_bind, Prog.pure_eq,
    Prog.follows_done]
  rw [Prog.follows_changeMask hm hnested, id, Prog.follows_changeMask hm rfl, hsame,
    countEntry_follows hm, hm]

theorem criticalExit_follows {Q : Unit → L → Mask → Kernel → Shared → Prop}
    (hfits : m.Fits 1) :
    (criticalExit true).Follows (codeSegments good step leave final) x Q l m.entered k s
      ↔ Q () l m k s := by
  have hback : m.entered.exited true = m := by
    rw [← hm]
    exact Mask.exited_entered hfits
  have hnested : InterruptMask.masked (id m.entered) = true := rfl
  have hleft : ∀ nesting, InterruptMask.masked (⟨true, nesting⟩ : Mask) = true := fun _ => rfl
  simp only [criticalExit, readMask, setCriticalNesting, setPrimask, Prog.follows_bind,
    Prog.pure_eq, Prog.follows_done]
  rw [Prog.follows_changeMask rfl hnested, id, Prog.follows_changeMask rfl (hleft _),
    Mask.entered_primask, Prog.follows_changeMask (hleft _) rfl]
  exact iff_of_eq (congrArg (Q () l · k s) hback)

end Masked

/-- A critical section begins, ahead of it segments that change nothing. -/
theorem criticalEnter_behind {Q : Bool → L → Mask → Kernel → Shared → Prop}
    (hx : x.primask = false)
    (h : ∀ s : Shared, good s.kernel → ∃ l',
      (codeSegments good step leave final).Steps l s.kernel l' s.kernel
        ∧ Q false l' x.entered s.kernel (s.entered x)) :
    criticalEnter.Follows (codeSegments good step leave final) x Q l x k s := by
  simp only [criticalEnter_eq, readMask, setPrimask, Prog.follows_bind, Prog.pure_eq,
    Prog.follows_done]
  refine Prog.Follows.lookMask hx fun k s => ?_
  refine Prog.Follows.mask hx rfl fun s hs => ?_
  obtain ⟨l', hsteps, hq⟩ := h s hs
  refine ⟨l', hsteps, ?_⟩
  rw [countEntry_follows rfl, hx]
  exact hq

theorem criticalEnter_outer {Q : Bool → L → Mask → Kernel → Shared → Prop}
    (hx : x.primask = false)
    (h : ∀ s : Shared, good s.kernel → Q false l x.entered s.kernel (s.entered x)) :
    criticalEnter.Follows (codeSegments good step leave final) x Q l x k s :=
  criticalEnter_behind hx fun s hs => ⟨l, Segments.Steps.refl l _, h s hs⟩

/-- A critical section ends, and with it its segments. -/
theorem criticalExit_outer {Q : Unit → L → Mask → Kernel → Shared → Prop}
    (hx : x.primask = false) (hfits : x.Fits 1) {l' : L}
    (hsteps : (codeSegments good step leave final).Steps l k l' s.kernel)
    (h : Q () l' x s.kernel s) :
    (criticalExit false).Follows (codeSegments good step leave final) x Q l x.entered k s := by
  have hback : x.entered.exited false = x := by
    rw [← hx]
    exact Mask.exited_entered hfits
  have hnested : InterruptMask.masked (id x.entered) = true := rfl
  have hleft : ∀ nesting, InterruptMask.masked (⟨true, nesting⟩ : Mask) = true := fun _ => rfl
  simp only [criticalExit, readMask, setCriticalNesting, setPrimask, Prog.follows_bind,
    Prog.pure_eq, Prog.follows_done]
  rw [Prog.follows_changeMask rfl hnested, id, Prog.follows_changeMask rfl (hleft _),
    Mask.entered_primask]
  refine Prog.Follows.unmask (hleft _) rfl hback hsteps ?_
  exact (congrArg (Q () l' · s.kernel s) hback).mpr h

/-- A look at the kernel with interrupts on, where a segment may be taken. -/
theorem readKernel_open {Q : Kernel → L → Mask → Kernel → Shared → Prop}
    (hx : x.primask = false)
    (h : ∀ s : Shared, good s.kernel → ∃ l',
      (codeSegments good step leave final).Steps l s.kernel l' s.kernel
        ∧ Q s.kernel l' x s.kernel s) :
    readKernel.Follows (codeSegments good step leave final) x Q l x k s := by
  simp only [readKernel, Prog.follows_bind, Prog.pure_eq, Prog.follows_done]
  exact Prog.Follows.update_open hx h

theorem readKernel_stutter {Q : Kernel → L → Mask → Kernel → Shared → Prop}
    (hx : x.primask = false)
    (h : ∀ s : Shared, good s.kernel → Q s.kernel l x s.kernel s) :
    readKernel.Follows (codeSegments good step leave final) x Q l x k s :=
  readKernel_open hx fun s hs => ⟨l, Segments.Steps.refl l _, h s hs⟩

/-! ### Functions called inside a critical section -/

section Nested

variable (hm : m.primask = true) (hfits : m.Fits 1)

include hm hfits

theorem taskWakeGetId_follows {object : WaitObject} {waitKind : TaskWaitKind}
    {Q : Option Nat → L → Mask → Kernel → Shared → Prop} :
    (taskWakeGetId object waitKind).Follows (codeSegments good step leave final) x Q l m k s
      ↔ Q (JustRT.taskWakeGetId s.kernel object waitKind).1 l m k
          { s.entered m with kernel := (JustRT.taskWakeGetId s.kernel object waitKind).2 } := by
  simp only [taskWakeGetId, Prog.follows_bind, Prog.pure_eq, Prog.follows_done,
    criticalEnter_follows hm, modifyGetKernel_follows (m := m.entered) rfl,
    criticalExit_follows hm hfits]

theorem taskWake_follows {object : WaitObject} {waitKind : TaskWaitKind}
    {Q : Bool → L → Mask → Kernel → Shared → Prop} :
    (taskWake object waitKind).Follows (codeSegments good step leave final) x Q l m k s
      ↔ Q (JustRT.taskWake s.kernel object waitKind).1 l m k
          { s.entered m with kernel := (JustRT.taskWake s.kernel object waitKind).2 } := by
  simp only [taskWake, Prog.follows_bind, Prog.pure_eq, Prog.follows_done,
    taskWakeGetId_follows hm hfits]
  rfl

theorem taskInheritPriority_follows {taskId priority : Nat}
    {Q : Unit → L → Mask → Kernel → Shared → Prop} :
    (taskInheritPriority taskId priority).Follows (codeSegments good step leave final) x Q l m k s
      ↔ Q () l m k { s.entered m with
          kernel := JustRT.taskInheritPriority s.kernel taskId priority } := by
  simp only [taskInheritPriority, Prog.follows_bind, criticalEnter_follows hm,
    modifyKernel_follows (m := m.entered) rfl, criticalExit_follows hm hfits]

theorem taskRestorePriority_follows {taskId : Nat}
    {Q : Unit → L → Mask → Kernel → Shared → Prop} :
    (taskRestorePriority taskId).Follows (codeSegments good step leave final) x Q l m k s
      ↔ Q () l m k { s.entered m with
          kernel := JustRT.taskRestorePriority s.kernel taskId } := by
  simp only [taskRestorePriority, Prog.follows_bind, criticalEnter_follows hm,
    modifyKernel_follows (m := m.entered) rfl, criticalExit_follows hm hfits]

theorem queueWakeReceiver_follows {queue : Ptr} {Q : Unit → L → Mask → Kernel → Shared → Prop} :
    (queueWakeReceiver queue).Follows (codeSegments good step leave final) x Q l m k s
      ↔ Q () l m k { s.entered m with kernel := JustRT.queueWakeReceiver s.kernel queue } := by
  simp only [queueWakeReceiver, Prog.follows_bind, taskWake_follows hm hfits,
    modifyKernel_follows hm]
  rfl

theorem queueWakeSender_follows {queue : Ptr} {Q : Unit → L → Mask → Kernel → Shared → Prop} :
    (queueWakeSender queue).Follows (codeSegments good step leave final) x Q l m k s
      ↔ Q () l m k { s.entered m with kernel := JustRT.queueWakeSender s.kernel queue } := by
  simp only [queueWakeSender, Prog.follows_bind, taskWake_follows hm hfits,
    modifyKernel_follows hm]
  rfl

end Nested

end Rules

/-! ## The segments of a task -/

def shown (s : Segment) : List Event :=
  s.output.toList.map .output ++ s.result.toList.map .result

/-- Where a task stands in its calls: the call it has made, as long as no
segment of it has been taken, its program counter, and what the segments have
shown of the call so far. -/
structure Label where
  todo : Option Call
  pc : Pc
  owed : List Event

/-- One segment of a task. Those that switch are taken where the code leaves
the core. -/
inductive Label.Step : Label → Kernel → Label → Kernel → Prop where
  | enter {call : Call} {k : Kernel} {s : Segment} : enter k call = .ok s → s.switch = false →
      Step ⟨some call, .user, []⟩ k ⟨none, s.pc, shown s⟩ s.kernel
  | proceed {pc : Pc} {owed : List Event} {k : Kernel} {s : Segment} (source : Nat → UInt8) :
      proceed k source pc = some (.ok s) → s.switch = false →
      Step ⟨none, pc, owed⟩ k ⟨none, s.pc, owed ++ shown s⟩ s.kernel

inductive Label.Leave : Departure → Label → Label → Prop where
  | archYield {call : WaitCall} {owed : List Event} :
      Leave .archYield ⟨none, .yielding call, owed⟩ ⟨none, .resumed call, owed⟩
  | archRequestSwitch {result : UInt32} {owed : List Event} :
      Leave .archRequestSwitch ⟨none, .requestSwitch result, owed⟩
        ⟨none, .user, owed ++ [.result result]⟩
  | jrtTaskDelay {nextWake now : UInt32} {owed : List Event} :
      signedNonneg (now - nextWake) = false →
      Leave (.jrtTaskDelay (nextWake - now)) ⟨none, .delaying nextWake now, owed⟩
        ⟨none, .user, owed ++ [.result 0]⟩

abbrev threadSegments (i n : Nat) : Segments Shared Kernel Departure Label Return :=
  codeSegments (fun k => k.gCurrentTaskIndex = i ∧ k.taskCount = n) Label.Step Label.Leave
    fun l r => l = ⟨none, .user, r.events⟩

section Threads

variable {i n : Nat} {x : Mask} {l : Label} {k : Kernel} {s : Shared} {α : Type}

/-- The call is over, or it takes no more than a segment that leaves the kernel
as it is. -/
def Ends (i n : Nat) (l : Label) (events : List Event) : Prop :=
  ∀ k : Kernel, k.gCurrentTaskIndex = i ∧ k.taskCount = n →
    (threadSegments i n).Steps l k ⟨none, .user, events⟩ k

theorem Ends.refl (events : List Event) : Ends i n ⟨none, .user, events⟩ events :=
  fun _ _ => Segments.Steps.refl _ _

theorem Ends.enter {call : Call} {events : List Event}
    (h : ∀ k : Kernel, k.gCurrentTaskIndex = i ∧ k.taskCount = n →
      ∃ s, JustRT.enter k call = .ok s ∧ s.switch = false ∧ s.kernel = k ∧ s.pc = .user
        ∧ shown s = events) : Ends i n ⟨some call, .user, []⟩ events := by
  intro k hk
  obtain ⟨s, henter, hswitch, hkernel, hpc, hshown⟩ := h k hk
  have hstep : Label.Step ⟨some call, .user, []⟩ k ⟨none, s.pc, shown s⟩ s.kernel :=
    .enter henter hswitch
  rw [hkernel, hpc, hshown] at hstep
  exact Segments.Steps.single hstep

theorem Ends.proceed {pc : Pc} {owed events : List Event} (source : Nat → UInt8)
    (h : ∀ k : Kernel, ∃ s, JustRT.proceed k source pc = some (.ok s) ∧ s.switch = false
      ∧ s.kernel = k ∧ s.pc = .user ∧ owed ++ shown s = events) :
    Ends i n ⟨none, pc, owed⟩ events := by
  intro k _
  obtain ⟨s, hproceed, hswitch, hkernel, hpc, hshown⟩ := h k
  have hstep : Label.Step ⟨none, pc, owed⟩ k ⟨none, s.pc, owed ++ shown s⟩ s.kernel :=
    .proceed source hproceed hswitch
  rw [hkernel, hpc, hshown] at hstep
  exact Segments.Steps.single hstep

/-- A call that only looks at its arguments, in its second segment. -/
theorem Ends.enter_proceed {call : Call} {pc : Pc} {events : List Event} (source : Nat → UInt8)
    (henter : ∀ k, JustRT.enter k call = .ok { kernel := k, pc := pc })
    (h : ∀ k : Kernel, ∃ s, JustRT.proceed k source pc = some (.ok s) ∧ s.switch = false
      ∧ s.kernel = k ∧ s.pc = .user ∧ shown s = events) :
    Ends i n ⟨some call, .user, []⟩ events := by
  intro k hk
  have hstep := Label.Step.enter (henter k) rfl
  exact (Segments.Steps.single hstep).trans (Ends.proceed source h k hk)

/-- From `l` on the code follows the segments of a task, and ends a call with
`events` where it returns. -/
def Returns (i n : Nat) (x : Mask) (p : Code α) (l : Label) (m : Mask) (k : Kernel) (s : Shared)
    (events : α → List Event) : Prop :=
  p.Follows (threadSegments i n) x (fun a l m _ _ => m = x ∧ Ends i n l (events a)) l m k s

/-- A section ends with the first segment of a call. -/
theorem criticalExit_enter {Q : Unit → Label → Mask → Kernel → Shared → Prop} {call : Call}
    {segment : Segment} (hx : x.primask = false) (hfits : x.Fits 1)
    (henter : enter k call = .ok segment) (hswitch : segment.switch = false)
    (hkernel : segment.kernel = s.kernel)
    (h : Q () ⟨none, segment.pc, shown segment⟩ x s.kernel s) :
    (criticalExit false).Follows (threadSegments i n) x Q ⟨some call, .user, []⟩ x.entered k s := by
  refine criticalExit_outer hx hfits (Segments.Steps.single ?_) h
  rw [← hkernel]
  exact .enter henter hswitch

theorem criticalExit_proceed {Q : Unit → Label → Mask → Kernel → Shared → Prop} {pc : Pc}
    {owed : List Event} {segment : Segment} (source : Nat → UInt8) (hx : x.primask = false)
    (hfits : x.Fits 1) (hproceed : proceed k source pc = some (.ok segment))
    (hswitch : segment.switch = false) (hkernel : segment.kernel = s.kernel)
    (h : Q () ⟨none, segment.pc, owed ++ shown segment⟩ x s.kernel s) :
    (criticalExit false).Follows (threadSegments i n) x Q ⟨none, pc, owed⟩ x.entered k s := by
  refine criticalExit_outer hx hfits (Segments.Steps.single ?_) h
  rw [← hkernel]
  exact .proceed source hproceed hswitch

theorem criticalExit_yielding {Q : Unit → Label → Mask → Kernel → Shared → Prop}
    {wait : WaitCall} {reserved : Bool} (source : Nat → UInt8) (hx : x.primask = false)
    (hfits : x.Fits 1)
    (hproceed : proceedEntered k source reserved wait
      = .ok { kernel := s.kernel, pc := .yielding wait })
    (h : Q () ⟨none, .yielding wait, []⟩ x s.kernel s) :
    (criticalExit false).Follows (threadSegments i n) x Q ⟨none, .entered wait reserved, []⟩
      x.entered k s :=
  criticalExit_proceed source hx hfits (congrArg some hproceed) rfl rfl h

/-- The only section of a call ends, and the call requests a switch. -/
theorem criticalExit_requests {Q : Unit → Label → Mask → Kernel → Shared → Prop} {call : Call}
    (result : UInt32) (hx : x.primask = false) (hfits : x.Fits 1)
    (henter : enter k call = .ok { kernel := s.kernel, pc := .requestSwitch result })
    (h : Q () ⟨none, .requestSwitch result, []⟩ x s.kernel s) :
    (criticalExit false).Follows (threadSegments i n) x Q ⟨some call, .user, []⟩ x.entered k s :=
  criticalExit_enter hx hfits henter rfl rfl h

/-- The only section of a call ends, and the call returns. -/
theorem exit_returns {call : Call} {result : UInt32} {a : α} {events : α → List Event}
    (hx : x.primask = false) (hfits : x.Fits 1)
    (henter : enter k call = .ok (.ret s.kernel result)) (hevents : events a = [.result result]) :
    Returns i n x (do criticalExit false; return a) ⟨some call, .user, []⟩ x.entered k s
      events := by
  simp only [Returns, Prog.follows_bind, Prog.pure_eq, Prog.follows_done]
  refine criticalExit_enter hx hfits henter rfl rfl ⟨rfl, ?_⟩
  rw [hevents]
  exact Ends.refl _

/-- The section of a blocking call ends, and the call returns with an output. -/
theorem exit_entered_output {wait : WaitCall} {reserved : Bool} {output : Option Output}
    {result : UInt32} {a : α} {events : α → List Event} (source : Nat → UInt8)
    (hx : x.primask = false) (hfits : x.Fits 1)
    (hproceed : proceedEntered k source reserved wait
      = .ok { Segment.ret s.kernel result with output := output })
    (hevents : events a = output.toList.map .output ++ [.result result]) :
    Returns i n x (do criticalExit false; return a) ⟨none, .entered wait reserved, []⟩ x.entered
      k s events := by
  simp only [Returns, Prog.follows_bind, Prog.pure_eq, Prog.follows_done]
  refine criticalExit_proceed source hx hfits (congrArg some hproceed) rfl rfl ⟨rfl, ?_⟩
  rw [hevents]
  exact Ends.refl _

theorem exit_entered {wait : WaitCall} {reserved : Bool} {result : UInt32} {a : α}
    {events : α → List Event} (source : Nat → UInt8) (hx : x.primask = false) (hfits : x.Fits 1)
    (hproceed : proceedEntered k source reserved wait = .ok (.ret s.kernel result))
    (hevents : events a = [.result result]) :
    Returns i n x (do criticalExit false; return a) ⟨none, .entered wait reserved, []⟩ x.entered
      k s events :=
  exit_entered_output source hx hfits hproceed hevents

/-- A call whose first segment stands for no code of its own enters its critical
section. -/
theorem criticalEnter_enter {Q : Bool → Label → Mask → Kernel → Shared → Prop} {call : Call}
    {pc : Pc} (hx : x.primask = false) (henter : ∀ k, enter k call = .ok { kernel := k, pc := pc })
    (h : ∀ s : Shared, Q false ⟨none, pc, []⟩ x.entered s.kernel (s.entered x)) :
    criticalEnter.Follows (threadSegments i n) x Q ⟨some call, .user, []⟩ x k s :=
  criticalEnter_behind hx fun s _ =>
    ⟨_, Segments.Steps.single (Label.Step.enter (henter s.kernel) rfl), h s⟩

/-- The deadline of a blocking call is its first segment. -/
theorem taskWaitDeadline_follows {Q : TaskWaitDeadline → Label → Mask → Kernel → Shared → Prop}
    {call : Call} {timeoutTicks : UInt32} (wait : TaskWaitDeadline → WaitCall)
    (hx : x.primask = false) (hfits : x.Fits 1)
    (henter : ∀ k, enter k call
      = .ok { kernel := k, pc := .entered (wait (JustRT.taskWaitDeadline k timeoutTicks)) false })
    (h : ∀ deadline k s, Q deadline ⟨none, .entered (wait deadline) false, []⟩ x k s) :
    (taskWaitDeadline timeoutTicks).Follows (threadSegments i n) x Q ⟨some call, .user, []⟩ x k
      s := by
  simp only [taskWaitDeadline, Prog.follows_bind, Prog.pure_eq, Prog.follows_done]
  refine criticalEnter_outer hx fun s _ => ?_
  rw [readKernel_follows rfl]
  exact criticalExit_enter hx hfits (henter _) rfl rfl (h _ _ _)

/-- The section of a blocking call ends in a wait, or the deadline has
passed. -/
theorem taskBlockUntilLocked_follows {Q : UInt32 → Label → Mask → Kernel → Shared → Prop}
    {wait : WaitCall} {reserved : Bool} {object : WaitObject} {waitKind : TaskWaitKind}
    {deadline : TaskWaitDeadline} (source : Nat → UInt8) (hx : x.primask = false)
    (hfits : x.Fits 1)
    (hproceed : proceedEntered k source reserved wait
      = .ok (.ofFlow wait (JustRT.taskBlockUntilLocked s.kernel object waitKind deadline)))
    (hpassed : ∀ k s, Q 0 ⟨none, .user, [.result 0]⟩ x k s)
    (hresumed : ∀ k s,
      waitResult.Follows (threadSegments i n) x Q ⟨none, .resumed wait, []⟩ x k s) :
    (taskBlockUntilLocked object waitKind deadline false).Follows (threadSegments i n) x Q
      ⟨none, .entered wait reserved, []⟩ x.entered k s := by
  simp only [taskBlockUntilLocked, Prog.follows_bind]
  rw [readKernel_follows rfl]
  split
  · next hlate =>
      rw [JustRT.taskBlockUntilLocked, if_pos hlate] at hproceed
      simp only [Prog.follows_bind, Prog.pure_eq, Prog.follows_done]
      exact criticalExit_proceed source hx hfits (congrArg some hproceed) rfl rfl (hpassed _ _)
  · next htime =>
      rw [JustRT.taskBlockUntilLocked, if_neg htime] at hproceed
      simp only [Prog.follows_bind]
      rw [modifyKernel_follows rfl]
      refine criticalExit_yielding source hx hfits hproceed ?_
      exact Prog.Follows.leaveAt .archYield hresumed

/-- The result of a wait is what the task resumes with. -/
theorem waitResult_follows {Q : UInt32 → Label → Mask → Kernel → Shared → Prop} {wait : WaitCall}
    (hx : x.primask = false)
    (h : ∀ s : Shared, Q (s.kernel.tasks s.kernel.currentTask).waitResult
      ⟨none, (proceedResumed s.kernel wait).pc, shown (proceedResumed s.kernel wait)⟩ x s.kernel s)
    (hkernel : ∀ k, (proceedResumed k wait).kernel = k ∧ (proceedResumed k wait).switch = false) :
    waitResult.Follows (threadSegments i n) x Q ⟨none, .resumed wait, []⟩ x k s := by
  simp only [waitResult, Prog.follows_bind, Prog.pure_eq, Prog.follows_done]
  refine readKernel_open hx fun s _ => ⟨_, Segments.Steps.single ?_, h s⟩
  have hstep : Label.Step ⟨none, .resumed wait, []⟩ s.kernel
      ⟨none, (proceedResumed s.kernel wait).pc, [] ++ shown (proceedResumed s.kernel wait)⟩
      (proceedResumed s.kernel wait).kernel :=
    .proceed (fun _ => 0) rfl (hkernel s.kernel).2
  rw [(hkernel s.kernel).1] at hstep
  exact hstep

/-- The section behind a yield ends, and the call returns. -/
theorem exit_resumed {wait : WaitCall} {a : α} {events : α → List Event}
    (hx : x.primask = false) (hfits : x.Fits 1)
    (hkernel : (proceedResumed k wait).kernel = s.kernel)
    (hswitch : (proceedResumed k wait).switch = false)
    (hpc : (proceedResumed k wait).pc = .user)
    (hevents : events a = shown (proceedResumed k wait)) :
    Returns i n x (do criticalExit false; return a) ⟨none, .resumed wait, []⟩ x.entered k s
      events := by
  simp only [Returns, Prog.follows_bind, Prog.pure_eq, Prog.follows_done]
  refine criticalExit_proceed (fun _ => 0) hx hfits rfl hswitch hkernel ⟨rfl, ?_⟩
  rw [hevents, hpc]
  exact Ends.refl _

/-- Where the code of a call returns, so does the call. -/
theorem Returns.refines {p : Code α} {m : Mask} {events : α → List Event}
    (h : Returns i n x p l m k s events) (f : α → Return)
    (hf : ∀ a, (f a).events = events a) :
    (do let a ← p; return f a).Refines (threadSegments i n) x l m k s := by
  simp only [Prog.Refines, Prog.follows_bind, Prog.pure_eq, Prog.follows_done]
  refine Prog.Follows.mono h fun a l m _ _ hends => ⟨hends.1, fun k hk => ?_⟩
  exact ⟨_, hends.2 k hk, by rw [hf]⟩

end Threads

end Critical

end JustRT
