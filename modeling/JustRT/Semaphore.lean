import JustRT.Grant

/-!
# Binary semaphores

A give hands the token to a waiter or leaves it in the flag; a take finds
it in the flag or waits for it. Every token is accounted for: it is in the
flag, was granted to a task, or was given while the flag was up.

A token that is handed over is never in the flag, so between a give and
the return of the take it woke there is nothing in the semaphore to show
for it: the account is kept with the grants of `JustRT.Grant`, over all
tasks for the conservation and for one task for what its takes return.
-/

namespace JustRT

open Tally

/-- The place at which the tasks wait for a semaphore. -/
def semaphorePlace (s : Ptr) : WaitPlace := ⟨.ptr s, .semaphore⟩

def Action.gives (s : Ptr) : Action → Bool
  | .call (.semaphoreGive a) | .isr (.semaphoreGiveFromIsr a) => a == s
  | _ => false

def Action.createsSemaphore (s : Ptr) : Action → Bool
  | .call (.semaphoreCreateBinaryStatic a _) => a == s
  | _ => false

/-- What a take of task `i` returns, if the step returns from one. -/
def Transition.takeResult (s : Ptr) (i : Nat) (x : Transition) : Option UInt32 :=
  match x.action with
  | .proceed _ =>
      match (x.pre.pc x.pre.current).waitCall with
      | some (.semaphoreTake a _ _) =>
          if a = s ∧ i = x.pre.current then x.observation.result else none
      | _ => none
  | _ => none

/-- The step takes the token out of the flag for task `i`. -/
def Transition.takesFlag (s : Ptr) (i : Nat) (x : Transition) : Bool :=
  match x.action with
  | .proceed _ =>
      match x.pre.pc x.pre.current with
      | .entered (.semaphoreTake a _ _) _ =>
          a == s && i == x.pre.current && x.observation.result == some 1
      | _ => false
  | _ => false

/-- The step grants the token to task `i`: out of the flag, or by a wake. -/
def Transition.grantsTo (s : Ptr) (i : Nat) (x : Transition) : Bool :=
  x.takesFlag s i
    || (!x.pre.granted (semaphorePlace s) i && x.post.granted (semaphorePlace s) i)

/-! ## The critical sections -/

section Sections

variable {k : Kernel} {s : Ptr} {i : Nat}

theorem waitsAt_semaphorePlace_iff {w : WaitCall} : w.waitsAt i (semaphorePlace s) = true
    ↔ ∃ timeout deadline, w = .semaphoreTake s timeout deadline := by
  rw [waitsAt_iff]
  cases w <;> simp [WaitCall.object, WaitCall.kind, semaphorePlace]

theorem jrtSemaphoreTake_cases (k : Kernel) (s : Ptr) (timeout : UInt32)
    (deadline : TaskWaitDeadline) :
    ((k.semaphores s).available ≠ 0
        ∧ jrtSemaphoreTake k s timeout deadline false
          = (.returns 1, k.setSemaphore s { available := 0 }))
      ∨ ((k.semaphores s).available = 0
        ∧ (jrtSemaphoreTake k s timeout deadline false = (.returns 0, k)
          ∨ jrtSemaphoreTake k s timeout deadline false
            = (.yields, taskWaitBeginUntil k k.currentTask (.ptr s) .semaphore deadline))) := by
  simp only [jrtSemaphoreTake, Bool.false_eq_true, if_false]
  by_cases havailable : (k.semaphores s).available ≠ 0
  · rw [if_pos havailable]
    exact Or.inl ⟨havailable, rfl⟩
  · rw [if_neg havailable]
    refine Or.inr ⟨not_not.mp havailable, ?_⟩
    by_cases htimeout : timeout = 0
    · rw [if_pos htimeout]
      exact Or.inl rfl
    · rw [if_neg htimeout, taskBlockUntilLocked]
      split
      · exact Or.inl rfl
      · exact Or.inr rfl

/-- A give hands the token to the selected waiter, or puts it in the flag. -/
theorem semaphoreGiveLocked_spec (k : Kernel) (s : Ptr) :
    (semaphoreGiveLocked k s).view = k.wokenView (semaphorePlace s)
      ∧ ∀ a, ((semaphoreGiveLocked k s).semaphores a).available
        = if a = s ∧ (k.selected (semaphorePlace s)).isSome = false then 1
          else (k.semaphores a).available := by
  rw [← wakeSelected_view]
  simp only [semaphoreGiveLocked, taskWake_eq]
  rw [show wakeSelect k (.ptr s) .semaphore = k.selected (semaphorePlace s) from rfl]
  cases k.selected (semaphorePlace s) with
  | none =>
      refine ⟨rfl, fun a => ?_⟩
      by_cases ha : a = s
      · simp [ha, setSemaphore_semaphores]
      · simp [ha, setSemaphore_semaphores]
  | some t =>
      refine ⟨rfl, fun a => ?_⟩
      simp

end Sections

/-! ## What a step does to one task's tokens -/

section Task

variable {c c' : Cfg} {a : Action} {o : Observation} {s : Ptr} {i : Nat}

/-- A step that is not a segment of the task takes and returns nothing for
it. -/
theorem takes_nothing (hown : ∀ source, a = .proceed source → i ≠ c.current) :
    Transition.takesFlag s i ⟨c, a, o, c'⟩ = false
      ∧ Transition.takeResult s i ⟨c, a, o, c'⟩ = none := by
  unfold Transition.takesFlag Transition.takeResult
  cases a with
  | proceed source =>
      have hi := hown source rfl
      constructor
      · cases c.pc c.current with
        | entered w r => cases w <;> simp [hi]
        | _ => rfl
      · cases (c.pc c.current).waitCall with
        | none => rfl
        | some w => cases w <;> simp [hi]
  | _ => exact ⟨rfl, rfl⟩

/-- A segment outside the takes of the semaphore takes and returns nothing. -/
theorem takes_nothing_elsewhere
    (hcall : ∀ timeout deadline,
      (c.pc c.current).waitCall ≠ some (.semaphoreTake s timeout deadline)) :
    Transition.takesFlag s i ⟨c, a, o, c'⟩ = false
      ∧ Transition.takeResult s i ⟨c, a, o, c'⟩ = none := by
  unfold Transition.takesFlag Transition.takeResult
  cases a with
  | proceed source =>
      cases hpc : c.pc c.current with
      | entered w r =>
          rw [hpc] at hcall
          cases w with
          | semaphoreTake b timeout deadline =>
              have hb : b ≠ s := fun heq => hcall timeout deadline (by rw [heq]; rfl)
              simp [Pc.waitCall, hb]
          | _ => exact ⟨rfl, rfl⟩
      | yielding w | resumed w =>
          rw [hpc] at hcall
          cases w with
          | semaphoreTake b timeout deadline =>
              have hb : b ≠ s := fun heq => hcall timeout deadline (by rw [heq]; rfl)
              simp [Pc.waitCall, hb]
          | _ => exact ⟨rfl, rfl⟩
      | _ => exact ⟨rfl, rfl⟩
  | _ => exact ⟨rfl, rfl⟩

theorem new_grant_add {before behind : Bool} (h : before = true → behind = true) :
    (!before && behind).toNat + before.toNat = behind.toNat := by
  cases before <;> cases behind <;> simp_all

/-- A task in no call at the semaphore holds no grant of it. -/
theorem not_granted_of_waitCall
    (hcall : ∀ timeout deadline, (c.pc i).waitCall ≠ some (.semaphoreTake s timeout deadline)) :
    c.granted (semaphorePlace s) i = false := by
  rw [← Bool.not_eq_true]
  intro hg
  obtain ⟨w, hat, hw⟩ := exists_waitsAt_of_granted hg
  obtain ⟨timeout, deadline, rfl⟩ := waitsAt_semaphorePlace_iff.mp hat
  refine hcall timeout deadline ?_
  rcases hw with hwithin | hentered
  · exact hwithin.waitCall
  · rw [hentered]
    rfl

/-- The tokens of one task: what it was granted, and had been, it returns or
still holds. -/
structure Transition.TaskTokens (s : Ptr) (i : Nat) (x : Transition) : Prop where
  balance : (x.grantsTo s i).toNat + (x.pre.granted (semaphorePlace s) i).toNat
    = (if x.takeResult s i = some 1 then 1 else 0) + (x.post.granted (semaphorePlace s) i).toNat
  bit : ∀ r, x.takeResult s i = some r → r = 0 ∨ r = 1

/-- Where nothing is taken or returned, a grant has to stay where it is. -/
theorem taskTokens_of_nothing {x : Transition}
    (hnothing : x.takesFlag s i = false ∧ x.takeResult s i = none)
    (hkept : x.pre.granted (semaphorePlace s) i = true →
      x.post.granted (semaphorePlace s) i = true) : x.TaskTokens s i := by
  obtain ⟨htakes, hresult⟩ := hnothing
  refine ⟨?_, fun r hr => ?_⟩
  · rw [Transition.grantsTo, htakes, hresult, Bool.false_or, new_grant_add hkept]
    simp
  · rw [hresult] at hr
    cases hr

/-- A take holds no grant ahead of its critical section, and if it holds none
behind it either, it returns what it took out of the flag. -/
theorem taskTokens_of_entered {source : Nat → UInt8} {timeout : UInt32}
    {deadline : TaskWaitDeadline}
    (hpc : c.pc c.current = .entered (.semaphoreTake s timeout deadline) false)
    (hresult : o.result = none ∨ o.result = some 0 ∨ o.result = some 1)
    (hbehind : c'.granted (semaphorePlace s) c.current = false) :
    Transition.TaskTokens s c.current ⟨c, .proceed source, o, c'⟩ := by
  have hbefore : c.granted (semaphorePlace s) c.current = false := by
    rw [granted_entered hpc, Bool.and_false]
  rcases hresult with hresult | hresult | hresult <;> constructor <;>
    simp [Transition.grantsTo, Transition.takesFlag, Transition.takeResult, hpc, Pc.waitCall,
      hbefore, hbehind, hresult]

/-- The critical section of a take: the flag, nothing, or a wait. -/
theorem taskTokens_entered (h : Sched c) (hr : ReservedInQueue c) {source : Nat → UInt8}
    {timeout : UInt32} {deadline : TaskWaitDeadline} {r : Bool} {sg : Segment}
    (hpc : c.pc c.current = .entered (.semaphoreTake s timeout deadline) r)
    (hs : proceedEntered c.kernel source r (.semaphoreTake s timeout deadline) = .ok sg) :
    Transition.TaskTokens s c.current
      ⟨c, .proceed source, { result := sg.result, output := sg.output }, c.after sg⟩ := by
  have hfree : r = false := by
    cases r with
    | false => rfl
    | true => rcases hr _ _ hpc with hq | hq <;> cases hq
  subst hfree
  obtain rfl := Except.ok.inj hs
  rcases jrtSemaphoreTake_cases c.kernel s timeout deadline with ⟨-, heq⟩ | ⟨-, heq | heq⟩
  · rw [heq]
    exact taskTokens_of_entered hpc (Or.inr (Or.inr rfl)) (granted_user (Sched.after_pc_current _))
  · rw [heq]
    exact taskTokens_of_entered hpc (Or.inr (Or.inl rfl)) (granted_user (Sched.after_pc_current _))
  · have hview := taskWaitBeginUntil_view c.kernel c.current (.ptr s) .semaphore deadline
    rw [heq, h.currentTask]
    refine taskTokens_of_entered hpc (Or.inl rfl) ?_
    rw [granted_of_block (p := semaphorePlace s) hpc rfl hview rfl c.current, granted_entered hpc,
      Bool.and_false]

/-- The end of a wait returns the grant the task holds, if it holds one. -/
theorem taskTokens_resumed (h : Sched c) (hpending : c.pending = false) {source : Nat → UInt8}
    {timeout : UInt32} {deadline : TaskWaitDeadline} {sg : Segment}
    (hpc : c.pc c.current = .resumed (.semaphoreTake s timeout deadline))
    (hsg : sg = proceedResumed c.kernel (.semaphoreTake s timeout deadline)) :
    Transition.TaskTokens s c.current
      ⟨c, .proceed source, { result := sg.result, output := sg.output }, c.after sg⟩ := by
  subst hsg
  have hrun := h.current_running hpending (by simp [hpc])
  have hwait := (h.waiting c.current _ (Or.inr hpc)).result (by simp [hrun])
  have hat : (WaitCall.semaphoreTake s timeout deadline).waitsAt c.current
      (semaphorePlace s) = true := waitsAt_semaphorePlace_iff.mpr ⟨_, _, rfl⟩
  have hbefore : c.granted (semaphorePlace s) c.current = true
      ↔ (c.kernel.view c.current).waitResult = 1 := by
    rw [granted_within (Or.inr hpc)]
    exact ⟨fun hand => hand.2.2, fun hone => ⟨hat, by simp [hrun], hone⟩⟩
  have hresult : (proceedResumed c.kernel (.semaphoreTake s timeout deadline)).result
      = some (c.kernel.view c.current).waitResult := by
    rw [view_waitResult, ← h.currentTask]
    rfl
  have hbehind : (c.after (proceedResumed c.kernel (.semaphoreTake s timeout deadline))).granted
      (semaphorePlace s) c.current = false := granted_user (Sched.after_pc_current _)
  rcases hwait with hzero | hone
  · have hno : c.granted (semaphorePlace s) c.current = false := by
      rw [← Bool.not_eq_true, hbefore, hzero]
      decide
    constructor <;>
      simp [Transition.grantsTo, Transition.takesFlag, Transition.takeResult, hpc, Pc.waitCall,
        hbehind, hresult, hno, hzero]
  · constructor <;>
      simp [Transition.grantsTo, Transition.takesFlag, Transition.takeResult, hpc, Pc.waitCall,
        hbehind, hresult, hbefore.mpr hone, hone]

/-- A segment of a task inside a take of the semaphore. -/
theorem taskTokens_segment (h : Sched c) (hr : ReservedInQueue c) (hpending : c.pending = false)
    {timeout : UInt32} {deadline : TaskWaitDeadline} {sg : Segment} (hseg : ThreadSegment c a sg)
    (hcall : (c.pc c.current).waitCall = some (.semaphoreTake s timeout deadline)) :
    Transition.TaskTokens s c.current
      ⟨c, a, { result := sg.result, output := sg.output }, c.after sg⟩ := by
  obtain ⟨source, rfl⟩ := hseg.proceeds fun huser => by
    rw [huser] at hcall
    cases hcall
  cases hpc : c.pc c.current with
  | entered w r =>
      rw [hpc] at hcall
      obtain rfl : w = .semaphoreTake s timeout deadline := Option.some.inj hcall
      exact taskTokens_entered h hr hpc (hseg.of_entered hpc)
  | yielding w =>
      obtain rfl := hseg.of_yielding hpc
      refine taskTokens_of_nothing ⟨?_, ?_⟩ fun hg => ?_
      · simp [Transition.takesFlag, hpc]
      · rw [hpc] at hcall
        simp [Transition.takeResult, hpc, hcall]
      · rw [granted_within (Or.inr (Sched.after_pc_current _))]
        exact (granted_within (Or.inl hpc)).mp hg
  | resumed w =>
      rw [hpc] at hcall
      obtain rfl : w = .semaphoreTake s timeout deadline := Option.some.inj hcall
      exact taskTokens_resumed h hpending hpc (hseg.of_resumed hpc)
  | user | idle | requestSwitch | delaying =>
      rw [hpc] at hcall
      cases hcall

theorem token_task_step (h : Sched c) (hr : ReservedInQueue c) (hstep : StepCases c a c' o)
    (hi : i < c.kernel.taskCount) : Transition.TaskTokens s i ⟨c, a, o, c'⟩ := by
  by_cases hown : ∃ sg, ThreadSegment c a sg ∧ i = c.current
  · obtain ⟨sg', hseg', rfl⟩ := hown
    by_cases hcall : ∃ timeout deadline,
        (c.pc c.current).waitCall = some (.semaphoreTake s timeout deadline)
    · obtain ⟨timeout, deadline, hcall⟩ := hcall
      cases hstep with
      | thread _ hpending hseg => exact taskTokens_segment h hr hpending hseg hcall
      | start | tick | isr | pendsv | store | cycles => cases hseg'
    · have hcall' : ∀ timeout deadline,
          (c.pc c.current).waitCall ≠ some (.semaphoreTake s timeout deadline) :=
        fun timeout deadline heq => hcall ⟨timeout, deadline, heq⟩
      refine taskTokens_of_nothing (takes_nothing_elsewhere hcall') fun hg => ?_
      rw [not_granted_of_waitCall hcall'] at hg
      cases hg
  · have hothers : ∀ sg, ThreadSegment c a sg → i ≠ c.current := fun sg hseg hic =>
      hown ⟨sg, hseg, hic⟩
    refine taskTokens_of_nothing (takes_nothing fun source ha => ?_) fun hg =>
      (granted_kept h hstep hi hg hothers).1
    subst ha
    cases hstep with
    | thread _ _ hseg => exact hothers _ hseg

end Task

/-! ## Every way to treat a semaphore -/

/-- A step as the semaphore sees it: nothing it hands out changes, the running
task takes its token, or a give wakes a waiter or leaves a token. A give at an
available semaphore leaves one token, as the binary semaphore is meant to. -/
inductive SemaphoreStep (s : Ptr) (x : Transition) : Prop where
  | kept : x.action.gives s = false → (∀ i, x.takesFlag s i = false) →
      (x.post.kernel.semaphores s).available = (x.pre.kernel.semaphores s).available →
      (∀ i < x.pre.kernel.taskCount, x.post.granted (semaphorePlace s) i = true →
        x.pre.granted (semaphorePlace s) i = true) →
      (x.post.kernel.Waited (semaphorePlace s) → x.pre.kernel.Waited (semaphorePlace s)
        ∨ (x.pre.kernel.semaphores s).available = 0) →
      SemaphoreStep s x
  | took : x.action.gives s = false → (∀ i, x.takesFlag s i = (i == x.pre.current)) →
      (x.pre.kernel.semaphores s).available ≠ 0 →
      (x.post.kernel.semaphores s).available = 0 →
      (∀ i < x.pre.kernel.taskCount, x.post.granted (semaphorePlace s) i = true →
        x.pre.granted (semaphorePlace s) i = true) →
      SemaphoreStep s x
  | gave {woken : Bool} : x.action.gives s = true → (∀ i, x.takesFlag s i = false) →
      (x.post.kernel.semaphores s).available
        = (if woken then (x.pre.kernel.semaphores s).available else 1) →
      x.post.kernel.view = x.pre.kernel.wokenView (semaphorePlace s) →
      Gives (semaphorePlace s) x.pre x.post woken → SemaphoreStep s x

section Classify

variable {c c' : Cfg} {a : Action} {o : Observation} {s : Ptr}

/-- A step that spares the semaphore's place and leaves its flag alone. -/
theorem SemaphoreStep.of_spares {x : Transition} (hgives : x.action.gives s = false)
    (htakes : ∀ i, x.takesFlag s i = false)
    (havailable : (x.post.kernel.semaphores s).available = (x.pre.kernel.semaphores s).available)
    (hspares : Spares (semaphorePlace s) x.pre x.post) : SemaphoreStep s x :=
  .kept hgives htakes havailable (fun i hi hg => by rwa [hspares.granted i hi] at hg)
    fun hw => Or.inl (hspares.waited hw)

theorem call_wakes_not_semaphore {made : Call} (hmade : made ≠ .semaphoreGive s) {v : WaitView}
    (hon : v.On (semaphorePlace s).object (semaphorePlace s).kind) : ¬made.wakes v 1 := by
  intro hw
  cases made with
  | semaphoreGive b =>
      have hobj := hw.1
      rw [hon.2.1] at hobj
      exact hmade (by rw [WaitObject.ptr.inj hobj])
  | mutexUnlock | eventGroupSetBits | timerSetCallback =>
      have hk := hw.2.1
      rw [hon.2.2] at hk
      cases hk
  | taskNotify =>
      have hk := hw.1
      rw [hon.2.2] at hk
      cases hk
  | _ => exact hw

/-- The critical sections of blocking calls wake senders and receivers only. -/
theorem proceed_wakes_not_semaphore {source : Nat → UInt8} {v : WaitView}
    (hon : v.On (semaphorePlace s).object (semaphorePlace s).kind) :
    ¬(Action.proceed source).wakes c v 1 := by
  intro hw
  rw [Action.wakes] at hw
  cases hpc : c.pc c.current with
  | entered w r =>
      rw [hpc] at hw
      cases w with
      | queueSend | queueReceive =>
          have hk := hw.2.1
          rw [hon.2.2] at hk
          cases hk
      | _ => exact hw
  | _ =>
      rw [hpc] at hw
      exact hw

theorem not_waitsAt_of_ne {w : WaitCall} {i : Nat}
    (hw : ∀ timeout deadline, w ≠ .semaphoreTake s timeout deadline) :
    w.waitsAt i (semaphorePlace s) = false := by
  rw [← Bool.not_eq_true]
  intro hat
  obtain ⟨timeout, deadline, rfl⟩ := waitsAt_semaphorePlace_iff.mp hat
  exact hw timeout deadline rfl

/-- Segments outside the takes and gives of the semaphore leave its flag
alone, unless they create it. -/
theorem segment_available_eq {sg : Segment} (hseg : ThreadSegment c a sg)
    (hcreate : a.createsSemaphore s = false) (hgives : a.gives s = false)
    (hentered : ∀ w r, c.pc c.current = .entered w r →
      ∀ timeout deadline, w ≠ .semaphoreTake s timeout deadline) :
    (sg.kernel.semaphores s).available = (c.kernel.semaphores s).available := by
  by_cases hkind : a.objectKind c = .semaphore
  · cases hseg with
    | @call made sg _ _ hs =>
        cases made with
        | semaphoreCreateBinaryStatic b available =>
            obtain rfl := Except.ok.inj hs
            have hb : s ≠ b := fun heq => by simp [Action.createsSemaphore, heq] at hcreate
            simp [jrtSemaphoreCreateBinaryStatic, setSemaphore_semaphores, hb]
        | semaphoreGive b =>
            obtain rfl := Except.ok.inj hs
            have hb : s ≠ b := fun heq => by simp [Action.gives, heq] at hgives
            have hspec := (semaphoreGiveLocked_spec c.kernel b).2 s
            rw [if_neg fun hand => hb hand.1] at hspec
            exact hspec
        | _ => cases hkind
    | @entered w r source sg hpc hs =>
        rw [Action.objectKind, hpc] at hkind
        cases w with
        | semaphoreTake b timeout deadline =>
            obtain rfl := Except.ok.inj hs
            have hb : s ≠ b := fun heq => hentered _ _ hpc timeout deadline (by rw [heq])
            rw [ofFlow_kernel]
            rcases jrtSemaphoreTake_cases c.kernel b timeout deadline with ⟨-, heq⟩ | ⟨-, heq | heq⟩
            · rw [heq]
              simp [setSemaphore_semaphores, hb]
            · rw [heq]
            · rw [heq]
              rfl
        | _ => cases hkind
    | yielding => rfl
    | @resumed w _ hpc =>
        rw [Action.objectKind, hpc] at hkind
        cases w with
        | semaphoreTake => rfl
        | _ => cases hkind
    | requestSwitch => rfl
    | inTime => rfl
    | delayed hpc =>
        rw [Action.objectKind, hpc] at hkind
        cases hkind
  · rw [hseg.heap.semaphores hkind]

/-- The critical section of a take of the semaphore. -/
theorem take_semaphoreStep (h : Sched c) (hr : ReservedInQueue c) (hpending : c.pending = false)
    {source : Nat → UInt8} {timeout : UInt32} {deadline : TaskWaitDeadline} {r : Bool}
    {sg : Segment} (hpc : c.pc c.current = .entered (.semaphoreTake s timeout deadline) r)
    (hs : proceedEntered c.kernel source r (.semaphoreTake s timeout deadline) = .ok sg) :
    SemaphoreStep s ⟨c, .proceed source, { result := sg.result, output := sg.output },
      c.after sg⟩ := by
  have hseg : ThreadSegment c (.proceed source) sg := .entered hpc hs
  have hat : (WaitCall.semaphoreTake s timeout deadline).waitsAt c.current (semaphorePlace s)
      = true := waitsAt_semaphorePlace_iff.mpr ⟨_, _, rfl⟩
  have hfree : r = false := by
    cases r with
    | false => rfl
    | true => rcases hr _ _ hpc with hq | hq <;> cases hq
  subst hfree
  have htakes : ∀ i, Transition.takesFlag s i ⟨c, .proceed source,
      { result := sg.result, output := sg.output }, c.after sg⟩
        = (i == c.current && sg.result == some 1) := fun i => by
    simp [Transition.takesFlag, hpc]
  -- A take that returns holds no grant and takes none of others.
  have hreturns : sg.pc = .user → Spares (semaphorePlace s) c (c.after sg) := fun huser => by
    have htake := Takes.of_return h hpending hseg hpc hat huser fun v hon =>
      proceed_wakes_not_semaphore hon
    cases htake with
    | free hspares => exact hspares
  obtain rfl := Except.ok.inj hs
  rcases jrtSemaphoreTake_cases c.kernel s timeout deadline with
    ⟨havailable, heq⟩ | ⟨havailable, heq | heq⟩
  · rw [heq] at htakes hreturns ⊢
    have hspares := hreturns rfl
    refine .took rfl (fun i => ?_) havailable ?_ fun i hi hg => ?_
    · rw [htakes i]
      simp [Segment.ofFlow, Segment.ret]
    · simp [Segment.ofFlow, Segment.ret, Cfg.after, setSemaphore_semaphores]
    · rwa [hspares.granted i hi] at hg
  · rw [heq] at htakes hreturns ⊢
    refine .of_spares rfl (fun i => ?_) rfl (hreturns rfl)
    rw [htakes i]
    simp [Segment.ofFlow, Segment.ret]
  · have hview := taskWaitBeginUntil_view c.kernel c.current (.ptr s) .semaphore deadline
    rw [heq, h.currentTask] at htakes ⊢
    refine .kept rfl (fun i => ?_) rfl (fun i _ hg => ?_) fun _ => Or.inr havailable
    · rw [htakes i]
      simp [Segment.ofFlow]
    · rwa [granted_of_block (p := semaphorePlace s) hpc rfl hview rfl i] at hg

/-- The end of a wait for the semaphore gives up no grant and takes no flag. -/
theorem resumed_semaphoreStep {source : Nat → UInt8} {timeout : UInt32}
    {deadline : TaskWaitDeadline}
    (hpc : c.pc c.current = .resumed (.semaphoreTake s timeout deadline)) :
    SemaphoreStep s ⟨c, .proceed source, o,
      c.after (proceedResumed c.kernel (.semaphoreTake s timeout deadline))⟩ := by
  refine .kept rfl (fun i => by simp [Transition.takesFlag, hpc]) rfl (fun i _ hg => ?_)
    fun hw => Or.inl hw
  by_cases hic : i = c.current
  · rw [hic, granted_user (Sched.after_pc_current _)] at hg
    cases hg
  · rw [← hg]
    exact (granted_congr (Sched.after_pc_of_ne _ hic) Iff.rfl rfl).symm

/-- A give of the semaphore, by a task or by an interrupt handler. -/
theorem SemaphoreStep.of_give (h : Sched c) (hgives : a.gives s = true)
    (htakes : ∀ i, Transition.takesFlag s i ⟨c, a, o, c'⟩ = false)
    (hkernel : c'.kernel = semaphoreGiveLocked c.kernel s)
    (hpc : ∀ i, c.kernel.WaitsAt (semaphorePlace s) i → c'.pc i = c.pc i)
    (hrest : ∀ i, c'.kernel.view i = c.kernel.view i →
      c'.granted (semaphorePlace s) i = c.granted (semaphorePlace s) i) :
    SemaphoreStep s ⟨c, a, o, c'⟩ := by
  obtain ⟨hview, havailable⟩ := semaphoreGiveLocked_spec c.kernel s
  have hn : (semaphoreGiveLocked c.kernel s).taskCount = c.kernel.taskCount := by simp
  rw [← hkernel] at hview hn
  refine .gave hgives htakes ?_ hview (.of_wake h hn hview hpc hrest)
  show (c'.kernel.semaphores s).available = _
  rw [hkernel, havailable s]
  cases (c.kernel.selected (semaphorePlace s)).isSome <;> simp

theorem call_give_semaphoreStep (h : Sched c) {sg : Segment} (hpc : c.pc c.current = .user)
    (hs : enter c.kernel (.semaphoreGive s) = .ok sg) :
    SemaphoreStep s ⟨c, .call (.semaphoreGive s), o, c.after sg⟩ := by
  obtain rfl := Except.ok.inj hs
  refine .of_give h (by simp [Action.gives]) (fun i => (takes_nothing (by simp)).1) rfl
    (fun i hon => ?_) fun i hsame => ?_
  · refine Sched.after_pc_of_ne _ fun hic => ?_
    rw [hic] at hon
    exact not_waitsAt_of_user h h.current_lt hpc hon
  · by_cases hic : i = c.current
    · rw [hic, granted_user hpc, granted_user (Sched.after_pc_current _)]
    · exact granted_congr (Sched.after_pc_of_ne _ hic) (by rw [hsame]) (by rw [hsame])

/-- A segment that neither gives nor takes the semaphore and ends no wait for
it. -/
theorem other_semaphoreStep (h : Sched c) (hpending : c.pending = false) {sg : Segment}
    (hseg : ThreadSegment c a sg) (hcreate : a.createsSemaphore s = false)
    (hgive : a ≠ .call (.semaphoreGive s))
    (hentered : ∀ w r, c.pc c.current = .entered w r →
      ∀ timeout deadline, w ≠ .semaphoreTake s timeout deadline)
    (hresumed : ∀ w, c.pc c.current = .resumed w →
      ∀ timeout deadline, w ≠ .semaphoreTake s timeout deadline) :
    SemaphoreStep s ⟨c, a, { result := sg.result, output := sg.output }, c.after sg⟩ := by
  have hgives : a.gives s = false := by
    cases a with
    | call made =>
        cases made with
        | semaphoreGive b =>
            have hb : b ≠ s := fun heq => hgive (by rw [heq])
            simp [Action.gives, hb]
        | _ => rfl
    | isr => cases hseg
    | _ => rfl
  have hwakes : ∀ v : WaitView, v.On (semaphorePlace s).object (semaphorePlace s).kind →
      ¬a.wakes c v 1 := by
    intro v hon
    cases a with
    | call made => exact call_wakes_not_semaphore (fun heq => hgive (by rw [heq])) hon
    | proceed source => exact proceed_wakes_not_semaphore hon
    | _ => exact id
  refine .of_spares hgives (fun i => ?_) (segment_available_eq hseg hcreate hgives hentered)
    (.segment h hpending hseg hwakes (fun w r hpc => not_waitsAt_of_ne (hentered w r hpc))
      fun w hpc => not_waitsAt_of_ne (hresumed w hpc))
  unfold Transition.takesFlag
  cases a with
  | proceed source =>
      cases hpc : c.pc c.current with
      | entered w r =>
          cases w with
          | semaphoreTake b timeout deadline =>
              have hb : b ≠ s := fun heq => hentered _ _ hpc timeout deadline (by rw [heq])
              simp [hb]
          | _ => rfl
      | _ => rfl
  | _ => rfl

theorem thread_semaphoreStep (h : Sched c) (hr : ReservedInQueue c) (hpending : c.pending = false)
    {sg : Segment} (hseg : ThreadSegment c a sg) (hcreate : a.createsSemaphore s = false) :
    SemaphoreStep s ⟨c, a, { result := sg.result, output := sg.output }, c.after sg⟩ := by
  by_cases hgive : a = .call (.semaphoreGive s)
  · subst hgive
    cases hseg with
    | call hpc _ hs => exact call_give_semaphoreStep h hpc hs
  by_cases hentered : ∃ timeout deadline r,
      c.pc c.current = .entered (.semaphoreTake s timeout deadline) r
  · obtain ⟨timeout, deadline, r, hpc⟩ := hentered
    obtain ⟨source, rfl⟩ := hseg.proceeds (by simp [hpc])
    exact take_semaphoreStep h hr hpending hpc (hseg.of_entered hpc)
  by_cases hresumed : ∃ timeout deadline,
      c.pc c.current = .resumed (.semaphoreTake s timeout deadline)
  · obtain ⟨timeout, deadline, hpc⟩ := hresumed
    obtain ⟨source, rfl⟩ := hseg.proceeds (by simp [hpc])
    obtain rfl := hseg.of_resumed hpc
    exact resumed_semaphoreStep hpc
  · refine other_semaphoreStep h hpending hseg hcreate hgive ?_ ?_
    · rintro w r hpc timeout deadline rfl
      exact hentered ⟨timeout, deadline, r, hpc⟩
    · rintro w hpc timeout deadline rfl
      exact hresumed ⟨timeout, deadline, hpc⟩

theorem isr_wakes_not_semaphore {call : IsrCall} (hcall : call ≠ .semaphoreGiveFromIsr s)
    {v : WaitView} (hon : v.On (semaphorePlace s).object (semaphorePlace s).kind) :
    ¬call.wakes v 1 := by
  intro hw
  cases call with
  | semaphoreGiveFromIsr b =>
      have hobj := hw.1
      rw [hon.2.1] at hobj
      exact hcall (by rw [WaitObject.ptr.inj hobj])
  | taskNotifyFromIsr =>
      have hk := hw.1
      rw [hon.2.2] at hk
      cases hk
  | queueSendFromIsr | eventGroupSetBitsFromIsr =>
      have hk := hw.2.1
      rw [hon.2.2] at hk
      cases hk

/-- A call of an interrupt handler that does not give the semaphore. -/
theorem isrCall_available_eq {call : IsrCall} (hcall : call ≠ .semaphoreGiveFromIsr s) :
    ((isrCall c.kernel call).1.semaphores s).available = (c.kernel.semaphores s).available := by
  cases call with
  | semaphoreGiveFromIsr b =>
      have hb : s ≠ b := fun heq => hcall (by rw [heq])
      have havailable := (semaphoreGiveLocked_spec c.kernel b).2 s
      rw [if_neg fun hand => hb hand.1] at havailable
      exact havailable
  | _ => rw [(isrCall_heap c.kernel _).semaphores (by simp [IsrCall.objectKind])]

theorem isr_semaphoreStep (h : Sched c) (call : IsrCall) :
    SemaphoreStep s ⟨c, .isr call, o,
      { c with
        kernel := (isrCall c.kernel call).1
        pending := c.pending || (isrCall c.kernel call).2.2 }⟩ := by
  by_cases hgive : call = .semaphoreGiveFromIsr s
  · subst hgive
    exact .of_give h (by simp [Action.gives]) (fun i => (takes_nothing (by simp)).1) rfl
      (fun i _ => rfl) fun i hsame => granted_congr rfl (by rw [hsame]) (by rw [hsame])
  · refine .of_spares ?_ (fun i => (takes_nothing (by simp)).1) (isrCall_available_eq hgive)
      (.of_wakes h (isrCall_wakes c.kernel call) rfl (isrCall_frame c.kernel call).1
        fun v => isr_wakes_not_semaphore hgive)
    cases call with
    | semaphoreGiveFromIsr b =>
        have hb : b ≠ s := fun heq => hgive (by rw [heq])
        simp [Action.gives, hb]
    | _ => rfl

/-- Every step treats the semaphore in one of the ways of `SemaphoreStep`. -/
theorem semaphoreStep_of_step (h : Sched c) (hr : ReservedInQueue c)
    (hstep : StepCases c a c' o) (hcreate : a.createsSemaphore s = false) :
    SemaphoreStep s ⟨c, a, o, c'⟩ := by
  have hplain : (∀ source, a ≠ .proceed source) → a.gives s = false →
      c'.kernel.semaphores = c.kernel.semaphores → Spares (semaphorePlace s) c c' →
      SemaphoreStep s ⟨c, a, o, c'⟩ := fun ha hgives hsemaphores hspares =>
    .of_spares hgives (fun i => (takes_nothing fun source heq => absurd heq (ha source)).1)
      (congrArg JrtSemaphore.available (congrFun hsemaphores s)) hspares
  cases hstep with
  | start _ hk =>
      obtain rfl := jrtKernelStart_spec hk
      exact hplain (by simp) rfl rfl (.of_view_eq h rfl rfl rfl)
  | thread _ hpending hseg => exact thread_semaphoreStep h hr hpending hseg hcreate
  | tick _ hk =>
      refine hplain (by simp) rfl ((tickTasks_heap hk).semaphores (by simp))
        (.of_wakes h (tickTasks_wakes hk) rfl (tickTasks_frame hk).1 ?_)
      rintro v hon (⟨hzero, -⟩ | ⟨hobj, -⟩)
      · cases hzero
      · rw [hon.2.1] at hobj
        cases hobj
  | isr _ => exact isr_semaphoreStep h _
  | pendsv _ _ hk =>
      exact hplain (by simp) rfl ((pendsvSwitch_heap hk .none).semaphores (by simp)) (.pendsv h hk)
  | store => exact hplain (by simp) rfl rfl (.of_view_eq h rfl rfl rfl)
  | cycles => exact hplain (by simp) rfl rfl (.of_view_eq h rfl rfl rfl)

end Classify

/-! ## Accounting -/

/-- The tokens a step grants. -/
def Transition.tokens (s : Ptr) (x : Transition) : Nat :=
  tally (x.grantsTo s) x.pre.kernel.taskCount

/-- The step gives a token while the flag is up. -/
def Transition.wasted (s : Ptr) (x : Transition) : Bool :=
  x.action.gives s && (x.pre.kernel.semaphores s).available == 1

/-- The flag is 0 or 1, and nobody waits while it is up: a give leaves a token
only where it finds no waiter. -/
structure TokenFlag (s : Ptr) (c : Cfg) : Prop where
  flag : (c.kernel.semaphores s).available = 0 ∨ (c.kernel.semaphores s).available = 1
  idle : (c.kernel.semaphores s).available = 1 → ¬c.kernel.Waited (semaphorePlace s)

section Accounting

variable {c c' : Cfg} {a : Action} {o : Observation} {s : Ptr} {tr : List Transition}

/-- Where no task gains a grant, a step grants what it takes out of the
flag. -/
theorem tokens_of_kept {x : Transition} (htakes : ∀ i, x.takesFlag s i = false)
    (hgrants : ∀ i < x.pre.kernel.taskCount, x.post.granted (semaphorePlace s) i = true →
      x.pre.granted (semaphorePlace s) i = true) : x.tokens s = 0 := by
  refine tally_eq_zero fun i hi => ?_
  rw [Transition.grantsTo, htakes i, Bool.false_or]
  cases hpost : x.post.granted (semaphorePlace s) i with
  | false => simp
  | true => simp [hgrants i hi hpost]

theorem tokens_of_took {x : Transition} (hcurrent : x.pre.current < x.pre.kernel.taskCount)
    (htakes : ∀ i, x.takesFlag s i = (i == x.pre.current))
    (hgrants : ∀ i < x.pre.kernel.taskCount, x.post.granted (semaphorePlace s) i = true →
      x.pre.granted (semaphorePlace s) i = true) : x.tokens s = 1 := by
  have hgains : Gains (fun _ => false) (x.grantsTo s) x.pre.kernel.taskCount := by
    refine ⟨x.pre.current, hcurrent, rfl, ?_, fun j hj hne => ?_⟩
    · simp [Transition.grantsTo, htakes]
    · show x.grantsTo s j = false
      rw [Transition.grantsTo, htakes j]
      cases hpost : x.post.granted (semaphorePlace s) j with
      | false => simp [hne]
      | true => simp [hne, hgrants j hj hpost]
  rw [Transition.tokens, hgains.tally_eq, tally_eq_zero fun _ _ => rfl]

theorem tokens_of_gave {x : Transition} {woken : Bool} (htakes : ∀ i, x.takesFlag s i = false)
    (hgives : Gives (semaphorePlace s) x.pre x.post woken) : x.tokens s = woken.toNat := by
  cases hgives with
  | nobody hspares =>
      refine tokens_of_kept htakes fun i hi hg => ?_
      rwa [hspares.granted i hi] at hg
  | one _ _ hgains =>
      obtain ⟨i, hi, hbefore, hbehind, hrest⟩ := hgains
      have hgrant : Gains (fun _ => false) (x.grantsTo s) x.pre.kernel.taskCount := by
        refine ⟨i, hi, rfl, ?_, fun j hj hne => ?_⟩
        · simp [Transition.grantsTo, htakes, hbefore, hbehind]
        · show x.grantsTo s j = false
          rw [Transition.grantsTo, htakes j, hrest j hj hne]
          simp
      rw [Transition.tokens, hgrant.tally_eq, tally_eq_zero fun _ _ => rfl]
      rfl

/-- One step: every token is in the flag, granted, or wasted. -/
theorem TokenFlag.step (hflag : TokenFlag s c) (h : Sched c) (hstep : SemaphoreStep s ⟨c, a, o, c'⟩) :
    TokenFlag s c'
      ∧ Transition.tokens s ⟨c, a, o, c'⟩ + (c'.kernel.semaphores s).available.toNat
          + (Transition.wasted s ⟨c, a, o, c'⟩).toNat
        = (c.kernel.semaphores s).available.toNat + (a.gives s).toNat := by
  obtain ⟨hbit, hidle⟩ := hflag
  cases hstep with
  | kept hgives htakes havailable hgrants hwaits =>
      change a.gives s = false at hgives
      change (c'.kernel.semaphores s).available = (c.kernel.semaphores s).available at havailable
      refine ⟨⟨by rwa [havailable], fun hone hw => ?_⟩, ?_⟩
      · rw [havailable] at hone
        rcases hwaits hw with hbefore | hzero
        · exact hidle hone hbefore
        · change (c.kernel.semaphores s).available = 0 at hzero
          rw [hone] at hzero
          cases hzero
      · rw [tokens_of_kept htakes hgrants, Transition.wasted, hgives, havailable]
        simp
  | took hgives htakes hbefore hafter hgrants =>
      change a.gives s = false at hgives
      change (c'.kernel.semaphores s).available = 0 at hafter
      have hone := hbit.resolve_left hbefore
      refine ⟨⟨Or.inl hafter, fun hone' => ?_⟩, ?_⟩
      · rw [hafter] at hone'
        cases hone'
      · rw [tokens_of_took h.current_lt htakes hgrants, Transition.wasted, hgives, hafter, hone]
        rfl
  | @gave woken hgives htakes havailable _ hwake =>
      change a.gives s = true at hgives
      change (c'.kernel.semaphores s).available
        = (if woken then (c.kernel.semaphores s).available else 1) at havailable
      have hwoken := hwake.given_iff
      change woken = true ↔ c.kernel.Waited (semaphorePlace s) at hwoken
      rw [tokens_of_gave htakes hwake, Transition.wasted, hgives]
      cases woken with
      | true =>
          rw [if_pos rfl] at havailable
          have hwaited := hwoken.mp rfl
          have hzero : (c.kernel.semaphores s).available = 0 :=
            hbit.resolve_right fun hone => hidle hone hwaited
          rw [hzero] at havailable
          refine ⟨⟨Or.inl havailable, fun hone => ?_⟩, ?_⟩
          · rw [havailable] at hone
            cases hone
          · simp [hzero, havailable]
      | false =>
          rw [if_neg (by simp)] at havailable
          refine ⟨⟨Or.inr havailable, fun _ hw => ?_⟩, ?_⟩
          · exact absurd (hwoken.mpr (hwake.waited hw)) (by simp)
          · rw [havailable]
            rcases hbit with hzero | hone
            · simp [hzero]
            · simp [hone]

theorem token_run (hflag : TokenFlag s c) (h : Sched c) (hr : ReservedInQueue c)
    (hrun : Run c tr c') (honce : ∀ x ∈ tr, x.action.createsSemaphore s = false) :
    Sched c' ∧ ReservedInQueue c' ∧ TokenFlag s c'
      ∧ (tr.map (Transition.tokens s)).sum + (c'.kernel.semaphores s).available.toNat
          + tr.countP (Transition.wasted s)
        = (c.kernel.semaphores s).available.toNat + tr.countP fun x => x.action.gives s := by
  induction hrun with
  | nil => exact ⟨h, hr, hflag, by simp⟩
  | @snoc tr c₁ c₂ a o _ hstep ih =>
      obtain ⟨h₁, hr₁, hflag₁, hcount⟩ := ih fun x hx => honce x (List.mem_append_left _ hx)
      have hcases := step_cases hstep
      have hcreate := honce ⟨c₁, a, o, c₂⟩ (List.mem_append_right _ List.mem_cons_self)
      obtain ⟨hflag₂, hone⟩ := hflag₁.step h₁
        (semaphoreStep_of_step h₁ hr₁ hcases hcreate)
      refine ⟨h₁.step hcases, hr₁.step hcases, hflag₂, ?_⟩
      simp only [List.map_append, List.sum_append, List.map_cons, List.map_nil, List.sum_cons,
        List.sum_nil, countP_snoc]
      omega

theorem token_task_run {i : Nat} (h : Sched c) (hr : ReservedInQueue c) (hrun : Run c tr c')
    (hi : i < c.kernel.taskCount) :
    tr.countP (Transition.grantsTo s i) + (c.granted (semaphorePlace s) i).toNat
      = tr.countP (fun x => x.takeResult s i == some 1)
        + (c'.granted (semaphorePlace s) i).toNat := by
  induction hrun with
  | nil => simp
  | @snoc tr c₁ c₂ a o hrun hstep ih =>
      have h₁ : Sched c₁ := hrun.induction Sched (fun hs hst => hs.step hst) h
      have hr₁ : ReservedInQueue c₁ := hrun.induction ReservedInQueue (fun hs hst => hs.step hst) hr
      have hn : c₁.kernel.taskCount = c.kernel.taskCount := hrun.taskCount
      have hone : (Transition.grantsTo s i ⟨c₁, a, o, c₂⟩).toNat
            + (c₁.granted (semaphorePlace s) i).toNat
          = (if Transition.takeResult s i ⟨c₁, a, o, c₂⟩ = some 1 then 1 else 0)
            + (c₂.granted (semaphorePlace s) i).toNat :=
        (token_task_step h₁ hr₁ (step_cases hstep) (hn ▸ hi)).balance
      rw [countP_snoc, List.countP_append, List.countP_singleton]
      simp only [beq_iff_eq]
      omega

/-- A give hands its token to a waiter of the highest priority, or to the
flag where nobody waits. -/
theorem SemaphoreStep.give_cases (hstep : SemaphoreStep s ⟨c, a, o, c'⟩) (hgives : a.gives s = true) :
    (∃ i < c.kernel.taskCount, c.kernel.WaitsAt (semaphorePlace s) i
        ∧ (∀ j < c.kernel.taskCount, c.kernel.WaitsAt (semaphorePlace s) j →
            (c.kernel.tasks j).priority ≤ (c.kernel.tasks i).priority)
        ∧ c'.kernel.view i = (c.kernel.view i).ended 1
        ∧ ∀ j, j ≠ i → c'.kernel.view j = c.kernel.view j)
      ∨ (¬c.kernel.Waited (semaphorePlace s) ∧ c'.kernel.view = c.kernel.view
        ∧ (c'.kernel.semaphores s).available = 1) := by
  cases hstep with
  | kept hno | took hno =>
      rw [show a.gives s = false from hno] at hgives
      cases hgives
  | @gave woken _ _ havailable hview hwake =>
      have hwoken := hwake.given_iff
      change c'.kernel.view = c.kernel.wokenView (semaphorePlace s) at hview
      rw [Kernel.wokenView] at hview
      cases hs : c.kernel.selected (semaphorePlace s) with
      | none =>
          rw [hs] at hview
          have hnobody : ¬c.kernel.Waited (semaphorePlace s) := by
            rintro ⟨i, hi, hon⟩
            exact wakeSelect_eq_none_iff.mp hs i hi hon
          have hfalse : woken = false := by
            rw [← Bool.not_eq_true, hwoken]
            exact hnobody
          rw [hfalse] at havailable
          exact Or.inr ⟨hnobody, hview, havailable⟩
      | some t =>
          rw [hs] at hview
          obtain ⟨hlt, hon, hmax⟩ := wakeSelect_spec hs
          refine Or.inl ⟨t, hlt, hon, hmax, ?_, fun j hj => ?_⟩
          · rw [hview]
            exact Function.update_self t _ _
          · rw [hview]
            exact Function.update_of_ne hj _ _

end Accounting

/-! ## From the creation on -/

/-- The semaphore is as `JRT_SemaphoreCreateBinaryStatic` leaves it, in a
reachable configuration in which no task is in a take of it. -/
structure SemaphoreCreated (img : Image) (s : Ptr) (initiallyAvailable : UInt32) (c : Cfg) :
    Prop where
  reachable : Reachable img c
  unused : c.Unused (semaphorePlace s)
  semaphore : c.kernel.semaphores s
    = (jrtSemaphoreCreateBinaryStatic c.kernel s initiallyAvailable).semaphores s

section Created

variable {img : Image} {s : Ptr} {initially : UInt32} {c c₀ c₁ c' : Cfg} {o : Observation}
  {a : Action} {i : Nat}

theorem SemaphoreCreated.of_boot (hboot : Boot img c) (hsemaphore : c.kernel.semaphores s
      = (jrtSemaphoreCreateBinaryStatic c.kernel s initially).semaphores s) :
    SemaphoreCreated img s initially c :=
  ⟨⟨c, [], hboot, .nil⟩, .boot hboot (by simp [semaphorePlace]), hsemaphore⟩

theorem SemaphoreCreated.of_call (hreachable : Reachable img c₀)
    (hunused : c₀.Unused (semaphorePlace s))
    (hcreate : step c₀ (.call (.semaphoreCreateBinaryStatic s initially)) = some (c₁, o)) :
    SemaphoreCreated img s initially c₁ := by
  obtain ⟨b, tr, hboot, hrun⟩ := hreachable
  have hreachable₁ : Reachable img c₁ := ⟨b, _, hboot, hrun.snoc hcreate⟩
  have hstep := step_cases hcreate
  cases hstep with
  | thread _ _ hseg =>
      cases hseg with
      | call _ _ hs =>
          obtain rfl := Except.ok.inj hs
          refine ⟨hreachable₁, hunused.after rfl, ?_⟩
          simp [Cfg.after, jrtSemaphoreCreateBinaryStatic, setSemaphore_semaphores]

theorem SemaphoreCreated.available (h : SemaphoreCreated img s initially c) :
    (c.kernel.semaphores s).available = if initially ≠ 0 then 1 else 0 := by
  rw [h.semaphore]
  simp [jrtSemaphoreCreateBinaryStatic, setSemaphore_semaphores]

theorem SemaphoreCreated.flag (h : SemaphoreCreated img s initially c) : TokenFlag s c := by
  refine ⟨?_, fun _ => h.unused.not_waited h.reachable.sched⟩
  rw [h.available]
  split
  · exact Or.inr rfl
  · exact Or.inl rfl

/-- A step that returns from a take returns to the task's own code. -/
theorem takeResult_user {r : UInt32} (hstep : StepCases c a c' o)
    (hresult : Transition.takeResult s i ⟨c, a, o, c'⟩ = some r) :
    i = c.current ∧ c'.pc i = .user := by
  cases a with
  | proceed source =>
      simp only [Transition.takeResult] at hresult
      split at hresult
      · next b timeout deadline hcall =>
          by_cases hcond : b = s ∧ i = c.current
          · rw [if_pos hcond] at hresult
            obtain ⟨-, rfl⟩ := hcond
            refine ⟨rfl, ?_⟩
            cases hstep with
            | thread _ _ hseg =>
                rw [Sched.after_pc_current]
                cases hseg with
                | entered hpc hs =>
                    rcases proceedEntered_pc hs with huser | hyield
                    · exact huser
                    · have heffect := proceedEntered_effect hs
                      cases heffect with
                      | wakes _ hy => exact absurd hyield (hy _)
                      | blocks _ _ hnone => rw [hnone] at hresult; cases hresult
                      | restates huser => exact huser
                | resumed hpc =>
                    rw [hpc] at hcall
                    obtain rfl := Option.some.inj hcall
                    rfl
                | yielding => cases hresult
                | requestSwitch | inTime | delayed => rfl
          · rw [if_neg hcond] at hresult
            cases hresult
      · cases hresult
  | _ => cases hresult

/-- A take returns 1 if it was granted one token while it lasted, and 0 if
none. -/
theorem take_granted {timeout r : UInt32} {c₁ c₂ c₃ : Cfg} {o₁ : Observation}
    {tr : List Transition} (h : Sched c) (hr : ReservedInQueue c)
    (hcall : step c (.call (.semaphoreTake s timeout)) = some (c₁, o₁)) (hrun : Run c₁ tr c₂)
    (hnone : ∀ x ∈ tr, x.takeResult s c.current = none) (hlast : step c₂ a = some (c₃, o))
    (hresult : Transition.takeResult s c.current ⟨c₂, a, o, c₃⟩ = some r) :
    (r = 0 ∨ r = 1)
      ∧ (tr ++ [(⟨c₂, a, o, c₃⟩ : Transition)]).countP (Transition.grantsTo s c.current)
        = r.toNat := by
  have hcases := step_cases hcall
  have h₁ : Sched c₁ := h.step hcases
  have hr₁ : ReservedInQueue c₁ := hr.step hcases
  have hi : c.current < c₁.kernel.taskCount := by
    rw [hcases.taskCount]
    exact h.current_lt
  have h₂ : Sched c₂ := hrun.induction Sched (fun hs hst => hs.step hst) h₁
  have hr₂ : ReservedInQueue c₂ := hrun.induction ReservedInQueue (fun hs hst => hs.step hst) hr₁
  have hi₂ : c.current < c₂.kernel.taskCount := by rwa [hrun.taskCount]
  -- The call has just begun: it holds no grant.
  have hbegin : c₁.granted (semaphorePlace s) c.current = false := by
    cases hcases with
    | thread _ _ hseg =>
        cases hseg with
        | call _ _ hs =>
            obtain rfl := Except.ok.inj hs
            rw [granted_entered (Sched.after_pc_current _), Bool.and_false]
  have hend : c₃.granted (semaphorePlace s) c.current = false :=
    granted_user (takeResult_user (step_cases hlast) hresult).2
  have hduring := token_task_run (s := s) h₁ hr₁ hrun hi
  have htokens := token_task_step (s := s) h₂ hr₂ (step_cases hlast) hi₂
  have hfinal : (Transition.grantsTo s c.current ⟨c₂, a, o, c₃⟩).toNat
        + (c₂.granted (semaphorePlace s) c.current).toNat
      = (if Transition.takeResult s c.current ⟨c₂, a, o, c₃⟩ = some 1 then 1 else 0)
        + (c₃.granted (semaphorePlace s) c.current).toNat := htokens.balance
  have hno : tr.countP (fun x => x.takeResult s c.current == some 1) = 0 := by
    rw [List.countP_eq_zero]
    intro x hx
    rw [hnone x hx]
    decide
  rw [hbegin, hno] at hduring
  rw [hend, hresult] at hfinal
  refine ⟨htokens.bit r hresult, ?_⟩
  rw [countP_snoc]
  change _ + 0 = _ at hduring
  rcases htokens.bit r hresult with rfl | rfl
  · rw [if_neg (by decide)] at hfinal
    change _ = 0
    change _ = 0 + 0 at hfinal
    omega
  · rw [if_pos rfl] at hfinal
    change _ = 1
    change _ = 1 + 0 at hfinal
    omega

end Created

/-- From the creation of a semaphore on its flag is 0 or 1 and nobody waits
while it is up; the tokens granted, the one in the flag and those given
while it was up are the initial one and those given. A give readies one
waiter of the highest effective priority if there is one, and a take
returns 1 if it was granted one token while it lasted and 0 if none. -/
theorem semaphore_conserves_tokens (img : Image) (c₁ c : Cfg) (s : Ptr) (initially : UInt32)
    (tr : List Transition) (hcreated : SemaphoreCreated img s initially c₁)
    (hrun : Run c₁ tr c) (honce : ∀ x ∈ tr, x.action.createsSemaphore s = false) :
    ((c.kernel.semaphores s).available = 0 ∨ (c.kernel.semaphores s).available = 1)
      ∧ ((c.kernel.semaphores s).available = 1 → ¬c.kernel.Waited (semaphorePlace s))
      ∧ (tr.map (Transition.tokens s)).sum + (c.kernel.semaphores s).available.toNat
          + tr.countP (Transition.wasted s)
        = (if initially ≠ 0 then 1 else 0) + tr.countP (fun x => x.action.gives s)
      ∧ (∀ a c' o, step c a = some (c', o) → a.gives s = true →
          (∃ i < c.kernel.taskCount, c.kernel.WaitsAt (semaphorePlace s) i
              ∧ (∀ j < c.kernel.taskCount, c.kernel.WaitsAt (semaphorePlace s) j →
                  (c.kernel.tasks j).priority ≤ (c.kernel.tasks i).priority)
              ∧ c'.kernel.view i = (c.kernel.view i).ended 1
              ∧ ∀ j, j ≠ i → c'.kernel.view j = c.kernel.view j)
            ∨ (¬c.kernel.Waited (semaphorePlace s) ∧ c'.kernel.view = c.kernel.view
              ∧ (c'.kernel.semaphores s).available = 1))
      ∧ ∀ timeout c₂ o₂ (next : List Transition) c₃ a c₄ o r,
          step c (.call (.semaphoreTake s timeout)) = some (c₂, o₂) → Run c₂ next c₃ →
          (∀ x ∈ next, x.takeResult s c.current = none) → step c₃ a = some (c₄, o) →
          Transition.takeResult s c.current ⟨c₃, a, o, c₄⟩ = some r →
            (r = 0 ∨ r = 1)
              ∧ (next ++ [(⟨c₃, a, o, c₄⟩ : Transition)]).countP
                (Transition.grantsTo s c.current) = r.toNat := by
  obtain ⟨h, hr, hflag, hcount⟩ := token_run hcreated.flag hcreated.reachable.sched
    hcreated.reachable.reservedInQueue hrun honce
  have hinitial : (c₁.kernel.semaphores s).available.toNat = if initially ≠ 0 then 1 else 0 := by
    rw [hcreated.available]
    split <;> rfl
  rw [hinitial] at hcount
  refine ⟨hflag.flag, hflag.idle, hcount, ?_, ?_⟩
  · intro a c' o hstep hgives
    have hcreate : a.createsSemaphore s = false := by
      cases a with
      | call made =>
          cases made with
          | semaphoreCreateBinaryStatic => cases hgives
          | _ => rfl
      | _ => rfl
    exact (semaphoreStep_of_step h hr (step_cases hstep) hcreate).give_cases hgives
  · intro timeout c₂ o₂ next c₃ a c₄ o r hcall hnext hnone hlast hresult
    exact take_granted h hr hcall hnext hnone hlast hresult

/-- The first task waits for the token and the second gives it: one grant,
nothing in the flag. -/
theorem semaphore_conserves_tokens_sample : ∃ c₁ tr c,
    SemaphoreCreated .sample 8 0 c₁ ∧ runActions c₁ giveActions = some (tr, c)
      ∧ (tr.map (Transition.tokens 8)).sum = 1 := by
  have hsome : ((sampleBoot [2, 1]).bind fun b => (runActions b giveActions).filter fun r =>
      decide (b.kernel.semaphores 8
          = (jrtSemaphoreCreateBinaryStatic b.kernel 8 0).semaphores 8
        ∧ (r.2.kernel.semaphores 8).available = 0)
        && (r.1.countP (Transition.wasted 8) == 0
          && r.1.countP (fun x => x.action.gives 8) == 1)).isSome = true := by
    decide +kernel
  obtain ⟨⟨tr, c⟩, hbind⟩ := Option.isSome_iff_exists.mp hsome
  obtain ⟨b, hboot, hbind⟩ := Option.bind_eq_some_iff.mp hbind
  obtain ⟨hrun, hchecks⟩ := Option.filter_eq_some_iff.mp hbind
  simp only [Bool.and_eq_true, decide_eq_true_eq, beq_iff_eq] at hchecks
  obtain ⟨⟨hsemaphore, havailable⟩, hwasted, hgives⟩ := hchecks
  have hcreated : SemaphoreCreated .sample 8 0 b := .of_boot (sampleBoot_boot hboot) hsemaphore
  have hactions : ∀ a ∈ giveActions, a.createsSemaphore 8 = false := by
    simp [giveActions, Action.createsSemaphore]
  have honce : ∀ x ∈ tr, x.action.createsSemaphore 8 = false := fun x hx => by
    refine hactions x.action ?_
    rw [← runActions_actions hrun]
    exact List.mem_map_of_mem hx
  obtain ⟨-, -, hcount, -⟩ := semaphore_conserves_tokens .sample b c 8 0 tr hcreated
    (runActions_run hrun) honce
  refine ⟨b, tr, c, hcreated, hrun, ?_⟩
  rw [havailable, hwasted, hgives] at hcount
  exact hcount

end JustRT
