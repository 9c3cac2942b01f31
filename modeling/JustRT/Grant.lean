import JustRT.Scheduler
import JustRT.Heap
import JustRT.Lib.Tally

/-!
# Waits that were granted

Whoever ends a wait with the result 1 grants the waiter what it waits for;
the waiter takes it when it runs again. Between the two lie a switch and
any number of steps of others, and in these `granted` says that the grant
is still out. `Spares` is a step that grants and takes nothing at a place:
nearly every step spares nearly every place.
-/

namespace JustRT

open Tally

/-- A place to wait at: an object, and the kind of the wait. A queue is two
places, one for its senders and one for its receivers. -/
structure WaitPlace where
  object : WaitObject
  kind : TaskWaitKind
deriving Repr, DecidableEq

/-- The call of task `i` waits at the place. -/
def WaitCall.waitsAt (w : WaitCall) (i : Nat) (p : WaitPlace) : Bool :=
  w.object i == p.object && w.kind == p.kind

def Kernel.WaitsAt (k : Kernel) (p : WaitPlace) (i : Nat) : Prop := (k.view i).On p.object p.kind

def Kernel.Waited (k : Kernel) (p : WaitPlace) : Prop := ∃ i < k.taskCount, k.WaitsAt p i

/-- Task `i` was granted what it waited for at the place, and has not taken it
yet: its wait ended with 1, or it is on its way to take a reservation. The
kernel keeps no such record: the source has it in the wait result and in a
local variable of the call. -/
def Cfg.granted (c : Cfg) (p : WaitPlace) (i : Nat) : Bool :=
  match c.pc i with
  | .entered w reserved => w.waitsAt i p && reserved
  | .yielding w | .resumed w =>
      w.waitsAt i p && (c.kernel.view i).state != .blocked && (c.kernel.view i).waitResult == 1
  | _ => false

/-- How many tasks hold a grant at the place. -/
def Cfg.grants (c : Cfg) (p : WaitPlace) : Nat := tally (c.granted p) c.kernel.taskCount

def Pc.waitCall : Pc → Option WaitCall
  | .entered w _ | .yielding w | .resumed w => some w
  | _ => none

/-- The segments of a woken call up to its return. -/
def Pc.segmentsLeft : Pc → Nat
  | .yielding _ => 3
  | .resumed _ => 2
  | .entered _ _ => 1
  | _ => 0

/-- Task `i` was woken in the call, and has not returned from it. -/
def Cfg.WokenIn (c : Cfg) (i : Nat) (w : WaitCall) : Prop :=
  c.Within i w ∧ (c.kernel.view i).state ≠ .blocked ∧ (c.kernel.view i).waitResult = 1

theorem waitsAt_iff {w : WaitCall} {i : Nat} {p : WaitPlace} :
    w.waitsAt i p = true ↔ w.object i = p.object ∧ w.kind = p.kind := by
  simp [WaitCall.waitsAt]

section Granted

variable {c c' : Cfg} {p : WaitPlace} {i : Nat} {w : WaitCall}

theorem Cfg.Within.waitCall {w : WaitCall} (h : c.Within i w) : (c.pc i).waitCall = some w := by
  rcases h with hpc | hpc <;> rw [hpc] <;> rfl

theorem granted_within (hw : c.Within i w) :
    c.granted p i = true ↔ w.waitsAt i p = true ∧ (c.kernel.view i).state ≠ .blocked
      ∧ (c.kernel.view i).waitResult = 1 := by
  rcases hw with hpc | hpc <;> simp [Cfg.granted, hpc, and_assoc]

theorem granted_entered {reserved : Bool} (hpc : c.pc i = .entered w reserved) :
    c.granted p i = (w.waitsAt i p && reserved) := by
  simp [Cfg.granted, hpc]

theorem granted_eq_false (he : ∀ w, c.pc i ≠ .entered w true) (hw : ∀ w, ¬c.Within i w) :
    c.granted p i = false := by
  unfold Cfg.granted
  cases hpc : c.pc i with
  | entered w reserved =>
      cases reserved with
      | true => exact absurd hpc (he w)
      | false => simp
  | yielding w => exact absurd (Or.inl hpc) (hw w)
  | resumed w => exact absurd (Or.inr hpc) (hw w)
  | _ => rfl

theorem granted_user (hpc : c.pc i = .user) : c.granted p i = false :=
  granted_eq_false (by simp [hpc]) (by simp [Cfg.Within, hpc])

/-- A grant is held by a task in a call at the place. -/
theorem exists_waitsAt_of_granted (h : c.granted p i = true) :
    ∃ w, w.waitsAt i p = true ∧ (c.Within i w ∨ c.pc i = .entered w true) := by
  unfold Cfg.granted at h
  cases hpc : c.pc i with
  | entered w reserved =>
      rw [hpc] at h
      obtain ⟨hat, rfl⟩ := Bool.and_eq_true_iff.mp h
      exact ⟨w, hat, Or.inr rfl⟩
  | yielding w =>
      rw [hpc] at h
      simp only [Bool.and_eq_true] at h
      exact ⟨w, h.1.1, Or.inl (Or.inl hpc)⟩
  | resumed w =>
      rw [hpc] at h
      simp only [Bool.and_eq_true] at h
      exact ⟨w, h.1.1, Or.inl (Or.inr hpc)⟩
  | _ => simp [hpc] at h

theorem granted_congr (hpc : c'.pc i = c.pc i)
    (hstate : (c'.kernel.view i).state = .blocked ↔ (c.kernel.view i).state = .blocked)
    (hresult : (c'.kernel.view i).waitResult = (c.kernel.view i).waitResult) :
    c'.granted p i = c.granted p i := by
  have hne : ((c'.kernel.view i).state != .blocked) = ((c.kernel.view i).state != .blocked) := by
    rw [Bool.eq_iff_iff]
    simp [hstate]
  simp only [Cfg.granted, hpc, hresult, hne]

/-- Where no wait at the place ends with 1, a task that stays where it is
holds the same grants. -/
theorem granted_woken (h : Sched c) {R : WaitView → UInt32 → Prop} (hpc : c'.pc i = c.pc i)
    (hw : Woken R (c.kernel.view i) (c'.kernel.view i))
    (hR : ∀ v, v.On p.object p.kind → ¬R v 1) : c'.granted p i = c.granted p i := by
  generalize hv' : c'.kernel.view i = v' at hw
  cases hw with
  | kept => exact granted_congr hpc (by rw [hv']) (by rw [hv'])
  | awoken hs => exact granted_congr hpc (by simp [hv', hs]) (by simp [hv'])
  | @ended r hb hr =>
      by_cases hcall : ∃ w, c.Within i w
      · obtain ⟨w, hwithin⟩ := hcall
        have hwithin' : c'.Within i w := by rwa [Cfg.Within, hpc]
        rw [Bool.eq_iff_iff, granted_within hwithin, granted_within hwithin', hv']
        refine iff_of_false ?_ ?_
        · rintro ⟨hat, -, hone⟩
          obtain ⟨hobject, hkind⟩ := waitsAt_iff.mp hat
          have hon := (h.waiting i w hwithin).on hb
          rw [hobject, hkind] at hon
          refine hR _ hon ?_
          rw [← show r = 1 from hone]
          exact hr
        · exact fun hand => hand.2.1 hb
      · rw [not_exists] at hcall
        have hpcs : ∀ w, c.pc i ≠ .yielding w ∧ c.pc i ≠ .resumed w := fun w =>
          ⟨fun hy => hcall w (Or.inl hy), fun hr => hcall w (Or.inr hr)⟩
        unfold Cfg.granted
        rw [hpc]
        cases hp : c.pc i with
        | yielding w => exact absurd hp (hpcs w).1
        | resumed w => exact absurd hp (hpcs w).2
        | _ => rfl

/-- A task that stays where it is and holds a grant held it before, or its
wait has just ended with 1. -/
theorem granted_of_woken {R : WaitView → UInt32 → Prop} (hpc : c'.pc i = c.pc i)
    (hw : Woken R (c.kernel.view i) (c'.kernel.view i)) (hg : c'.granted p i = true) :
    c.granted p i = true
      ∨ ((c.kernel.view i).state = .blocked ∧ R (c.kernel.view i) 1
        ∧ ∃ w, c.Within i w ∧ w.waitsAt i p = true) := by
  generalize hv' : c'.kernel.view i = v' at hw
  cases hw with
  | kept =>
      refine Or.inl ?_
      rw [← hg]
      exact (granted_congr hpc (by rw [hv']) (by rw [hv'])).symm
  | awoken hs =>
      refine Or.inl ?_
      rw [← hg]
      exact (granted_congr hpc (by simp [hv', hs]) (by simp [hv'])).symm
  | @ended r hb hr =>
      obtain ⟨w, hat, hwithin | hentered⟩ := exists_waitsAt_of_granted hg
      · obtain ⟨-, -, hone⟩ := (granted_within hwithin).mp hg
        rw [hv', WaitView.ended_waitResult] at hone
        rw [Cfg.Within, hpc] at hwithin
        exact Or.inr ⟨hb, hone ▸ hr, w, hwithin, hat⟩
      · rw [granted_entered hentered] at hg
        rw [hpc] at hentered
        refine Or.inl ?_
        rw [granted_entered hentered, hg]

/-- Where a state is written that blocks and unblocks nobody, a task that
stays where it is holds the same grants. -/
theorem granted_restated {state : TaskState} (hpc : c'.pc i = c.pc i)
    (hview : c'.kernel.view i = (c.kernel.view i).withState state)
    (hblocked : state = .blocked ↔ (c.kernel.view i).state = .blocked) :
    c'.granted p i = c.granted p i :=
  granted_congr hpc (by rw [hview, ← hblocked]; rfl) (by rw [hview]; rfl)

/-- The task whose wait at the place ends with 1 holds a grant more. -/
theorem granted_ended (h : Sched c) (hi : i < c.kernel.taskCount) (hpc : c'.pc i = c.pc i)
    (hon : c.kernel.WaitsAt p i)
    (hv : c'.kernel.view i = (c.kernel.view i).ended 1) :
    c.granted p i = false ∧ c'.granted p i = true := by
  obtain ⟨w, hwithin⟩ := h.blocked i hi hon.1
  have hwithin' : c'.Within i w := by rwa [Cfg.Within, hpc]
  have hcall := (h.waiting i w hwithin).on hon.1
  have hat : w.waitsAt i p = true :=
    waitsAt_iff.mpr ⟨hcall.2.1.symm.trans hon.2.1, hcall.2.2.symm.trans hon.2.2⟩
  constructor
  · rw [← Bool.not_eq_true, granted_within hwithin]
    exact fun hand => hand.2.1 hon.1
  · rw [granted_within hwithin', hv]
    exact ⟨hat, by simp, rfl⟩

/-- A task that waits at the place has been waiting there. -/
theorem waitsAt_woken {R : WaitView → UInt32 → Prop} {k k' : Kernel}
    (hw : Woken R (k.view i) (k'.view i)) (h : k'.WaitsAt p i) : k.WaitsAt p i := by
  rw [Kernel.WaitsAt] at h ⊢
  rwa [hw.eq_of_blocked h.1] at h

theorem waitsAt_restated {k k' : Kernel} {state : TaskState}
    (hview : k'.view i = (k.view i).withState state)
    (hblocked : state = .blocked ↔ (k.view i).state = .blocked) (h : k'.WaitsAt p i) :
    k.WaitsAt p i := by
  rw [Kernel.WaitsAt, hview] at h
  exact ⟨hblocked.mp h.1, h.2⟩

/-- What a segment of the running task does to the record of another: it
may end its wait, or write a state that blocks and unblocks nobody. -/
theorem ThreadSegment.view_others (h : Sched c) {a : Action} {s : Segment}
    (hseg : ThreadSegment c a s) (hi : i ≠ c.current) :
    Woken (a.wakes c) (c.kernel.view i) (s.kernel.view i)
      ∨ ∃ state, s.kernel.view i = (c.kernel.view i).withState state
        ∧ (state = .blocked ↔ (c.kernel.view i).state = .blocked) := by
  rcases hseg.effect with ⟨heffect, -⟩ | ⟨w, -, rfl⟩
  · cases heffect with
    | wakes hw => exact Or.inl (hw i)
    | blocks _ _ _ hview =>
        rw [h.currentTask] at hview
        rw [hview, Function.update_of_ne hi]
        exact Or.inl .kept
    | @restates j state _ _ hj hview =>
        rw [hview]
        by_cases hij : i = j
        · subst hij
          rw [Function.update_self]
          refine Or.inr ⟨state, rfl, ?_⟩
          cases hj with
          | delayed => exact absurd h.currentTask hi
          | suspended _ hold => rcases hold with hold | ⟨hold, -⟩ <;> simp [hold]
          | resumed _ hold => simp [hold]
        · rw [Function.update_of_ne hij]
          exact Or.inl .kept
  · exact Or.inl .kept

theorem not_blocked_of_granted (h : Sched c) (hi : i < c.kernel.taskCount)
    (hg : c.granted p i = true) : (c.kernel.view i).state ≠ .blocked := by
  intro hblocked
  obtain ⟨w, hwithin⟩ := h.blocked i hi hblocked
  exact ((granted_within hwithin).mp hg).2.1 hblocked

/-- A task that is not blocked and stays where it is keeps its grants,
whatever waits end. -/
theorem granted_of_not_blocked {R : WaitView → UInt32 → Prop}
    (hb : (c.kernel.view i).state ≠ .blocked) (hpc : c'.pc i = c.pc i)
    (hw : Woken R (c.kernel.view i) (c'.kernel.view i)) : c'.granted p i = c.granted p i := by
  generalize hv' : c'.kernel.view i = v' at hw
  cases hw with
  | kept => exact granted_congr hpc (by rw [hv']) (by rw [hv'])
  | awoken hs => exact granted_congr hpc (by simp [hv', hs]) (by simp [hv'])
  | ended hblocked => exact absurd hblocked hb

/-- A grant stays with its holder through every step but its holder's own
segments. -/
theorem granted_kept (h : Sched c) {a : Action} {o : Observation} (hstep : StepCases c a c' o)
    (hi : i < c.kernel.taskCount) (hg : c.granted p i = true)
    (hown : ∀ s, ThreadSegment c a s → i ≠ c.current) :
    c'.granted p i = true ∧ c'.pc i = c.pc i := by
  have hb := not_blocked_of_granted h hi hg
  have hview : c'.kernel.view = c.kernel.view → c'.pc = c.pc →
      c'.granted p i = true ∧ c'.pc i = c.pc i := fun hview hpcs => by
    refine ⟨?_, congrFun hpcs i⟩
    rw [granted_congr (congrFun hpcs i) (by rw [hview]) (by rw [hview]), hg]
  cases hstep with
  | start _ hk =>
      obtain rfl := jrtKernelStart_spec hk
      exact hview rfl rfl
  | @thread a s _ _ hseg =>
      have hic := hown s hseg
      have hpc : (c.after s).pc i = c.pc i := Sched.after_pc_of_ne s hic
      refine ⟨?_, hpc⟩
      rw [← hg]
      rcases hseg.view_others h hic with hw | ⟨state, hstate, hblocked⟩
      · exact granted_of_not_blocked hb hpc hw
      · exact granted_restated hpc hstate hblocked
  | tick _ hk =>
      refine ⟨?_, rfl⟩
      rw [← hg]
      exact granted_of_not_blocked hb rfl (tickTasks_wakes hk i)
  | isr =>
      refine ⟨?_, rfl⟩
      rw [← hg]
      exact granted_of_not_blocked hb rfl (isrCall_wakes c.kernel _ i)
  | pendsv _ _ hk =>
      obtain ⟨state, hstate, hblocked⟩ := h.switched_view hk i
      refine ⟨?_, rfl⟩
      rw [← hg]
      exact granted_restated rfl hstate hblocked
  | store => exact hview rfl rfl
  | cycles => exact hview rfl rfl

end Granted

/-- Only the queue calls go back to their critical sections with a
reservation. -/
def ReservedInQueue (c : Cfg) : Prop :=
  ∀ i w, c.pc i = .entered w true → w.kind = .queueSend ∨ w.kind = .queueReceive

theorem ReservedInQueue.step {c c' : Cfg} {a : Action} {o : Observation} (h : ReservedInQueue c)
    (hstep : StepCases c a c' o) : ReservedInQueue c' := by
  cases hstep with
  | @thread a s _ _ hseg =>
      intro i w hpc
      by_cases hi : i = c.current
      · rw [hi, Sched.after_pc_current] at hpc
        cases hseg with
        | call _ _ hs => exact absurd hpc (enter_pc hs w).2.2
        | entered _ hs =>
            rcases proceedEntered_pc hs with huser | hyield
            · rw [huser] at hpc
              cases hpc
            · rw [hyield] at hpc
              cases hpc
        | @resumed w' _ _ =>
            obtain rfl := proceedResumed_entered hpc
            cases w with
            | queueSend => exact Or.inl rfl
            | queueReceive => exact Or.inr rfl
            | _ => cases hpc
        | yielding | requestSwitch | inTime | delayed => cases hpc
      · rw [Sched.after_pc_of_ne s hi] at hpc
        exact h i w hpc
  | start | tick | isr | pendsv | store | cycles => exact h

theorem Reachable.reservedInQueue {img : Image} {c : Cfg} (h : Reachable img c) :
    ReservedInQueue c := by
  obtain ⟨c₀, tr, ⟨k₀, config, k, -, rfl⟩, hrun⟩ := h
  refine hrun.induction ReservedInQueue (fun hr hstep => hr.step hstep) fun i w hpc => ?_
  change initialPc k i = _ at hpc
  unfold initialPc at hpc
  split at hpc
  · cases hpc
  · split at hpc <;> cases hpc

def Cfg.Unused (c : Cfg) (p : WaitPlace) : Prop :=
  ∀ i w, (c.pc i).waitCall = some w → w.waitsAt i p = false

section Unused

variable {c c' : Cfg} {p : WaitPlace} {o : Observation}

theorem Cfg.Unused.not_waited (h : c.Unused p) (hs : Sched c) : ¬c.kernel.Waited p := by
  rintro ⟨i, hi, hon⟩
  obtain ⟨w, hwithin⟩ := hs.blocked i hi hon.1
  obtain ⟨-, hobject, hkind⟩ := (hs.waiting i w hwithin).on hon.1
  have hat : w.waitsAt i p = true :=
    waitsAt_iff.mpr ⟨hobject.symm.trans hon.2.1, hkind.symm.trans hon.2.2⟩
  rw [h i w hwithin.waitCall] at hat
  cases hat

/-- Behind `JRT_KernelInit` only the timer service is in a call. -/
theorem Cfg.Unused.boot {img : Image} (hboot : Boot img c) (hkind : p.kind ≠ .timerService) :
    c.Unused p := by
  obtain ⟨k₀, config, k, -, rfl⟩ := hboot
  intro i w hcall
  have hpc : (bootCfg k).pc i = initialPc k i := rfl
  rw [hpc, initialPc] at hcall
  split at hcall
  · cases hcall
  · split at hcall
    · obtain rfl := Option.some.inj hcall
      rw [← Bool.not_eq_true, waitsAt_iff]
      exact fun hat => hkind hat.2.symm
    · cases hcall

theorem Cfg.Unused.start (h : c.Unused p) (hstart : step c .start = some (c', o)) :
    c'.Unused p := by
  have hstep := step_cases hstart
  cases hstep with
  | start => exact h
  | thread _ _ hseg => cases hseg

theorem Cfg.Unused.after (h : c.Unused p) {s : Segment} (huser : s.pc = .user) :
    (c.after s).Unused p := by
  intro i w hcall
  by_cases hi : i = c.current
  · rw [hi, Sched.after_pc_current, huser] at hcall
    cases hcall
  · rw [Sched.after_pc_of_ne s hi] at hcall
    exact h i w hcall

end Unused

/-! ## Steps that spare a place -/

/-- A step that grants and takes nothing at the place, and after which nobody
waits there who did not before. Almost all steps are of this kind, and an
invariant about one place need look at no more of them than this. -/
structure Spares (p : WaitPlace) (c c' : Cfg) : Prop where
  taskCount : c'.kernel.taskCount = c.kernel.taskCount
  granted : ∀ i < c.kernel.taskCount, c'.granted p i = c.granted p i
  waits : ∀ i < c.kernel.taskCount, c'.kernel.WaitsAt p i → c.kernel.WaitsAt p i

namespace Spares

variable {c c' : Cfg} {p : WaitPlace}

theorem grants (h : Spares p c c') : c'.grants p = c.grants p := by
  rw [Cfg.grants, h.taskCount]
  exact tally_congr h.granted

theorem waited (h : Spares p c c') (hw : c'.kernel.Waited p) : c.kernel.Waited p := by
  obtain ⟨i, hi, hwaits⟩ := hw
  rw [h.taskCount] at hi
  exact ⟨i, hi, h.waits i hi hwaits⟩

/-- Steps that end waits, none at the place with 1, and leave every task
where it is. -/
theorem of_wakes (h : Sched c) {R : WaitView → UInt32 → Prop}
    (hw : WakesOnly R c.kernel c'.kernel) (hpc : c'.pc = c.pc)
    (hn : c'.kernel.taskCount = c.kernel.taskCount)
    (hR : ∀ v, v.On p.object p.kind → ¬R v 1) : Spares p c c' :=
  ⟨hn, fun i _ => granted_woken h (congrFun hpc i) (hw i) hR, fun i _ => waitsAt_woken (hw i)⟩

theorem of_view_eq (h : Sched c) (hview : c'.kernel.view = c.kernel.view) (hpc : c'.pc = c.pc)
    (hn : c'.kernel.taskCount = c.kernel.taskCount) : Spares p c c' :=
  of_wakes h (R := noWake) (.of_view_eq hview) hpc hn fun _ _ hR => hR

theorem pendsv (h : Sched c) {currentSp sp : Ptr} {k : Kernel}
    (hk : pendsvSwitch c.kernel currentSp = .ok (sp, k)) :
    Spares p c { c with kernel := k, pending := false } := by
  obtain ⟨-, -, hframe, -⟩ := pendsvSwitch_cases hk
  refine ⟨hframe.1, fun i _ => ?_, fun i _ hon => ?_⟩
  · obtain ⟨state, hview, hblocked⟩ := h.switched_view hk i
    exact granted_restated rfl hview hblocked
  · obtain ⟨state, hview, hblocked⟩ := h.switched_view hk i
    exact waitsAt_restated hview hblocked hon

/-- What a segment of the running task does to the other tasks at a place it
grants nothing at. -/
theorem segment_others (h : Sched c) {a : Action} {s : Segment} (hseg : ThreadSegment c a s)
    (hwakes : ∀ v, v.On p.object p.kind → ¬a.wakes c v 1) {i : Nat} (hi : i ≠ c.current) :
    (c.after s).granted p i = c.granted p i ∧ (s.kernel.WaitsAt p i → c.kernel.WaitsAt p i) := by
  have hpc : (c.after s).pc i = c.pc i := Sched.after_pc_of_ne s hi
  rcases hseg.view_others h hi with hw | ⟨state, hstate, hblocked⟩
  · exact ⟨granted_woken h hpc hw hwakes, waitsAt_woken hw⟩
  · exact ⟨granted_restated hpc hstate hblocked, waitsAt_restated hstate hblocked⟩

/-- A task that runs a segment other than a call at the place does not wait
there behind it. -/
theorem segment_current_waits (h : Sched c) (hp : c.pending = false) {a : Action} {s : Segment}
    (hseg : ThreadSegment c a s)
    (hentered : ∀ w r, c.pc c.current = .entered w r → w.waitsAt c.current p = false) :
    s.kernel.WaitsAt p c.current → c.kernel.WaitsAt p c.current := by
  rcases hseg.effect with ⟨heffect, hy⟩ | ⟨w, -, rfl⟩
  · have hrun := h.current_running hp hy
    intro hon
    rw [Kernel.WaitsAt] at hon
    exfalso
    cases heffect with
    | wakes hw =>
        have hkept := (hw c.current).eq_of_blocked hon.1
        rw [hkept] at hon
        exact absurd (hrun.symm.trans hon.1) (by decide)
    | @blocks w v hpc _ _ hview hbegun =>
        obtain ⟨reserved, hentry⟩ := hseg.entered_of_yielding hpc
        rw [h.currentTask] at hview hbegun
        rw [hview, Function.update_self] at hon
        have hat : w.waitsAt c.current p = true := waitsAt_iff.mpr
          ⟨hbegun.on.2.1.symm.trans hon.2.1, hbegun.on.2.2.symm.trans hon.2.2⟩
        rw [hentered w reserved hentry] at hat
        cases hat
    | @restates j state _ _ hj hview =>
        rw [hview] at hon
        by_cases hij : c.current = j
        · rw [← hij, Function.update_self] at hon
          have hstate : state = .blocked := hon.1
          rcases hj with hs | _ | _
          · rcases hs with hs | hs <;> rw [hs] at hstate <;> cases hstate
          · cases hstate
          · cases hstate
        · rw [Function.update_of_ne hij] at hon
          exact absurd (hrun.symm.trans hon.1) (by decide)
  · exact id

/-- A segment that neither begins nor ends a call at the place leaves the
running task's grants there. -/
theorem segment_current_granted {a : Action} {s : Segment} (hseg : ThreadSegment c a s)
    (hentered : ∀ w r, c.pc c.current = .entered w r → w.waitsAt c.current p = false)
    (hresumed : ∀ w, c.pc c.current = .resumed w → w.waitsAt c.current p = false) :
    (c.after s).granted p c.current = c.granted p c.current := by
  -- Before and behind the segment the task is in no call at the place, or
  -- the segment is the `arch_yield()` of one.
  have hafter : ∀ pc, s.pc = pc → (c.after s).pc c.current = pc := fun pc hpc => by
    rw [Sched.after_pc_current, hpc]
  cases hseg with
  | call hpc _ hs =>
      have hbefore : c.granted p c.current = false :=
        granted_eq_false (by simp [hpc]) (by simp [Cfg.Within, hpc])
      rw [hbefore]
      refine granted_eq_false ?_ ?_
      · intro w hw
        rw [Sched.after_pc_current] at hw
        exact (enter_pc hs w).2.2 hw
      · rintro w (hw | hw)
        · rw [Sched.after_pc_current] at hw
          exact (enter_pc hs w).1 hw
        · rw [Sched.after_pc_current] at hw
          exact (enter_pc hs w).2.1 hw
  | @entered w reserved _ _ hpc hs =>
      have hno := hentered w reserved hpc
      rw [granted_entered hpc, hno, Bool.false_and]
      rcases proceedEntered_pc hs with hs' | hs'
      · exact granted_eq_false (by simp [hafter _ hs']) (by simp [Cfg.Within, hafter _ hs'])
      · rw [← Bool.not_eq_true, granted_within (Or.inl (hafter _ hs')), hno]
        simp
  | @yielding w _ hpc =>
      have hbefore : c.Within c.current w := Or.inl hpc
      have hbehind : (c.after { kernel := c.kernel, pc := .resumed w, switch := true }).Within
          c.current w := Or.inr (hafter _ rfl)
      rw [Bool.eq_iff_iff, granted_within hbefore, granted_within hbehind]
      rfl
  | @resumed w _ hpc =>
      have hno := hresumed w hpc
      have hbefore : c.granted p c.current = false := by
        rw [← Bool.not_eq_true, granted_within (Or.inr hpc), hno]
        simp
      rw [hbefore]
      obtain ⟨-, hy, hr⟩ := proceedResumed_view c.kernel w
      cases hpc' : (proceedResumed c.kernel w).pc with
      | entered w' reserved =>
          have hcall := proceedResumed_entered hpc'
          rw [granted_entered (hafter _ hpc'), hcall, hno, Bool.false_and]
      | yielding w' => exact absurd hpc' (hy w')
      | resumed w' => exact absurd hpc' (hr w')
      | _ => exact granted_eq_false (by simp [hafter _ hpc']) (by simp [Cfg.Within, hafter _ hpc'])
  | requestSwitch hpc =>
      have hbefore : c.granted p c.current = false :=
        granted_eq_false (by simp [hpc]) (by simp [Cfg.Within, hpc])
      rw [hbefore]
      exact granted_user (Sched.after_pc_current _)
  | inTime hpc =>
      have hbefore : c.granted p c.current = false :=
        granted_eq_false (by simp [hpc]) (by simp [Cfg.Within, hpc])
      rw [hbefore]
      exact granted_user (Sched.after_pc_current _)
  | delayed hpc =>
      have hbefore : c.granted p c.current = false :=
        granted_eq_false (by simp [hpc]) (by simp [Cfg.Within, hpc])
      rw [hbefore]
      exact granted_user (Sched.after_pc_current _)

/-- A segment that is about another place, and grants nothing at this one. -/
theorem segment (h : Sched c) (hp : c.pending = false) {a : Action} {s : Segment}
    (hseg : ThreadSegment c a s) (hwakes : ∀ v, v.On p.object p.kind → ¬a.wakes c v 1)
    (hentered : ∀ w r, c.pc c.current = .entered w r → w.waitsAt c.current p = false)
    (hresumed : ∀ w, c.pc c.current = .resumed w → w.waitsAt c.current p = false) :
    Spares p c (c.after s) := by
  refine ⟨hseg.frame.1, fun i _ => ?_, fun i _ => ?_⟩
  · by_cases hi : i = c.current
    · rw [hi]
      exact segment_current_granted hseg hentered hresumed
    · exact (segment_others h hseg hwakes hi).1
  · by_cases hi : i = c.current
    · rw [hi]
      exact segment_current_waits h hp hseg hentered
    · exact (segment_others h hseg hwakes hi).2

theorem of_segment_view_eq {s : Segment} (hn : s.kernel.taskCount = c.kernel.taskCount)
    (hview : s.kernel.view = c.kernel.view)
    (hcurrent : (c.after s).granted p c.current = c.granted p c.current) :
    Spares p c (c.after s) := by
  refine ⟨hn, fun i _ => ?_, fun i _ hon => ?_⟩
  · by_cases hi : i = c.current
    · rw [hi]
      exact hcurrent
    · have hsame : (c.after s).kernel.view i = c.kernel.view i := congrFun hview i
      exact granted_congr (Sched.after_pc_of_ne s hi) (by rw [hsame]) (by rw [hsame])
  · rw [Kernel.WaitsAt] at hon ⊢
    rwa [← show s.kernel.view i = c.kernel.view i from congrFun hview i]

end Spares

/-! ## Steps that give and take grants -/

/-- A step that takes a grant at the place, if it has one to take. -/
inductive Takes (p : WaitPlace) (c c' : Cfg) : Bool → Prop where
  | free : Spares p c c' → Takes p c c' false
  | reserved : c'.kernel.taskCount = c.kernel.taskCount →
      Gains (c'.granted p) (c.granted p) c.kernel.taskCount →
      (∀ i < c.kernel.taskCount, c'.kernel.WaitsAt p i → c.kernel.WaitsAt p i) →
      Takes p c c' true

/-- A step that gives a grant at the place, if anybody waits there. -/
inductive Gives (p : WaitPlace) (c c' : Cfg) : Bool → Prop where
  | nobody : Spares p c c' → ¬c.kernel.Waited p → Gives p c c' false
  | one : c'.kernel.taskCount = c.kernel.taskCount → c.kernel.Waited p →
      Gains (c.granted p) (c'.granted p) c.kernel.taskCount →
      (∀ i < c.kernel.taskCount, c'.kernel.WaitsAt p i → c.kernel.WaitsAt p i) →
      Gives p c c' true

section GiveTake

variable {c c' : Cfg} {p : WaitPlace} {b : Bool}

theorem Takes.taskCount (h : Takes p c c' b) : c'.kernel.taskCount = c.kernel.taskCount := by
  cases h with
  | free hs => exact hs.taskCount
  | reserved hn => exact hn

theorem Takes.waited (h : Takes p c c' b) (hw : c'.kernel.Waited p) : c.kernel.Waited p := by
  cases h with
  | free hs => exact hs.waited hw
  | reserved hn _ hwaits =>
      obtain ⟨i, hi, hi'⟩ := hw
      exact ⟨i, hn ▸ hi, hwaits i (hn ▸ hi) hi'⟩

theorem Takes.grants (h : Takes p c c' b) : c.grants p = c'.grants p + b.toNat := by
  cases h with
  | free hs => exact hs.grants.symm
  | reserved hn hgains _ =>
      rw [Cfg.grants, Cfg.grants, hn]
      exact hgains.tally_eq

theorem Gives.taskCount (h : Gives p c c' b) : c'.kernel.taskCount = c.kernel.taskCount := by
  cases h with
  | nobody hs => exact hs.taskCount
  | one hn => exact hn

theorem Gives.waited (h : Gives p c c' b) (hw : c'.kernel.Waited p) : c.kernel.Waited p := by
  cases h with
  | nobody hs => exact hs.waited hw
  | one _ hwaited => exact hwaited

theorem Gives.given_iff (h : Gives p c c' b) : b = true ↔ c.kernel.Waited p := by
  cases h with
  | nobody _ hno => simp [hno]
  | one _ hwaited => simp [hwaited]

theorem Gives.grants (h : Gives p c c' b) : c'.grants p = c.grants p + b.toNat := by
  cases h with
  | nobody hs _ => exact hs.grants
  | one hn _ hgains _ =>
      rw [Cfg.grants, Cfg.grants, hn]
      exact hgains.tally_eq

/-- The selected waiter at the place, if there is one. -/
def Kernel.selected (k : Kernel) (p : WaitPlace) : Option Nat := wakeSelect k p.object p.kind

/-- The waits behind a wake of the selected waiter. -/
def Kernel.wokenView (k : Kernel) (p : WaitPlace) : Nat → WaitView :=
  (k.selected p).elim k.view fun s => Function.update k.view s ((k.view s).ended 1)

theorem wakeSelected_view (k : Kernel) (p : WaitPlace) :
    ((k.selected p).elim k fun s => taskWaitEnd k s 1 false).view = k.wokenView p := by
  rw [Kernel.wokenView]
  cases k.selected p with
  | none => rfl
  | some s => exact taskWaitEnd_view k s 1 false

/-- The wake of the selected waiter gives it a grant. -/
theorem Gives.of_wake (h : Sched c) (hn : c'.kernel.taskCount = c.kernel.taskCount)
    (hview : c'.kernel.view = c.kernel.wokenView p)
    (hpc : ∀ i, c.kernel.WaitsAt p i → c'.pc i = c.pc i)
    (hrest : ∀ i, c'.kernel.view i = c.kernel.view i → c'.granted p i = c.granted p i) :
    Gives p c c' (c.kernel.selected p).isSome := by
  have hwakes := wakeSelected_wakes c.kernel p.object p.kind
  have hwaits : ∀ i, c'.kernel.WaitsAt p i → c.kernel.WaitsAt p i := fun i hon => by
    rw [Kernel.WaitsAt, hview, ← wakeSelected_view] at hon
    exact waitsAt_woken (hwakes i) hon
  rw [Kernel.wokenView] at hview
  cases hs : c.kernel.selected p with
  | none =>
      rw [hs] at hview
      refine .nobody ⟨hn, fun i _ => hrest i (congrFun hview i), fun i _ => hwaits i⟩ ?_
      rintro ⟨i, hi, hon⟩
      exact wakeSelect_eq_none_iff.mp hs i hi hon
  | some s =>
      obtain ⟨hlt, hon, -⟩ := wakeSelect_spec hs
      rw [hs] at hview
      change c'.kernel.view = Function.update c.kernel.view s ((c.kernel.view s).ended 1) at hview
      have hself : c'.kernel.view s = (c.kernel.view s).ended 1 := by
        rw [hview, Function.update_self]
      obtain ⟨hbefore, hbehind⟩ := granted_ended h hlt (hpc s hon) hon hself
      refine .one hn ⟨s, hlt, hon⟩ ⟨s, hlt, hbefore, hbehind, fun j _ hj => hrest j ?_⟩
        fun i _ => hwaits i
      rw [hview, Function.update_of_ne hj]

/-! ### Segments in a critical section at the place -/

theorem not_waitsAt_of_user (h : Sched c) {i : Nat} (hi : i < c.kernel.taskCount)
    (hpc : c.pc i = .user) : ¬c.kernel.WaitsAt p i := by
  intro hon
  obtain ⟨w, hw | hw⟩ := h.blocked i hi hon.1 <;> rw [hpc] at hw <;> cases hw

/-- The running task of a critical section waits nowhere. -/
theorem not_waitsAt_of_entered (h : Sched c) {w : WaitCall} {r : Bool}
    (hpc : c.pc c.current = .entered w r) : ¬c.kernel.WaitsAt p c.current := by
  intro hon
  obtain ⟨w, hw | hw⟩ := h.blocked c.current h.current_lt hon.1 <;> rw [hpc] at hw <;> cases hw

/-- A call at the place returns from its critical section, with the grant
it had. -/
theorem Takes.of_return (h : Sched c) (hpending : c.pending = false) {a : Action} {s : Segment}
    (hseg : ThreadSegment c a s) {w : WaitCall} {r : Bool}
    (hpc : c.pc c.current = .entered w r) (hat : w.waitsAt c.current p = true)
    (huser : s.pc = .user) (hwakes : ∀ v, v.On p.object p.kind → ¬a.wakes c v 1) :
    Takes p c (c.after s) r := by
  have hn : s.kernel.taskCount = c.kernel.taskCount := hseg.frame.1
  have hafter : (c.after s).pc c.current = .user := by rw [Sched.after_pc_current, huser]
  have hbehind : (c.after s).granted p c.current = false := granted_user hafter
  have hbefore : c.granted p c.current = r := by rw [granted_entered hpc, hat, Bool.true_and]
  have hwaits : ∀ i < c.kernel.taskCount, s.kernel.WaitsAt p i → c.kernel.WaitsAt p i := by
    intro i hi hon
    by_cases hic : i = c.current
    · rw [hic] at hi hon
      have hi' : c.current < (c.after s).kernel.taskCount := hn ▸ hi
      exact absurd hon (not_waitsAt_of_user (h.after_segment hpending hseg) hi' hafter)
    · exact (Spares.segment_others h hseg hwakes hic).2 hon
  have hothers : ∀ i, i ≠ c.current → (c.after s).granted p i = c.granted p i := fun i hi =>
    (Spares.segment_others h hseg hwakes hi).1
  cases r with
  | false =>
      refine .free ⟨hn, fun i _ => ?_, hwaits⟩
      by_cases hic : i = c.current
      · rw [hic, hbehind, hbefore]
      · exact hothers i hic
  | true =>
      exact .reserved hn
        ⟨c.current, h.current_lt, hbehind, hbefore, fun j _ hj => (hothers j hj).symm⟩ hwaits

/-- A call returns from its critical section behind a wake at another
place. -/
theorem Gives.of_return (h : Sched c) {s : Segment} (hn : s.kernel.taskCount = c.kernel.taskCount)
    {w : WaitCall} {r : Bool} (hpc : c.pc c.current = .entered w r)
    (hat : w.waitsAt c.current p = false) (huser : s.pc = .user)
    (hview : s.kernel.view = c.kernel.wokenView p) :
    Gives p c (c.after s) (c.kernel.selected p).isSome := by
  have hbehind : (c.after s).granted p c.current = false :=
    granted_user (by rw [Sched.after_pc_current, huser])
  have hbefore : c.granted p c.current = false := by
    rw [granted_entered hpc, hat, Bool.false_and]
  refine .of_wake h hn hview (fun i hon => ?_) fun i hsame => ?_
  · refine Sched.after_pc_of_ne s fun hic => ?_
    rw [hic] at hon
    exact not_waitsAt_of_entered h hpc hon
  · by_cases hic : i = c.current
    · rw [hic, hbehind, hbefore]
    · exact granted_congr (Sched.after_pc_of_ne s hic) (by rw [hsame]) (by rw [hsame])

/-- A call blocks in its critical section: no grant changes hands. -/
theorem granted_of_block {s : Segment} {w : WaitCall} {v : WaitView}
    (hpc : c.pc c.current = .entered w false) (hyield : s.pc = .yielding w)
    (hview : s.kernel.view = Function.update c.kernel.view c.current v)
    (hblocked : v.state = .blocked) (i : Nat) : (c.after s).granted p i = c.granted p i := by
  by_cases hic : i = c.current
  · have hself : s.kernel.view c.current = v := by rw [hview, Function.update_self]
    rw [hic, granted_entered hpc, Bool.and_false, ← Bool.not_eq_true,
      granted_within (Or.inl (by rw [Sched.after_pc_current, hyield]))]
    rintro ⟨-, hstate, -⟩
    rw [show (c.after s).kernel.view c.current = v from hself] at hstate
    exact hstate hblocked
  · have hsame : (c.after s).kernel.view i = c.kernel.view i := by
      show s.kernel.view i = _
      rw [hview, Function.update_of_ne hic]
    exact granted_congr (Sched.after_pc_of_ne s hic) (by rw [hsame]) (by rw [hsame])

theorem grants_of_block {s : Segment} {w : WaitCall} {v : WaitView}
    (hn : s.kernel.taskCount = c.kernel.taskCount)
    (hpc : c.pc c.current = .entered w false) (hyield : s.pc = .yielding w)
    (hview : s.kernel.view = Function.update c.kernel.view c.current v)
    (hblocked : v.state = .blocked) : (c.after s).grants p = c.grants p := by
  rw [Cfg.grants, Cfg.grants, show (c.after s).kernel.taskCount = c.kernel.taskCount from hn]
  exact tally_congr fun i _ => granted_of_block hpc hyield hview hblocked i

/-- A call that blocks spares every place but its own. -/
theorem Spares.of_block {s : Segment} {w : WaitCall} {v : WaitView}
    (hn : s.kernel.taskCount = c.kernel.taskCount)
    (hpc : c.pc c.current = .entered w false) (hyield : s.pc = .yielding w)
    (hview : s.kernel.view = Function.update c.kernel.view c.current v)
    (hv : v.On (w.object c.current) w.kind) (hat : w.waitsAt c.current p = false) :
    Spares p c (c.after s) := by
  refine ⟨hn, fun i _ => granted_of_block hpc hyield hview hv.1 i, fun i _ hon => ?_⟩
  change (s.kernel.view i).On p.object p.kind at hon
  rw [hview] at hon
  by_cases hic : i = c.current
  · subst hic
    rw [Function.update_self] at hon
    have hwaits : w.waitsAt c.current p = true :=
      waitsAt_iff.mpr ⟨hv.2.1.symm.trans hon.2.1, hv.2.2.symm.trans hon.2.2⟩
    rw [hwaits] at hat
    cases hat
  · rwa [Function.update_of_ne hic] at hon

end GiveTake

end JustRT
