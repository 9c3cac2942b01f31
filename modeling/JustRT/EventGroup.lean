import JustRT.Grant

/-!
# Event groups

`event_group_set_bits_common` readies a waiter because its condition holds,
but the waiter reads the bits again when it runs. In between a step may
clear them: another waiter that asked for the same bits with
`clear_on_exit` and runs first, or the creation of the group anew. While no
step clears bits that a woken waiter still needs, the waiter finds its
condition met.

What a step sets and what it clears are functions of the state before it
and of its action (`Action.setsBits`, `Cfg.clears`), and
`StepCases.eventBits` is the one place where a group's bits are followed
through the code: behind any step they are what they were, with the bits
that were set, without those that were cleared.
-/

namespace JustRT

/-! ## Bits -/

theorem or_and (a b c : UInt32) : (a ||| b) &&& c = (a &&& c) ||| (b &&& c) := by
  apply UInt32.eq_of_toBitVec_eq
  ext i hi
  simp [Bool.and_or_distrib_right]

/-- More bits meet every condition that fewer meet. -/
theorem eventCondition_or {bits more requested waitAll : UInt32}
    (h : eventCondition bits requested waitAll = true) :
    eventCondition (bits ||| more) requested waitAll = true := by
  unfold eventCondition at h ⊢
  by_cases hall : waitAll ≠ 0
  · rw [if_pos hall, beq_iff_eq] at h ⊢
    rw [or_and, h]
    apply UInt32.eq_of_toBitVec_eq
    ext i hi
    simp
  · rw [if_neg hall, bne_iff_ne] at h ⊢
    intro hzero
    rw [or_and, UInt32.or_eq_zero_iff] at hzero
    exact h hzero.1

theorem eventCondition_and (bits requested waitAll : UInt32) :
    eventCondition (bits &&& requested) requested waitAll
      = eventCondition bits requested waitAll := by
  rw [eventCondition, eventCondition, UInt32.and_assoc, UInt32.and_self]

/-! ## What a step does to the bits -/

/-- The place at which the tasks wait for a group. -/
def eventPlace (g : Ptr) : WaitPlace := ⟨.ptr g, .eventGroup⟩

def Action.setsBits (g : Ptr) : Action → UInt32
  | .call (.eventGroupSetBits a bits) | .isr (.eventGroupSetBitsFromIsr a bits) =>
      if a = g ∧ a ≠ 0 then bits else 0
  | _ => 0

/-- The bits a call that finds its condition met clears in the group. -/
def WaitCall.clears (k : Kernel) (g : Ptr) : WaitCall → UInt32
  | .eventGroupWaitBits a bits waitAll clearOnExit _ =>
      if (a = g ∧ a ≠ 0) ∧ clearOnExit = true
          ∧ eventCondition (k.eventGroups g).bits bits (boolWord waitAll) = true then bits
      else 0
  | _ => 0

/-- The bits a step clears in the group: all of them where it creates the
group, those of a wait that exits where this has `clear_on_exit`. -/
def Cfg.clears (c : Cfg) (g : Ptr) : Action → UInt32
  | .call (.eventGroupCreateStatic a) => if a = g ∧ a ≠ 0 then ~~~0 else 0
  | .proceed _ =>
      match c.pc c.current with
      | .entered w _ | .resumed w => w.clears c.kernel g
      | _ => 0
  | _ => 0

/-- The waits `event_group_set_bits_common` ends. -/
def eventWakes (g : Ptr) (bits : UInt32) (v : WaitView) (r : UInt32) : Prop :=
  wakesOn (.ptr g) .eventGroup v r ∧ eventCondition bits v.eventWaitBits v.eventWaitAll = true

section SetBits

variable {k k' : Kernel} {g : Ptr} {bits result : UInt32} {fromIsr inIsr : Bool}

theorem setBitsStep_eventWakes (g : Ptr) (k : Kernel) (index : Nat) :
    (setBitsStep g k index).eventGroups = k.eventGroups
      ∧ WakesOnly (eventWakes g (k.eventGroups g).bits) k (setBitsStep g k index) := by
  simp only [setBitsStep]
  split
  · next h =>
      refine ⟨rfl, .of_ended (taskWaitEnd_view _ _ _ _) h.1 ⟨⟨h.2.2.1, h.2.1, rfl⟩, h.2.2.2⟩⟩
  · exact ⟨rfl, .refl k⟩

/-- The wakes go to waiters whose condition the new bits meet. -/
theorem eventGroupSetBitsCommon_spec
    (h : eventGroupSetBitsCommon k g bits fromIsr inIsr = some (result, k')) :
    g ≠ 0 ∧ (∀ a, k'.eventGroups a
        = if a = g then { bits := (k.eventGroups g).bits ||| bits } else k.eventGroups a)
      ∧ WakesOnly (eventWakes g (k'.eventGroups g).bits) k k' := by
  simp only [eventGroupSetBitsCommon] at h
  split at h
  · cases h
  · next hvalid =>
      rw [not_or] at hvalid
      obtain ⟨-, rfl⟩ := Prod.mk.inj (Option.some.inj h)
      obtain ⟨hgroups, hwakes⟩ := Scan.foldl_rel
        (r := fun k k' : Kernel => k'.eventGroups = k.eventGroups
          ∧ WakesOnly (eventWakes g (k.eventGroups g).bits) k k')
        (fun k => ⟨rfl, .refl k⟩)
        (fun h₁ h₂ => ⟨h₂.1.trans h₁.1, h₁.2.trans (h₁.1 ▸ h₂.2)⟩)
        (setBitsStep_eventWakes g) (List.range k.taskCount)
        (k.setEventGroup g { bits := (k.eventGroups g).bits ||| bits })
      refine ⟨hvalid.1, fun a => ?_, ?_⟩
      · exact (congrFun hgroups a).trans (setEventGroup_eventGroups _ _ _ _)
      · rw [← hgroups] at hwakes
        exact (WakesOnly.of_view_eq (setEventGroup_view _ _ _)).trans hwakes

/-- In its own context the operation refuses the null group only, and bits
that are no bits. -/
theorem eventGroupSetBitsCommon_bits (g : Ptr) (hg : g ≠ 0) {b : Ptr} {inIsr : Bool} :
    (((eventGroupSetBitsCommon k b bits inIsr inIsr).elim k Prod.snd).eventGroups g).bits
      = (k.eventGroups g).bits ||| if b = g ∧ b ≠ 0 then bits else 0 := by
  cases hcommon : eventGroupSetBitsCommon k b bits inIsr inIsr with
  | none =>
      have hb : b = 0 := by
        simpa [eventGroupSetBitsCommon, wrongContext] using hcommon
      simp [hb, Ne.symm hg]
  | some r =>
      obtain ⟨hne, hgroups, -⟩ := eventGroupSetBitsCommon_spec hcommon
      show (r.2.eventGroups g).bits = _
      rw [hgroups]
      by_cases hb : b = g
      · subst hb
        simp [hg]
      · simp [hb, Ne.symm hb]

end SetBits

section Bits

variable {c c' : Cfg} {a : Action} {o : Observation} {g : Ptr}

theorem and_not_zero (b : UInt32) : b &&& ~~~0 = b := by simp

/-- The critical section of a wait clears what `WaitCall.clears` says. -/
theorem jrtEventGroupWaitBits_bits (k : Kernel) (a : Ptr) (bits : UInt32)
    (waitAll clear : Bool) (timeout : UInt32) :
    ((jrtEventGroupWaitBits k a bits waitAll clear timeout false).2.eventGroups g).bits
      = (k.eventGroups g).bits
        &&& ~~~(WaitCall.eventGroupWaitBits a bits waitAll clear timeout).clears k g := by
  simp only [jrtEventGroupWaitBits, WaitCall.clears, Bool.false_eq_true, or_false]
  by_cases hinvalid : a = 0 ∨ bits = 0
  · rw [if_pos hinvalid]
    rcases hinvalid with rfl | rfl
    · simp
    · split <;> simp
  · rw [if_neg hinvalid]
    rw [not_or] at hinvalid
    by_cases ha : a = g
    · subst ha
      cases hmet : eventCondition (k.eventGroups a).bits bits (boolWord waitAll) with
      | true => cases clear <;> simp [hinvalid.1, setEventGroup_eventGroups]
      | false =>
          simp only [Bool.false_eq_true, if_false, and_false]
          split <;> simp [taskWaitBegin, taskWaitBeginUntil]
    · have hno : ¬((a = g ∧ a ≠ 0) ∧ clear = true
          ∧ eventCondition (k.eventGroups g).bits bits (boolWord waitAll) = true) :=
        fun hand => ha hand.1.1
      rw [if_neg hno]
      split
      · cases clear <;> simp [setEventGroup_eventGroups, Ne.symm ha]
      · split <;> simp [taskWaitBegin, taskWaitBeginUntil]

theorem jrtEventGroupWaitBitsResume_bits (h : Sched c) {a : Ptr} {bits timeout : UInt32}
    {waitAll clear : Bool}
    (hpc : c.pc c.current = .resumed (.eventGroupWaitBits a bits waitAll clear timeout))
    (hg : g ≠ 0) :
    ((jrtEventGroupWaitBitsResume c.kernel a bits).2.eventGroups g).bits
      = (c.kernel.eventGroups g).bits
        &&& ~~~(WaitCall.eventGroupWaitBits a bits waitAll clear timeout).clears c.kernel g := by
  obtain ⟨hbits, hall, hclear⟩ := (h.waiting c.current _ (Or.inr hpc)).eventFields
  have hall' : (c.kernel.tasks c.kernel.currentTask).eventWaitAll = boolWord waitAll := by
    rw [h.currentTask]
    exact hall
  have hclear' : (c.kernel.tasks c.kernel.currentTask).eventClearOnExit = boolWord clear := by
    rw [h.currentTask]
    exact hclear
  simp only [jrtEventGroupWaitBitsResume, WaitCall.clears, hall', hclear']
  by_cases ha : a = g
  · subst ha
    cases hmet : eventCondition (c.kernel.eventGroups a).bits bits (boolWord waitAll) with
    | true => cases clear <;> simp [hg, boolWord, setEventGroup_eventGroups]
    | false => simp
  · have hno : ¬((a = g ∧ a ≠ 0) ∧ clear = true
        ∧ eventCondition (c.kernel.eventGroups g).bits bits (boolWord waitAll) = true) :=
      fun hand => ha hand.1.1
    rw [if_neg hno]
    split <;> simp [setEventGroup_eventGroups, Ne.symm ha]

theorem call_eventBits {made : Call} {s : Segment} (hg : g ≠ 0)
    (hs : enter c.kernel made = .ok s) :
    (s.kernel.eventGroups g).bits
      = ((c.kernel.eventGroups g).bits ||| Action.setsBits g (.call made))
        &&& ~~~c.clears g (.call made) := by
  cases made with
  | eventGroupCreateStatic b =>
      obtain rfl := Except.ok.inj hs
      show ((jrtEventGroupCreateStatic c.kernel b).eventGroups g).bits = _
      simp only [jrtEventGroupCreateStatic, Action.setsBits, Cfg.clears]
      by_cases hb : b = g
      · subst hb
        simp [hg, setEventGroup_eventGroups]
      · split <;> simp [hb, setEventGroup_eventGroups, Ne.symm hb]
  | eventGroupSetBits b bits =>
      have hkernel : s.kernel
          = (eventGroupSetBitsCommon c.kernel b bits false false).elim c.kernel Prod.snd := by
        simp only [enter] at hs
        cases hcommon : eventGroupSetBitsCommon c.kernel b bits false false with
        | none | some =>
            rw [hcommon] at hs
            obtain rfl := Except.ok.inj hs
            rfl
      rw [hkernel, eventGroupSetBitsCommon_bits g hg]
      simp only [Action.setsBits, Cfg.clears, and_not_zero]
  | _ =>
      rw [(enter_heap hs).eventGroups (by simp [Call.objectKind])]
      simp only [Action.setsBits, Cfg.clears, and_not_zero, UInt32.or_zero]

theorem isr_eventBits (call : IsrCall) (hg : g ≠ 0) :
    ((isrCall c.kernel call).1.eventGroups g).bits
      = (c.kernel.eventGroups g).bits ||| Action.setsBits g (.isr call) := by
  cases call with
  | eventGroupSetBitsFromIsr b bits =>
      have hkernel : (isrCall c.kernel (.eventGroupSetBitsFromIsr b bits)).1
          = (eventGroupSetBitsCommon c.kernel b bits true true).elim c.kernel Prod.snd := by
        simp only [isrCall]
        cases eventGroupSetBitsCommon c.kernel b bits true true <;> rfl
      rw [hkernel, eventGroupSetBitsCommon_bits g hg]
      simp only [Action.setsBits]
  | _ =>
      rw [(isrCall_heap c.kernel _).eventGroups (by simp [IsrCall.objectKind])]
      simp only [Action.setsBits, UInt32.or_zero]

theorem proceed_eventBits (h : Sched c) (hg : g ≠ 0) {source : Nat → UInt8} {s : Segment}
    (hseg : ThreadSegment c (.proceed source) s) :
    (s.kernel.eventGroups g).bits
      = (c.kernel.eventGroups g).bits &&& ~~~c.clears g (.proceed source) := by
  cases hseg with
  | @entered w _ _ _ hpc hs =>
      cases w with
      | eventGroupWaitBits =>
          obtain rfl := Except.ok.inj hs
          rw [ofFlow_kernel, jrtEventGroupWaitBits_bits]
          simp only [Cfg.clears, hpc]
      | _ =>
          rw [(proceedEntered_heap hs).eventGroups (by simp [WaitCall.objectKind])]
          simp [Cfg.clears, hpc, WaitCall.clears]
  | @resumed w _ hpc =>
      cases w with
      | eventGroupWaitBits b bits waitAll clear timeout =>
          show ((jrtEventGroupWaitBitsResume c.kernel b bits).2.eventGroups g).bits = _
          rw [jrtEventGroupWaitBitsResume_bits h hpc hg]
          simp only [Cfg.clears, hpc]
      | _ =>
          rw [(proceedResumed_heap c.kernel _).eventGroups (by simp [WaitCall.objectKind])]
          simp [Cfg.clears, hpc, WaitCall.clears]
  | yielding hpc | requestSwitch hpc | inTime hpc | delayed hpc => simp [Cfg.clears, hpc]

/-- Every step sets and clears the bits that `setsBits` and `clears` say. -/
theorem StepCases.eventBits (hstep : StepCases c a c' o) (h : Sched c) (hg : g ≠ 0) :
    (c'.kernel.eventGroups g).bits
      = ((c.kernel.eventGroups g).bits ||| a.setsBits g) &&& ~~~c.clears g a := by
  have hkept : c'.kernel.eventGroups = c.kernel.eventGroups → a.setsBits g = 0 →
      c.clears g a = 0 → (c'.kernel.eventGroups g).bits
        = ((c.kernel.eventGroups g).bits ||| a.setsBits g) &&& ~~~c.clears g a :=
    fun hgroups hsets hclears => by
      rw [hgroups, hsets, hclears, and_not_zero, UInt32.or_zero]
  cases hstep with
  | start _ hk =>
      refine hkept ?_ rfl rfl
      obtain rfl := jrtKernelStart_spec hk
      rfl
  | @thread a s _ _ hseg =>
      show (s.kernel.eventGroups g).bits = _
      cases a with
      | call =>
          cases hseg with
          | call _ _ hs => exact call_eventBits hg hs
      | proceed source =>
          rw [proceed_eventBits h hg hseg]
          simp only [Action.setsBits, UInt32.or_zero]
      | _ => cases hseg
  | tick _ hk => exact hkept ((tickTasks_heap hk).eventGroups (by simp)) rfl rfl
  | @isr call _ =>
      have hbits := isr_eventBits (c := c) call hg
      simpa only [Cfg.clears, and_not_zero] using hbits
  | pendsv _ _ hk => exact hkept ((pendsvSwitch_heap hk .none).eventGroups (by simp)) rfl rfl
  | store => exact hkept rfl rfl rfl
  | cycles => exact hkept rfl rfl rfl

end Bits

/-! ## What a step does to woken waiters -/

/-- The bits meet the condition of task `i`, if it waits for the group. -/
def Cfg.Meets (c : Cfg) (g : Ptr) (i : Nat) (current : UInt32) : Prop :=
  ∀ bits waitAll clearOnExit timeout,
    (c.pc i).waitCall = some (.eventGroupWaitBits g bits waitAll clearOnExit timeout) →
      eventCondition current bits (boolWord waitAll) = true

/-- The reason a step may end a wait for the group with 1. -/
def meetsWaiter (g : Ptr) (current : UInt32) (v : WaitView) (r : UInt32) : Prop :=
  v.waitObject = .ptr g → v.waitKind = .eventGroup → r = 1 →
    eventCondition current v.eventWaitBits v.eventWaitAll = true

section Grants

variable {c c' : Cfg} {a : Action} {o : Observation} {g : Ptr} {i : Nat}

theorem waitsAt_eventPlace_iff {w : WaitCall} : w.waitsAt i (eventPlace g) = true
    ↔ ∃ bits waitAll clear timeout, w = .eventGroupWaitBits g bits waitAll clear timeout := by
  rw [waitsAt_iff]
  cases w <;> simp [WaitCall.object, WaitCall.kind, eventPlace]

/-- A task that stays where it is and holds a grant held it before, or it was
woken for its condition. -/
theorem granted_of_meetsWaiter (h : Sched c) {current : UInt32} (hpc : c'.pc i = c.pc i)
    (hw : Woken (meetsWaiter g current) (c.kernel.view i) (c'.kernel.view i))
    (hg : c'.granted (eventPlace g) i = true) :
    c.granted (eventPlace g) i = true ∨ c'.Meets g i current := by
  rcases granted_of_woken hpc hw hg with hbefore | ⟨hblocked, hmeets, w, hwithin, hat⟩
  · exact Or.inl hbefore
  · refine Or.inr fun bits waitAll clear timeout hcall => ?_
    obtain ⟨-, hobject, hkind⟩ := (h.waiting i w hwithin).on hblocked
    obtain ⟨hatObject, hatKind⟩ := waitsAt_iff.mp hat
    rw [hpc, hwithin.waitCall] at hcall
    obtain rfl := Option.some.inj hcall
    obtain ⟨hbits, hall, -⟩ := (h.waiting i _ hwithin).eventFields
    have hmet := hmeets (hobject.trans hatObject) (hkind.trans hatKind) rfl
    rwa [hbits, hall] at hmet

/-- Whatever a call wakes at the group's place but by setting bits. -/
theorem call_meetsWaiter {current : UInt32} {made : Call}
    (hmade : ∀ bits, made ≠ .eventGroupSetBits g bits) {v : WaitView} {r : UInt32}
    (hw : made.wakes v r) : meetsWaiter g current v r := by
  intro hobject hkind _
  exfalso
  cases made with
  | eventGroupSetBits b bits =>
      have hobj := hw.1
      rw [hobject] at hobj
      exact hmade bits (by rw [WaitObject.ptr.inj hobj])
  | semaphoreGive | mutexUnlock | timerSetCallback =>
      have hk := hw.2.1
      rw [hkind] at hk
      cases hk
  | taskNotify =>
      have hk := hw.1
      rw [hkind] at hk
      cases hk
  | _ => exact hw

/-- What a handler's call does to the record of a task. -/
theorem isr_meetsWaiter {call : IsrCall} (i : Nat) :
    Woken (meetsWaiter g ((isrCall c.kernel call).1.eventGroups g).bits) (c.kernel.view i)
      ((isrCall c.kernel call).1.view i) := by
  have hw := isrCall_wakes c.kernel call i
  cases call with
  | eventGroupSetBitsFromIsr b bits =>
      by_cases hb : b = g
      · subst hb
        simp only [isrCall]
        split
        · exact .kept
        · next hsome =>
            obtain ⟨-, -, hwakes⟩ := eventGroupSetBitsCommon_spec hsome
            exact (hwakes i).mono fun v r hr _ _ _ => hr.2
      · refine hw.mono fun v r hr hobject _ _ => ?_
        have hobj := hr.1
        rw [hobject] at hobj
        exact absurd (WaitObject.ptr.inj hobj).symm hb
  | semaphoreGiveFromIsr | queueSendFromIsr =>
      refine hw.mono fun v r hr _ hkind _ => ?_
      have hk := hr.2.1
      rw [hkind] at hk
      cases hk
  | taskNotifyFromIsr =>
      refine hw.mono fun v r hr _ hkind _ => ?_
      have hk := hr.1
      rw [hkind] at hk
      cases hk

/-- What a segment of the running task does to the record of another. -/
theorem segment_meetsWaiter (h : Sched c) {s : Segment} (hseg : ThreadSegment c a s)
    (hi : i ≠ c.current) :
    Woken (meetsWaiter g (s.kernel.eventGroups g).bits) (c.kernel.view i) (s.kernel.view i)
      ∨ ∃ state, s.kernel.view i = (c.kernel.view i).withState state
        ∧ (state = .blocked ↔ (c.kernel.view i).state = .blocked) := by
  by_cases hset : ∃ bits, a = .call (.eventGroupSetBits g bits)
  · obtain ⟨bits, rfl⟩ := hset
    refine Or.inl ?_
    cases hseg with
    | call _ _ hs =>
        simp only [enter] at hs
        split at hs
        · obtain rfl := Except.ok.inj hs
          exact .kept
        · next hsome =>
            obtain rfl := Except.ok.inj hs
            obtain ⟨-, -, hwakes⟩ := eventGroupSetBitsCommon_spec hsome
            exact (hwakes i).mono fun v r hw _ _ _ => hw.2
  · refine (hseg.view_others h hi).imp (Woken.mono fun v r hw => ?_) id
    cases a with
    | call made => exact call_meetsWaiter (fun bits hmade => hset ⟨bits, by rw [hmade]⟩) hw
    | proceed source =>
        rw [Action.wakes] at hw
        intro _ hkind _
        exfalso
        cases hpc : c.pc c.current with
        | entered w reserved =>
            rw [hpc] at hw
            cases w with
            | queueSend | queueReceive =>
                have hk := hw.2.1
                rw [hkind] at hk
                cases hk
            | _ => exact hw
        | _ =>
            rw [hpc] at hw
            exact hw
    | _ => exact hw.elim

/-- A segment of the running task gives it no grant of the group, and clears
nothing where it keeps one. -/
theorem segment_granted_event (h : Sched c) {s : Segment} (hseg : ThreadSegment c a s)
    (hg : (c.after s).granted (eventPlace g) c.current = true) :
    c.granted (eventPlace g) c.current = true
      ∧ ((c.after s).pc c.current).waitCall = (c.pc c.current).waitCall ∧ c.clears g a = 0 := by
  have hpc' : (c.after s).pc c.current = s.pc := Sched.after_pc_current s
  obtain ⟨w, hat, hw⟩ := exists_waitsAt_of_granted hg
  obtain ⟨bits, waitAll, clear, timeout, rfl⟩ := waitsAt_eventPlace_iff.mp hat
  rw [Cfg.Within, hpc'] at hw
  cases hseg with
  | call _ _ hs =>
      obtain ⟨hy, hr, he⟩ := enter_pc hs (.eventGroupWaitBits g bits waitAll clear timeout)
      exact absurd hw (not_or.mpr ⟨not_or.mpr ⟨hy, hr⟩, he⟩)
  | @entered w' reserved source s hpc hs =>
      exfalso
      rcases proceedEntered_pc hs with huser | hyield
      · rw [huser] at hw
        rcases hw with (hw | hw) | hw <;> cases hw
      · -- The call has just blocked.
        have hblocked := (granted_within (Or.inl (hpc'.trans hyield))).mp hg
        have heffect := proceedEntered_effect hs
        cases heffect with
        | wakes _ hy => exact hy _ hyield
        | restates huser =>
            rw [huser] at hyield
            cases hyield
        | blocks _ _ _ hview hbegun =>
            rw [h.currentTask] at hview hbegun
            refine hblocked.2.1 ?_
            show (s.kernel.view c.current).state = .blocked
            rw [hview, Function.update_self]
            exact hbegun.on.1
  | @yielding w' source hpc =>
      refine ⟨?_, ?_, by simp [Cfg.clears, hpc]⟩
      · rw [granted_within (Or.inl hpc)]
        exact (granted_within (Or.inr hpc')).mp hg
      · rw [hpc', hpc]
        rfl
  | @resumed w' source hpc =>
      exfalso
      obtain ⟨-, hy, hr⟩ := proceedResumed_view c.kernel w'
      rcases hw with (hw | hw) | hw
      · exact hy _ hw
      · exact hr _ hw
      · obtain rfl := proceedResumed_entered hw
        cases hw
  | requestSwitch | inTime | delayed => rcases hw with (hw | hw) | hw <;> cases hw

/-- Whoever holds a grant of the group behind a step held it before, and did
not clear anything, or was woken by the step for its condition. -/
theorem StepCases.eventGrants (hstep : StepCases c a c' o) (h : Sched c)
    (hg : c'.granted (eventPlace g) i = true) :
    (c.granted (eventPlace g) i = true ∧ (c'.pc i).waitCall = (c.pc i).waitCall
        ∧ (i = c.current → c.clears g a = 0))
      ∨ c'.Meets g i (c'.kernel.eventGroups g).bits := by
  -- Steps that leave every task where it is, and clear nothing.
  have hstays : c'.pc = c.pc → c.clears g a = 0 →
      Woken (meetsWaiter g (c'.kernel.eventGroups g).bits) (c.kernel.view i) (c'.kernel.view i) →
      (c.granted (eventPlace g) i = true ∧ (c'.pc i).waitCall = (c.pc i).waitCall
          ∧ (i = c.current → c.clears g a = 0))
        ∨ c'.Meets g i (c'.kernel.eventGroups g).bits := fun hpcs hclears hw =>
    (granted_of_meetsWaiter h (congrFun hpcs i) hw hg).imp
      (fun hbefore => ⟨hbefore, by rw [hpcs], fun _ => hclears⟩) id
  have hview : c'.kernel.view = c.kernel.view →
      Woken (meetsWaiter g (c'.kernel.eventGroups g).bits) (c.kernel.view i) (c'.kernel.view i) :=
    fun hview => by
      rw [hview]
      exact .kept
  cases hstep with
  | start _ hk =>
      obtain rfl := jrtKernelStart_spec hk
      exact hstays rfl rfl (hview rfl)
  | @thread a s _ _ hseg =>
      by_cases hi : i = c.current
      · subst hi
        obtain ⟨hbefore, hcall, hclears⟩ := segment_granted_event h hseg hg
        exact Or.inl ⟨hbefore, hcall, fun _ => hclears⟩
      · have hpc : (c.after s).pc i = c.pc i := Sched.after_pc_of_ne s hi
        rcases segment_meetsWaiter (g := g) h hseg hi with hw | ⟨state, hstate, hblocked⟩
        · exact (granted_of_meetsWaiter h hpc hw hg).imp
            (fun hbefore => ⟨hbefore, by rw [hpc], fun hic => absurd hic hi⟩) id
        · refine Or.inl ⟨?_, by rw [hpc], fun hic => absurd hic hi⟩
          rw [← hg]
          exact (granted_restated hpc hstate hblocked).symm
  | tick _ hk =>
      refine hstays rfl rfl ((tickTasks_wakes hk i).mono fun v r hw hobject _ hone => ?_)
      rcases hw with ⟨hzero, -⟩ | ⟨hobj, -, -⟩
      · rw [hone] at hzero
        cases hzero
      · rw [hobject] at hobj
        cases hobj
  | isr _ => exact hstays rfl rfl (isr_meetsWaiter i)
  | pendsv _ _ hk =>
      obtain ⟨state, hstate, hblocked⟩ := h.switched_view hk i
      refine Or.inl ⟨?_, rfl, fun _ => rfl⟩
      rw [← hg]
      symm
      exact granted_restated rfl hstate hblocked
  | store => exact hstays rfl rfl (hview rfl)
  | cycles => exact hstays rfl rfl (hview rfl)

end Grants

/-! ## Runs that spare woken waiters -/

/-- The step clears no bits of the group, or only bits without which the
condition of every other woken waiter still is met. -/
def Cfg.sparesWoken (c : Cfg) (g : Ptr) (a : Action) : Prop :=
  c.clears g a ≠ 0 → ∀ i < c.kernel.taskCount, i ≠ c.current →
    c.granted (eventPlace g) i = true →
      c.Meets g i ((c.kernel.eventGroups g).bits &&& ~~~c.clears g a)

/-- Every woken waiter of the group finds its condition met. -/
def EventKept (g : Ptr) (c : Cfg) : Prop :=
  ∀ i < c.kernel.taskCount, c.granted (eventPlace g) i = true →
    c.Meets g i (c.kernel.eventGroups g).bits

section Runs

variable {c c' : Cfg} {a : Action} {o : Observation} {g : Ptr} {i : Nat} {tr : List Transition}
  {img : Image}

theorem EventKept.step (hkept : EventKept g c) (h : Sched c) (hg : g ≠ 0)
    (hspares : c.sparesWoken g a) (hstep : StepCases c a c' o) : EventKept g c' := by
  intro i hi hgranted
  rw [hstep.taskCount] at hi
  rcases hstep.eventGrants h hgranted with ⟨hbefore, hcall, hcurrent⟩ | hmeets
  · intro bits waitAll clear timeout hpc
    rw [hcall] at hpc
    rw [hstep.eventBits h hg]
    by_cases hclears : c.clears g a = 0
    · rw [hclears, and_not_zero]
      exact eventCondition_or (hkept i hi hbefore bits waitAll clear timeout hpc)
    · have hi' : i ≠ c.current := fun hic => hclears (hcurrent hic)
      have hleft := hspares hclears i hi hi' hbefore bits waitAll clear timeout hpc
      rw [or_and]
      exact eventCondition_or hleft
  · exact hmeets

theorem eventKept_boot (hboot : Boot img c) : EventKept g c := by
  obtain ⟨k₀, config, k, -, rfl⟩ := hboot
  intro i _ hgranted
  obtain ⟨w, hat, hw⟩ := exists_waitsAt_of_granted hgranted
  obtain ⟨bits, waitAll, clear, timeout, rfl⟩ := waitsAt_eventPlace_iff.mp hat
  have hpc : (bootCfg k).pc i = initialPc k i := rfl
  rw [Cfg.Within, hpc, initialPc] at hw
  split at hw
  · rcases hw with (hw | hw) | hw <;> cases hw
  · split at hw
    · rcases hw with (hw | hw) | hw <;> cases hw
    · rcases hw with (hw | hw) | hw <;> cases hw

theorem eventKept_run (h : Sched c) (hkept : EventKept g c) (hg : g ≠ 0) (hrun : Run c tr c')
    (hspares : ∀ x ∈ tr, x.pre.sparesWoken g x.action) : Sched c' ∧ EventKept g c' := by
  induction hrun with
  | nil => exact ⟨h, hkept⟩
  | @snoc tr c₁ c₂ a o _ hstep ih =>
      obtain ⟨h₁, hkept₁⟩ := ih fun x hx => hspares x (List.mem_append_left _ hx)
      have hspare := hspares ⟨c₁, a, o, c₂⟩ (List.mem_append_right _ List.mem_cons_self)
      have hcases := step_cases hstep
      exact ⟨h₁.step hcases, hkept₁.step h₁ hg hspare hcases⟩

/-- The step returns from the wait of task `i` with bits that meet its
condition. -/
def Transition.returnsMet (x : Transition) (i : Nat) (g : Ptr) (bits : UInt32)
    (waitAll clearOnExit : Bool) (timeout : UInt32) : Prop :=
  x.pre.current = i ∧ x.pre.pc i = .resumed (.eventGroupWaitBits g bits waitAll clearOnExit timeout)
    ∧ ∃ result, x.observation.result = some result
      ∧ eventCondition result bits (boolWord waitAll) = true

variable {bits timeout : UInt32} {waitAll clear : Bool}

/-- The next segment of a woken waiter returns with its condition met, or is
its yield. -/
theorem woken_segment (hkept : EventKept g c) (hi : c.current < c.kernel.taskCount)
    (hwoken : c.WokenIn c.current (.eventGroupWaitBits g bits waitAll clear timeout))
    {s : Segment} (hseg : ThreadSegment c a s) :
    (c.pc c.current = .resumed (.eventGroupWaitBits g bits waitAll clear timeout)
        ∧ ∃ result, s.result = some result ∧ eventCondition result bits (boolWord waitAll) = true)
      ∨ ((c.after s).WokenIn c.current (.eventGroupWaitBits g bits waitAll clear timeout)
        ∧ s.pc.segmentsLeft < (c.pc c.current).segmentsLeft) := by
  obtain ⟨hwithin, hstate, hresult⟩ := hwoken
  cases hseg with
  | @yielding w source hpc =>
      have hw : w = .eventGroupWaitBits g bits waitAll clear timeout := by
        rcases hwithin with hw | hw <;> rw [hpc] at hw <;> cases hw
        rfl
      subst hw
      refine Or.inr ⟨⟨Or.inr (Sched.after_pc_current _), hstate, hresult⟩, ?_⟩
      rw [hpc]
      exact Nat.lt_succ_self 2
  | @resumed w source hpc =>
      have hw : w = .eventGroupWaitBits g bits waitAll clear timeout := by
        rcases hwithin with hw | hw <;> rw [hpc] at hw <;> cases hw
        rfl
      subst hw
      have hgranted : c.granted (eventPlace g) c.current = true :=
        (granted_within hwithin).mpr
          ⟨waitsAt_eventPlace_iff.mpr ⟨_, _, _, _, rfl⟩, hstate, hresult⟩
      have hmet := hkept _ hi hgranted bits waitAll clear timeout hwithin.waitCall
      refine Or.inl ⟨hpc, (c.kernel.eventGroups g).bits &&& bits, rfl, ?_⟩
      rw [eventCondition_and]
      exact hmet
  | call hpc | entered hpc | requestSwitch hpc | inTime hpc | delayed hpc =>
      rcases hwithin with hw | hw <;> rw [hpc] at hw <;> cases hw

/-- A woken waiter stays woken until it returns with its condition met. -/
theorem woken_step (h : Sched c) (hkept : EventKept g c) (hstep : StepCases c a c' o)
    (hi : i < c.kernel.taskCount)
    (hwoken : c.WokenIn i (.eventGroupWaitBits g bits waitAll clear timeout)) :
    c'.WokenIn i (.eventGroupWaitBits g bits waitAll clear timeout)
      ∨ Transition.returnsMet ⟨c, a, o, c'⟩ i g bits waitAll clear timeout := by
  by_cases hown : ∃ s, ThreadSegment c a s ∧ i = c.current
  · obtain ⟨s, hseg, rfl⟩ := hown
    cases hstep with
    | thread _ _ hseg' =>
        rcases woken_segment hkept hi hwoken hseg' with ⟨hpc, hmet⟩ | ⟨hafter, -⟩
        · exact Or.inr ⟨rfl, hpc, hmet⟩
        · exact Or.inl hafter
    | start | tick | isr | pendsv | store | cycles => cases hseg
  · have hothers : ∀ s, ThreadSegment c a s → i ≠ c.current := fun s hseg hic =>
      hown ⟨s, hseg, hic⟩
    have hat : (WaitCall.eventGroupWaitBits g bits waitAll clear timeout).waitsAt i (eventPlace g)
        = true := waitsAt_eventPlace_iff.mpr ⟨bits, waitAll, clear, timeout, rfl⟩
    have hgranted := (granted_within hwoken.1).mpr ⟨hat, hwoken.2⟩
    obtain ⟨hgranted', hpc⟩ := granted_kept h hstep hi hgranted hothers
    have hwithin' : c'.Within i (.eventGroupWaitBits g bits waitAll clear timeout) := by
      rw [Cfg.Within, hpc]
      exact hwoken.1
    exact Or.inl ⟨hwithin', ((granted_within hwithin').mp hgranted').2⟩

theorem woken_run (h : Sched c) (hkept : EventKept g c) (hg : g ≠ 0) (hrun : Run c tr c')
    (hspares : ∀ x ∈ tr, x.pre.sparesWoken g x.action) (hi : i < c.kernel.taskCount)
    (hwoken : c.WokenIn i (.eventGroupWaitBits g bits waitAll clear timeout)) :
    c'.WokenIn i (.eventGroupWaitBits g bits waitAll clear timeout)
      ∨ ∃ x ∈ tr, x.returnsMet i g bits waitAll clear timeout := by
  induction hrun with
  | nil => exact Or.inl hwoken
  | @snoc tr c₁ c₂ a o hrun hstep ih =>
      have hspares₁ : ∀ x ∈ tr, x.pre.sparesWoken g x.action := fun x hx =>
        hspares x (List.mem_append_left _ hx)
      obtain ⟨h₁, hkept₁⟩ := eventKept_run h hkept hg hrun hspares₁
      have hn : c₁.kernel.taskCount = c.kernel.taskCount := hrun.taskCount
      rcases ih hspares₁ with hwoken₁ | ⟨x, hx, hmet⟩
      · refine (woken_step h₁ hkept₁ (step_cases hstep) (hn ▸ hi) hwoken₁).imp id fun hmet => ?_
        exact ⟨_, List.mem_append_right _ List.mem_cons_self, hmet⟩
      · exact Or.inr ⟨x, List.mem_append_left _ hx, hmet⟩

end Runs

/-- In a run in which no step clears bits a woken waiter still needs, a task
that was woken in `JRT_EventGroupWaitBits` stays woken until it returns, and
returns with bits that meet its condition; each of its segments brings it
closer to that. -/
theorem event_wakeups_kept (img : Image) (c₀ c : Cfg) (tr : List Transition) (g : Ptr)
    (hg : g ≠ 0) (hboot : Boot img c₀) (hrun : Run c₀ tr c)
    (hspares : ∀ x ∈ tr, x.pre.sparesWoken g x.action) :
    ∀ i < c.kernel.taskCount, ∀ bits waitAll clear timeout,
      c.WokenIn i (.eventGroupWaitBits g bits waitAll clear timeout) →
        (∀ next c', Run c next c' → (∀ x ∈ next, x.pre.sparesWoken g x.action) →
          c'.WokenIn i (.eventGroupWaitBits g bits waitAll clear timeout)
            ∨ ∃ x ∈ next, x.returnsMet i g bits waitAll clear timeout)
          ∧ (c.current = i → c.threadRuns = true → ∀ source, ∃ c' o,
              step c (.proceed source) = some (c', o)
                ∧ (Transition.returnsMet ⟨c, .proceed source, o, c'⟩ i g bits waitAll clear timeout
                  ∨ (c'.WokenIn i (.eventGroupWaitBits g bits waitAll clear timeout)
                    ∧ (c'.pc i).segmentsLeft < (c.pc i).segmentsLeft))) := by
  have hreachable : Reachable img c₀ := ⟨c₀, [], hboot, .nil⟩
  obtain ⟨h, hkept⟩ := eventKept_run hreachable.sched (eventKept_boot hboot) hg hrun hspares
  intro i hi bits waitAll clear timeout hwoken
  refine ⟨fun next c' hnext hspare => woken_run h hkept hg hnext hspare hi hwoken, ?_⟩
  rintro rfl hruns source
  have hproceed : ∃ s, proceed c.kernel source (c.pc c.current) = some (.ok s) := by
    rcases hwoken.1 with hpc | hpc
    · rw [hpc]
      exact ⟨_, rfl⟩
    · rw [hpc]
      exact ⟨_, rfl⟩
  obtain ⟨s, hs⟩ := hproceed
  refine ⟨c.after s, { result := s.result, output := s.output }, ?_, ?_⟩
  · simp only [step, hruns, hs, if_true, Cfg.commit]
  · rw [Sched.after_pc_current]
    exact (woken_segment hkept hi hwoken (proceed_segment hs)).imp (fun hmet => ⟨rfl, hmet⟩) id

/-- Two tasks wait for one bit and clear it on exit; the third sets it. -/
def eventActions (clear : Bool) : List Action :=
  [.start, .call (.eventGroupWaitBits 8 1 false clear 100), .proceed fun _ => 0,
    .proceed fun _ => 0, .pendsv (sampleSp 0),
    .call (.eventGroupWaitBits 8 1 false clear 100), .proceed fun _ => 0, .proceed fun _ => 0,
    .pendsv (sampleSp 1), .call (.eventGroupSetBits 8 1), .proceed fun _ => 0,
    .pendsv (sampleSp 2), .proceed fun _ => 0, .call (.taskDelay 100), .pendsv (sampleSp 0)]

/-- The first of the two clears the bit for both. -/
theorem event_wakeup_lost : ∃ tr c c' o,
    sampleRun [3, 2, 1] (eventActions true) = some (tr, c)
      ∧ c.current = 1 ∧ c.WokenIn 1 (.eventGroupWaitBits 8 1 false true 100)
      ∧ step c (.proceed fun _ => 0) = some (c', o) ∧ o.result = some 0
      ∧ eventCondition 0 1 (boolWord false) = false := by
  have hsome : ((sampleRun [3, 2, 1] (eventActions true)).bind fun r =>
      (step r.2 (.proceed fun _ => 0)).filter fun r' => r'.2.result == some 0
        && decide (r.2.current = 1 ∧ r.2.pc 1 = .resumed (.eventGroupWaitBits 8 1 false true 100)
          ∧ (r.2.kernel.view 1).state ≠ .blocked ∧ (r.2.kernel.view 1).waitResult = 1)).isSome
      = true := by decide +kernel
  obtain ⟨⟨c', o⟩, hbind⟩ := Option.isSome_iff_exists.mp hsome
  obtain ⟨⟨tr, c⟩, hrun, hbind⟩ := Option.bind_eq_some_iff.mp hbind
  obtain ⟨hstep, hchecks⟩ := Option.filter_eq_some_iff.mp hbind
  rw [Bool.and_eq_true, beq_iff_eq, decide_eq_true_eq] at hchecks
  obtain ⟨hresult, hcurrent, hpc, hwoken⟩ := hchecks
  exact ⟨tr, c, c', o, hrun, hcurrent, ⟨Or.inr hpc, hwoken⟩, hstep, hresult, rfl⟩

/-- Without `clear_on_exit` the second finds the bit set. -/
theorem event_wakeups_kept_sample : ∃ tr c,
    sampleRun [3, 2, 1] (eventActions false) = some (tr, c)
      ∧ ∃ c' o, step c (.proceed fun _ => 0) = some (c', o)
        ∧ (Transition.returnsMet ⟨c, .proceed fun _ => 0, o, c'⟩ 1 8 1 false false 100
          ∨ (c'.WokenIn 1 (.eventGroupWaitBits 8 1 false false 100)
            ∧ (c'.pc 1).segmentsLeft < (c.pc 1).segmentsLeft)) := by
  have hsome : ((sampleRun [3, 2, 1] (eventActions false)).filter fun r =>
      r.1.all (fun x => x.pre.clears 8 x.action == 0)
        && decide (r.2.current = 1 ∧ r.2.threadRuns = true ∧ 1 < r.2.kernel.taskCount
          ∧ r.2.pc 1 = .resumed (.eventGroupWaitBits 8 1 false false 100)
          ∧ (r.2.kernel.view 1).state ≠ .blocked ∧ (r.2.kernel.view 1).waitResult = 1)).isSome
      = true := by decide +kernel
  obtain ⟨⟨tr, c⟩, hfilter⟩ := Option.isSome_iff_exists.mp hsome
  obtain ⟨hrun, hchecks⟩ := Option.filter_eq_some_iff.mp hfilter
  rw [Bool.and_eq_true, decide_eq_true_eq, List.all_eq_true] at hchecks
  obtain ⟨hclears, hcurrent, hruns, hn, hpc, hwoken⟩ := hchecks
  obtain ⟨c₀, hboot, htr⟩ := sampleRun_run hrun
  have hspares : ∀ x ∈ tr, x.pre.sparesWoken 8 x.action := fun x hx hne =>
    absurd (eq_of_beq (hclears x hx)) hne
  obtain ⟨-, hproceeds⟩ := event_wakeups_kept .sample c₀ c tr 8 (by decide)
    (sampleBoot_boot hboot) htr hspares 1 hn 1 false false 100 ⟨Or.inr hpc, hwoken⟩
  exact ⟨tr, c, hrun, hproceeds hcurrent hruns fun _ => 0⟩

end JustRT
