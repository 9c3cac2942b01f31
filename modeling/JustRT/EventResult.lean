import JustRT.BlockingCall
import JustRT.EventGroup

/-!
# What a wait for event bits returns

`JRT_EventGroupWaitBits` has three exits. The two of its critical section
look at the condition. The one behind its yield returns the requested bits
the group holds by then, whether the task was woken or timed out, and
whether the condition is met. A wait for all bits is sound only if the sets
and clears that come between its block and its return leave it all of them
or none: a set that completes the mask wakes it, but a clear may take part
of the mask away before it runs, and if it times out, some of the bits may
have been set without the others.
-/

namespace JustRT

/-! ## Bits, one by one -/

/-- The word has the bit `i`. -/
def HasBit (w : UInt32) (i : Nat) : Prop := w.toBitVec.getLsbD i = true

instance (w : UInt32) (i : Nat) : Decidable (HasBit w i) := inferInstanceAs (Decidable (_ = true))

section Bits

variable {a b : UInt32} {i : Nat}

theorem hasBit_or : HasBit (a ||| b) i ↔ HasBit a i ∨ HasBit b i := by
  simp [HasBit]

theorem hasBit_and_not : HasBit (a &&& ~~~b) i ↔ HasBit a i ∧ ¬HasBit b i := by
  simp only [HasBit, UInt32.toBitVec_and, UInt32.toBitVec_not, BitVec.getLsbD_and,
    BitVec.getLsbD_not, Bool.and_eq_true, decide_eq_true_eq, Bool.not_eq_true', Bool.not_eq_true]
  refine ⟨fun h => ⟨h.1, h.2.2⟩, fun h => ⟨h.1, ?_, h.2⟩⟩
  exact BitVec.lt_of_getLsbD h.1

theorem hasBit_ext (h : ∀ i, HasBit a i ↔ HasBit b i) : a = b := by
  refine UInt32.eq_of_toBitVec_eq (BitVec.eq_of_getLsbD_eq fun i _ => ?_)
  exact Bool.eq_iff_iff.mpr (h i)

theorem hasBit_and : HasBit (a &&& b) i ↔ HasBit a i ∧ HasBit b i := by
  simp [HasBit]

theorem not_hasBit_zero : ¬HasBit 0 i := by
  simp [HasBit]

theorem and_eq_right_iff : a &&& b = b ↔ ∀ i, HasBit b i → HasBit a i := by
  constructor
  · intro h i hb
    rw [← h] at hb
    exact (hasBit_and.mp hb).1
  · intro h
    exact hasBit_ext fun i => hasBit_and.trans ⟨fun hand => hand.2, fun hb => ⟨h i hb, hb⟩⟩

theorem and_eq_zero_iff_bits : a &&& b = 0 ↔ ∀ i, HasBit b i → ¬HasBit a i := by
  constructor
  · intro h i hb ha
    have hand := hasBit_and.mpr ⟨ha, hb⟩
    rw [h] at hand
    exact not_hasBit_zero hand
  · intro h
    refine hasBit_ext fun i => hasBit_and.trans ?_
    exact ⟨fun hand => absurd hand.1 (h i hand.2), fun hzero => absurd hzero not_hasBit_zero⟩

end Bits

/-! ## The sets and clears of a run -/

/-- The steps `tr`, taken while the group holds `current`, leave its bit `i`
set: one of them sets it and none clears it from there on, or it was set
before and none of them clears it. What counts are the calls that set bits,
of tasks and of handlers, the waits that clear on exit where they find their
condition met, and the creation of the group anew. -/
def LeftSet (g : Ptr) (i : Nat) (current : UInt32) (tr : List Transition) : Prop :=
  (HasBit current i ∧ ∀ y ∈ tr, ¬HasBit (y.pre.clears g y.action) i)
    ∨ ∃ before x after, tr = before ++ x :: after ∧ HasBit (x.action.setsBits g) i
      ∧ ∀ y ∈ x :: after, ¬HasBit (y.pre.clears g y.action) i

section Runs

variable {c c' : Cfg} {g : Ptr} {i : Nat} {current : UInt32} {tr : List Transition} {x : Transition}

theorem leftSet_nil : LeftSet g i current [] ↔ HasBit current i := by
  simp [LeftSet]

theorem leftSet_snoc : LeftSet g i current (tr ++ [x])
    ↔ (LeftSet g i current tr ∨ HasBit (x.action.setsBits g) i)
      ∧ ¬HasBit (x.pre.clears g x.action) i := by
  constructor
  · rintro (⟨hcurrent, hkept⟩ | ⟨before, y, after, heq, hsets, hkept⟩)
    · refine ⟨Or.inl (Or.inl ⟨hcurrent, fun y hy => hkept y (List.mem_append_left _ hy)⟩), ?_⟩
      exact hkept x List.mem_concat_self
    · cases after using List.reverseRecOn with
      | nil =>
          obtain ⟨-, hx⟩ := List.append_inj' heq rfl
          obtain rfl := List.singleton_inj.mp hx
          exact ⟨Or.inr hsets, hkept x List.mem_cons_self⟩
      | append_singleton after z =>
          have hsplit : tr ++ [x] = (before ++ y :: after) ++ [z] := by simpa using heq
          obtain ⟨rfl, hz⟩ := List.append_inj' hsplit rfl
          obtain rfl := List.singleton_inj.mp hz
          refine ⟨Or.inl (Or.inr ⟨before, y, after, rfl, hsets, fun u hu => hkept u ?_⟩), ?_⟩
          · exact (List.mem_cons.mp hu).elim (fun h => h ▸ List.mem_cons_self)
              fun h => List.mem_cons_of_mem _ (List.mem_append_left _ h)
          · exact hkept x (List.mem_cons_of_mem _ List.mem_concat_self)
  · rintro ⟨(⟨hcurrent, hkept⟩ | ⟨before, y, after, rfl, hsets, hkept⟩) | hsets, hnot⟩
    · refine Or.inl ⟨hcurrent, fun y hy => ?_⟩
      rcases List.mem_append.mp hy with hy | hy
      · exact hkept y hy
      · obtain rfl := List.mem_singleton.mp hy
        exact hnot
    · refine Or.inr ⟨before, y, after ++ [x], by simp, hsets, fun u hu => ?_⟩
      rw [← List.cons_append] at hu
      rcases List.mem_append.mp hu with hu | hu
      · exact hkept u hu
      · obtain rfl := List.mem_singleton.mp hu
        exact hnot
    · refine Or.inr ⟨tr, x, [], rfl, hsets, fun y hy => ?_⟩
      obtain rfl := List.mem_singleton.mp hy
      exact hnot

/-- A run leaves exactly those bits in the group. -/
theorem Run.leftSet (hrun : Run c tr c') (hs : Sched c) (hg : g ≠ 0) :
    HasBit (c'.kernel.eventGroups g).bits i
      ↔ LeftSet g i (c.kernel.eventGroups g).bits tr := by
  induction hrun with
  | nil => exact leftSet_nil.symm
  | @snoc tr c₁ c₂ a o hrun hstep ih =>
      have hs₁ : Sched c₁ := hrun.induction Sched (fun hs hst => hs.step hst) hs
      rw [(step_cases hstep).eventBits hs₁ hg, hasBit_and_not, hasBit_or, ih]
      exact (leftSet_snoc (x := ⟨c₁, a, o, c₂⟩)).symm

end Runs

/-! ## One call -/

/-- The call gives up: it may not wait, or its wait timed out. -/
def Cfg.GivesUp (c : Cfg) (call : WaitCall) : Prop :=
  ((∃ reserved, c.pc c.current = .entered call reserved) ∧ call.timeout = 0)
    ∨ (c.pc c.current = .resumed call ∧ (c.kernel.tasks c.current).waitResult = 0)

/-- What a call for the bits `bits` of the group `g` may show, which leaves
its critical section in the step `first` and returns `result` in the step
`last`:

- a wait for all bits returns all of them, or 0;
- a call that gives up with its condition unmet returns 0;
- bits are cleared only in that group, and only if the condition is met. -/
structure WaitBitsSound (first last : Transition) (result : UInt32) (g : Ptr) (bits : UInt32)
    (waitAll clear : Bool) (timeout : UInt32) : Prop where
  whole : waitAll = true → result = bits ∨ result = 0
  givesUp : last.pre.GivesUp (.eventGroupWaitBits g bits waitAll clear timeout) →
    eventCondition (last.pre.kernel.eventGroups g).bits bits (boolWord waitAll) = false →
    result = 0
  clears : ∀ x, x = first ∨ x = last → ∀ a, a ≠ 0 →
    (x.post.kernel.eventGroups a).bits ≠ (x.pre.kernel.eventGroups a).bits →
    a = g ∧ eventCondition (x.pre.kernel.eventGroups g).bits bits (boolWord waitAll) = true

section Condition

variable {current bits : UInt32}

/-- A met condition for all bits: the group holds them all. -/
theorem and_eq_of_condition (h : eventCondition current bits (boolWord true) = true) :
    current &&& bits = bits := by
  simpa [eventCondition, boolWord] using h

/-- An unmet condition for any bit: the group holds none of them. -/
theorem and_eq_zero_of_condition (h : eventCondition current bits (boolWord false) = false) :
    current &&& bits = 0 := by
  simpa [eventCondition, boolWord] using h

theorem condition_of_and_eq (h : current &&& bits = bits) :
    eventCondition current bits (boolWord true) = true := by
  simpa [eventCondition, boolWord] using h

end Condition

section Step

variable {c c' : Cfg} {o : Observation} {source : Nat → UInt8} {g : Ptr} {bits timeout : UInt32}
  {waitAll clear reserved : Bool}

/-- Only a met condition clears bits, at each of the exits. -/
theorem waitBits_clears (hs : Sched c)
    (hpc : (∃ reserved, c.pc c.current
        = .entered (.eventGroupWaitBits g bits waitAll clear timeout) reserved)
      ∨ c.pc c.current = .resumed (.eventGroupWaitBits g bits waitAll clear timeout))
    (hstep : StepCases c (.proceed source) c' o) (a : Ptr) (ha : a ≠ 0)
    (hchanged : (c'.kernel.eventGroups a).bits ≠ (c.kernel.eventGroups a).bits) :
    a = g ∧ eventCondition (c.kernel.eventGroups g).bits bits (boolWord waitAll) = true := by
  have hclears : c.clears a (.proceed source)
      = (WaitCall.eventGroupWaitBits g bits waitAll clear timeout).clears c.kernel a := by
    rcases hpc with ⟨reserved, hpc⟩ | hpc <;> simp only [Cfg.clears, hpc]
  have hbits := hstep.eventBits hs ha
  rw [hclears] at hbits
  by_contra hno
  refine hchanged ?_
  have hnone : (WaitCall.eventGroupWaitBits g bits waitAll clear timeout).clears c.kernel a = 0 := by
    refine if_neg fun hand => hno ?_
    obtain ⟨⟨rfl, -⟩, -, hmet⟩ := hand
    exact ⟨rfl, hmet⟩
  rw [hbits, hnone, and_not_zero]
  exact UInt32.or_zero

theorem waitBits_entered
    (hpc : c.pc c.current = .entered (.eventGroupWaitBits g bits waitAll clear timeout) reserved)
    (hstep : StepCases c (.proceed source) c' o) :
    (waitAll = true → ∀ result, o.result = some result → result = bits ∨ result = 0)
      ∧ (timeout = 0 → eventCondition (c.kernel.eventGroups g).bits bits (boolWord waitAll) = false →
        o.result = some 0) := by
  have hresult : o.result = (Segment.ofFlow (.eventGroupWaitBits g bits waitAll clear timeout)
      (jrtEventGroupWaitBits c.kernel g bits waitAll clear timeout false)).result := by
    cases hstep with
    | thread _ _ hseg =>
        obtain rfl := Except.ok.inj (hseg.of_entered hpc)
        rfl
  rw [hresult]
  simp only [jrtEventGroupWaitBits, Bool.false_eq_true, or_false]
  split
  · exact ⟨fun _ result h => Or.inr (Option.some.inj h).symm, fun _ _ => rfl⟩
  · split
    · next hmet =>
        refine ⟨fun hall result h => Or.inl ?_, fun _ hunmet => ?_⟩
        · subst hall
          rw [← Option.some.inj h]
          exact and_eq_of_condition hmet
        · rw [hunmet] at hmet
          cases hmet
    · split
      · exact ⟨fun _ result h => Or.inr (Option.some.inj h).symm, fun _ _ => rfl⟩
      · next htimeout =>
          exact ⟨fun _ result h => (by cases h), fun hzero => absurd hzero htimeout⟩

/-- The call returns from its critical section although it might wait: a wait
for all bits finds them all. -/
theorem waitBits_atOnce
    (hpc : c.pc c.current = .entered (.eventGroupWaitBits g bits true clear timeout) reserved)
    (hstep : StepCases c (.proceed source) c' o) (huser : c'.pc c.current = .user) (hg : g ≠ 0)
    (htimeout : timeout ≠ 0) : (c.kernel.eventGroups g).bits &&& bits = bits := by
  cases hstep with
  | thread _ _ hseg =>
      obtain rfl := Except.ok.inj (hseg.of_entered hpc)
      rw [Sched.after_pc_current] at huser
      simp only [jrtEventGroupWaitBits, hg, Bool.false_eq_true, or_false, false_or] at huser
      by_cases hbits : bits = 0
      · rw [hbits]
        exact UInt32.and_zero
      · rw [if_neg hbits] at huser
        cases hmet : eventCondition (c.kernel.eventGroups g).bits bits (boolWord true) with
        | true => exact and_eq_of_condition hmet
        | false =>
            rw [hmet, if_neg Bool.false_ne_true, if_neg htimeout] at huser
            cases huser

/-- A critical section that does not return changes no group. -/
theorem waitBits_blocks
    (hpc : c.pc c.current = .entered (.eventGroupWaitBits g bits waitAll clear timeout) reserved)
    (hstep : StepCases c (.proceed source) c' o) (hblocks : c'.pc c.current ≠ .user) :
    g ≠ 0 ∧ timeout ≠ 0 ∧ c'.kernel.eventGroups = c.kernel.eventGroups := by
  cases hstep with
  | thread _ _ hseg =>
      obtain rfl := Except.ok.inj (hseg.of_entered hpc)
      rw [Sched.after_pc_current] at hblocks
      change _ ∧ _ ∧ (Segment.ofFlow _ _).kernel.eventGroups = _
      simp only [jrtEventGroupWaitBits] at hblocks ⊢
      split at hblocks
      · exact absurd rfl hblocks
      · next hvalid =>
          rw [if_neg hvalid]
          split at hblocks
          · exact absurd rfl hblocks
          · next hunmet =>
              rw [if_neg hunmet]
              split at hblocks
              · exact absurd rfl hblocks
              · next htimeout =>
                  rw [if_neg htimeout]
                  exact ⟨fun hnull => hvalid (Or.inl hnull), htimeout, rfl⟩

theorem waitBits_resumed
    (hpc : c.pc c.current = .resumed (.eventGroupWaitBits g bits waitAll clear timeout))
    (hstep : StepCases c (.proceed source) c' o) :
    o.result = some ((c.kernel.eventGroups g).bits &&& bits) := by
  cases hstep with
  | thread _ _ hseg =>
      rw [hseg.of_resumed hpc]
      rfl

end Step

/-- A call of `JRT_EventGroupWaitBits` is sound exactly if it waits for any
bit, or may not wait, or the sets and clears between its critical section and
its return leave all requested bits set or none of them. -/
theorem waitBitsSound_iff (img : Image) (first last : Transition) (waited : List Transition)
    (g : Ptr) (bits timeout result : UInt32) (waitAll clear : Bool)
    (hreach : Reachable img first.pre)
    (hcall : WaitRun (.eventGroupWaitBits g bits waitAll clear timeout) first waited last result) :
    WaitBitsSound first last result g bits waitAll clear timeout
      ↔ (waitAll = true → g ≠ 0 → timeout ≠ 0 →
          (∀ i, HasBit bits i → LeftSet g i (first.pre.kernel.eventGroups g).bits waited)
            ∨ ∀ i, HasBit bits i → ¬LeftSet g i (first.pre.kernel.eventGroups g).bits waited) := by
  have hs := hreach.sched
  cases hcall with
  | atOnce hpc haction hstep huser hresult =>
      rw [haction] at hstep
      have hcases := step_cases hstep
      obtain ⟨hwhole, hzero⟩ := waitBits_entered hpc hcases
      refine iff_of_true ⟨fun hall => hwhole hall _ hresult, fun hup hunmet => ?_, ?_⟩ ?_
      · rcases hup with ⟨-, htimeout⟩ | ⟨hresumed, -⟩
        · exact Option.some.inj (hresult.symm.trans (hzero htimeout hunmet))
        · rw [hpc] at hresumed
          cases hresumed
      · rintro x (rfl | rfl) <;> exact waitBits_clears hs (Or.inl ⟨_, hpc⟩) hcases
      · rintro rfl hg htimeout
        refine Or.inl fun i hi => leftSet_nil.mpr ?_
        exact and_eq_right_iff.mp (waitBits_atOnce hpc hcases huser hg htimeout) i hi
  | behindYield hpc haction₁ hstep₁ hblocks hrun hin haction hstep hcurrent huser hresult =>
      rw [haction₁] at hstep₁
      rw [haction] at hstep
      have hcases₁ := step_cases hstep₁
      have hcases := step_cases hstep
      obtain ⟨hg, htimeout, hgroups⟩ := waitBits_blocks hpc hcases₁ hblocks
      have hwithin := (within_of_blocked hpc hcases₁ hblocks).run (fun _ => rfl) hrun hin
      obtain ⟨-, hresumed⟩ := hwithin.resumed hcases huser
      rw [← hcurrent] at hresumed
      have hs₁ : Sched first.post := hs.step hcases₁
      have hs₂ : Sched last.pre := hrun.induction Sched (fun hs hst => hs.step hst) hs₁
      have hvalue := Option.some.inj (hresult.symm.trans (waitBits_resumed hresumed hcases))
      -- What the exit finds is what the run has left.
      have hleft : ∀ i, HasBit (last.pre.kernel.eventGroups g).bits i
          ↔ LeftSet g i (first.pre.kernel.eventGroups g).bits waited := fun i => by
        rw [← hgroups]
        exact hrun.leftSet hs₁ hg
      have hall : result = bits
          ↔ ∀ i, HasBit bits i → LeftSet g i (first.pre.kernel.eventGroups g).bits waited := by
        rw [hvalue, and_eq_right_iff]
        exact forall_congr' fun i => imp_congr_right fun _ => hleft i
      have hnone : result = 0
          ↔ ∀ i, HasBit bits i → ¬LeftSet g i (first.pre.kernel.eventGroups g).bits waited := by
        rw [hvalue, and_eq_zero_iff_bits]
        exact forall_congr' fun i => imp_congr_right fun _ => not_congr (hleft i)
      rw [← hall, ← hnone]
      constructor
      · intro hsound hwait _ _
        exact hsound.whole hwait
      · intro hwhole
        refine ⟨fun hwait => hwhole hwait hg htimeout, fun _ hunmet => ?_, ?_⟩
        · cases waitAll with
          | false => rw [hvalue, and_eq_zero_of_condition hunmet]
          | true =>
              refine (hwhole rfl hg htimeout).resolve_left fun hfull => ?_
              rw [condition_of_and_eq (hvalue.symm.trans hfull)] at hunmet
              cases hunmet
        · rintro x (rfl | rfl)
          · exact waitBits_clears hs (Or.inl ⟨_, hpc⟩) hcases₁
          · exact waitBits_clears hs₂ (Or.inr hresumed) hcases

/-- The first of two tasks waits for both bits of a group, with a timeout of
one tick, and the second sets `set` before it. -/
def partialCall (set : UInt32) : Option (Transition × List Transition × Transition × UInt32) :=
  sampleCall [2, 1] [.start, .call (.eventGroupWaitBits 8 3 true false 1)]
    (.eventGroupWaitBits 8 3 true false 1)
    [.proceed fun _ => 0, .pendsv (sampleSp 0), .call (.eventGroupSetBits 8 set),
      .proceed fun _ => 0, .pendsv (sampleSp 1), .tick, .pendsv (sampleSp 1)]

/-- One bit of the two leaks out as the result of a wait for both that timed
out. -/
theorem waitBits_partial : ∃ first waited last,
    partialCall 1 = some (first, waited, last, 1) ∧ Reachable .sample first.pre
      ∧ WaitRun (.eventGroupWaitBits 8 3 true false 1) first waited last 1
      ∧ ¬WaitBitsSound first last 1 8 3 true false 1 := by
  have hsome : ((partialCall 1).any fun r => r.2.2.2 == 1) = true := by decide +kernel
  obtain ⟨⟨first, waited, last, result⟩, hcall, hone⟩ := (Option.any_eq_true _ _).mp hsome
  obtain rfl : result = 1 := eq_of_beq hone
  obtain ⟨hreach, hrun⟩ := sampleCall_run hcall
  refine ⟨first, waited, last, hcall, hreach, hrun, fun hsound => ?_⟩
  rcases hsound.whole rfl with h | h <;> exact absurd h (by decide)

/-- With none of the bits set while it waits the call returns 0. -/
theorem waitBitsSound_iff_sample : ∃ first waited last,
    partialCall 0 = some (first, waited, last, 0)
      ∧ WaitBitsSound first last 0 8 3 true false 1 := by
  have hsome : ((partialCall 0).any fun r => r.2.2.2 == 0
      && (r.1.pre.kernel.eventGroups 8).bits == 0
      && r.2.1.all fun x => x.action.setsBits 8 == 0) = true := by decide +kernel
  obtain ⟨⟨first, waited, last, result⟩, hcall, hchecks⟩ := (Option.any_eq_true _ _).mp hsome
  simp only [Bool.and_eq_true, beq_iff_eq, List.all_eq_true] at hchecks
  obtain ⟨⟨rfl, hbits⟩, hsets⟩ := hchecks
  obtain ⟨hreach, hrun⟩ := sampleCall_run hcall
  refine ⟨first, waited, last, hcall, (waitBitsSound_iff .sample first last waited 8 3 1 0 true
    false hreach hrun).mpr fun _ _ _ => Or.inr fun i _ hleft => ?_⟩
  rcases hleft with ⟨hcurrent, -⟩ | ⟨before, x, after, rfl, hset, -⟩
  · rw [hbits] at hcurrent
    exact not_hasBit_zero hcurrent
  · rw [hsets x (List.mem_append_right _ List.mem_cons_self)] at hset
    exact not_hasBit_zero hset

end JustRT
