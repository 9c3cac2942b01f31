import JustRT.Scheduler
import JustRT.Lib.Chain
import Mathlib.Data.Fintype.Card

/-!
# The list of timers

`Timers k l` says that the links from `timer_list` run through the timers
`l` and end. The walks of `timer.c` then end too, and are the list
functions a reader expects; linking and every other timer operation keep
the list well formed. A timer is linked when it is created and is never
taken off the list: a stopped timer stays there, inactive.
-/

namespace JustRT

open Chain

/-! ## Walks over well-formed lists -/

/-- A chain of non-null addresses is shorter than the address space. -/
theorem length_lt_addressSpace {next : Ptr → Ptr} {a : Ptr} {l : List Ptr}
    (h : Linked 0 next a l) : l.length < addressSpace := by
  have hnodup : (0 :: l).Nodup := List.nodup_cons.mpr ⟨h.nil_not_mem, h.nodup⟩
  have hfin : ((0 :: l).map UInt32.toFin).Nodup :=
    hnodup.map fun x y hxy => UInt32.toFin_inj.mp hxy
  have hle := hfin.length_le_card
  rw [List.length_map, List.length_cons, Fintype.card_fin] at hle
  unfold addressSpace
  simp only [UInt32.size] at hle
  omega

theorem isLinkedLoop_eq {next : Ptr → Ptr} {object a : Ptr} {l : List Ptr}
    (h : Linked 0 next a l) {fuel : Nat} (hfuel : l.length < fuel) :
    isLinkedLoop next object fuel a = .ok (decide (object ∈ l)) := by
  induction h generalizing fuel with
  | nil =>
      obtain ⟨fuel, rfl⟩ := Nat.exists_eq_succ_of_ne_zero (Nat.ne_of_gt hfuel)
      simp [isLinkedLoop]
  | @cons a l hne _ ih =>
      rw [List.length_cons] at hfuel
      obtain ⟨fuel, rfl⟩ := Nat.exists_eq_succ_of_ne_zero (show fuel ≠ 0 by omega)
      unfold isLinkedLoop
      rw [if_neg hne]
      split
      · next heq => simp [heq]
      · next hno =>
          rw [ih (by omega)]
          simp [Ne.symm hno]

/-- The links from `timer_list` run through `l`. -/
def Timers (k : Kernel) (l : List Ptr) : Prop :=
  Linked 0 (fun a => (k.timers a).next) k.timerList l

theorem timerIsLinkedLocked_eq {k : Kernel} {l : List Ptr} (h : Timers k l) (timer : Ptr) :
    timerIsLinkedLocked k timer = .ok (decide (timer ∈ l)) :=
  isLinkedLoop_eq h (length_lt_addressSpace h)

/-- The list behind `timer_link_locked`. -/
def linkedList (l : List Ptr) (timer : Ptr) : List Ptr := if timer ∈ l then l else timer :: l

theorem mem_linkedList {l : List Ptr} {timer t : Ptr} :
    t ∈ linkedList l timer ↔ t = timer ∨ t ∈ l := by
  unfold linkedList
  split
  · next h => exact ⟨Or.inr, fun ht => ht.elim (fun he => he ▸ h) id⟩
  · exact List.mem_cons

/-- Linking a timer answers, puts it on the list, and writes no other field
than `next`. -/
theorem timerLinkLocked_spec {k : Kernel} {l : List Ptr} {timer : Ptr} (h : Timers k l)
    (hne : timer ≠ 0) :
    ∃ k', timerLinkLocked k timer = .ok k' ∧ Timers k' (linkedList l timer)
      ∧ (∀ t, ∃ next, k'.timers t = (k.timers t).withNext next)
      ∧ k'.gKernelTicks = k.gKernelTicks := by
  unfold timerLinkLocked linkedList
  rw [timerIsLinkedLocked_eq h]
  by_cases hmem : timer ∈ l
  · rw [if_pos hmem, decide_eq_true hmem]
    exact ⟨k, rfl, h, fun t => ⟨(k.timers t).next, rfl⟩, rfl⟩
  · rw [if_neg hmem, decide_eq_false hmem]
    refine ⟨_, rfl, h.push hne hmem ?_ ?_, fun t => ?_, rfl⟩
    · simp [setTimer_timers, JrtTimer.withNext]
    · intro t ht
      simp [setTimer_timers, ht]
    · by_cases ht : t = timer
      · exact ⟨k.timerList, by simp [setTimer_timers, ht]⟩
      · exact ⟨(k.timers t).next, by simp [setTimer_timers, ht, JrtTimer.withNext]⟩

/-- A write that keeps the `next` of a listed timer. -/
theorem Timers.setTimer {k : Kernel} {l : List Ptr} (h : Timers k l) {timer : Ptr} {t : JrtTimer}
    (ht : timer ∈ l → t.next = (k.timers timer).next) : Timers (k.setTimer timer t) l := by
  refine Linked.congr h fun b hb => ?_
  rw [setTimer_timers]
  split
  · next heq => rw [heq, ht (heq ▸ hb)]
  · rfl

theorem Timers.of_eq {k k' : Kernel} {l : List Ptr} (h : Timers k l)
    (htimers : k'.timers = k.timers) (hlist : k'.timerList = k.timerList) : Timers k' l := by
  rw [Timers, htimers, hlist]
  exact h

/-! ## The walk of the tick -/

theorem timerExpire_timers (k : Kernel) (timer t : Ptr) :
    (timerExpire k timer).timers t
      = if t = timer then (k.timers timer).withExpirations ((k.timers timer).expirations + 1)
        else k.timers t := by
  simp only [timerExpire]
  split <;> simp [setTimer_timers]

@[simp] theorem timerExpire_timerList (k : Kernel) (timer : Ptr) :
    (timerExpire k timer).timerList = k.timerList := by
  simp only [timerExpire]
  split <;> simp

/-- The record of a timer behind the tick `now`. -/
def JrtTimer.ticked (t : JrtTimer) (now : UInt32) : JrtTimer :=
  if t.active ≠ 0 ∧ signedNonneg (now - t.deadline) then
    let t := t.withExpirations (t.expirations + 1)
    if t.periodic ≠ 0 then t.withDeadline (t.deadline + t.period) else t.withActive 0
  else t

/-- One iteration of the tick's walk writes the timer it visits. -/
theorem timerTickStep_timers (now : UInt32) (k : Kernel) (timer t : Ptr) :
    (timerTickStep now k timer).timers t
      = if t = timer then (k.timers timer).ticked now else k.timers t := by
  unfold timerTickStep JrtTimer.ticked
  split
  · simp only [timerRearm, setTimer_timers, timerExpire_timers, if_true]
    split <;> rfl
  · split
    · next heq => rw [heq]
    · rfl

theorem ticked_next (t : JrtTimer) (now : UInt32) : (t.ticked now).next = t.next := by
  simp only [JrtTimer.ticked]
  split
  · split <;> rfl
  · rfl

theorem timerTickStep_next (now : UInt32) (k : Kernel) (timer : Ptr) :
    (fun a => ((timerTickStep now k timer).timers a).next) = fun a => (k.timers a).next := by
  funext a
  rw [timerTickStep_timers]
  split
  · next heq => rw [ticked_next, heq]
  · rfl

@[simp] theorem timerTickStep_timerList (now : UInt32) (k : Kernel) (timer : Ptr) :
    (timerTickStep now k timer).timerList = k.timerList := by
  unfold timerTickStep
  split
  · simp [timerRearm]
  · rfl

/-- The walk visits the listed timers one after the other. -/
theorem timerTickLoop_eq {now : UInt32} {l : List Ptr} {a : Ptr} {k : Kernel}
    (h : Linked 0 (fun a => (k.timers a).next) a l) {fuel : Nat} (hfuel : l.length < fuel) :
    timerTickLoop now fuel a k = .ok (l.foldl (timerTickStep now) k) := by
  induction l generalizing a k fuel with
  | nil =>
      obtain ⟨fuel, rfl⟩ := Nat.exists_eq_succ_of_ne_zero (Nat.ne_of_gt hfuel)
      cases h
      simp [timerTickLoop]
  | cons b l ih =>
      rw [List.length_cons] at hfuel
      obtain ⟨fuel, rfl⟩ := Nat.exists_eq_succ_of_ne_zero (show fuel ≠ 0 by omega)
      cases h with
      | cons hne hrest =>
          unfold timerTickLoop
          rw [if_neg hne]
          have hnext : ((timerTickStep now k b).timers b).next = (k.timers b).next :=
            congrFun (timerTickStep_next now k b) b
          simp only [hnext, List.foldl_cons]
          refine ih ?_ (by omega)
          rw [timerTickStep_next]
          exact hrest

theorem kernelTimerTick_eq {k : Kernel} {l : List Ptr} (h : Timers k l) :
    kernelTimerTick k = .ok (l.foldl (timerTickStep k.gKernelTicks) k) :=
  timerTickLoop_eq h (length_lt_addressSpace h)

theorem Timers.timerTickStep {k : Kernel} {l : List Ptr} (h : Timers k l) (now : UInt32)
    (timer : Ptr) : Timers (timerTickStep now k timer) l := by
  rw [Timers, timerTickStep_next, timerTickStep_timerList]
  exact h

/-! ## The walk of the service claim -/

/-- The timer has work for the timer service. -/
def JrtTimer.Due (t : JrtTimer) : Prop := t.callback ≠ 0 ∧ t.expirations ≠ 0

instance (t : JrtTimer) : Decidable t.Due := inferInstanceAs (Decidable (_ ∧ _))

theorem timerClaimLoop_eq {k : Kernel} {l : List Ptr} {a : Ptr}
    (h : Linked 0 (fun a => (k.timers a).next) a l) {fuel : Nat} (hfuel : l.length < fuel) :
    timerClaimLoop k fuel a = .ok (l.find? fun t => decide (k.timers t).Due) := by
  induction h generalizing fuel with
  | nil =>
      obtain ⟨fuel, rfl⟩ := Nat.exists_eq_succ_of_ne_zero (Nat.ne_of_gt hfuel)
      simp [timerClaimLoop]
  | @cons a l hne _ ih =>
      rw [List.length_cons] at hfuel
      obtain ⟨fuel, rfl⟩ := Nat.exists_eq_succ_of_ne_zero (show fuel ≠ 0 by omega)
      unfold timerClaimLoop
      rw [if_neg hne, List.find?_cons]
      by_cases hdue : (k.timers a).callback ≠ 0 ∧ (k.timers a).expirations ≠ 0
      · rw [if_pos hdue, decide_eq_true (show (k.timers a).Due from hdue)]
      · rw [if_neg hdue, decide_eq_false (show ¬(k.timers a).Due from hdue)]
        exact ih (by omega)

/-- A claim takes the first listed timer with work, or blocks the caller if
there is none. -/
theorem kernelTimerServiceClaim_cases {k k' : Kernel} {l : List Ptr} {claimed : Option Ptr}
    (h : Timers k l) (hclaim : kernelTimerServiceClaim k = .ok (claimed, k')) :
    (∃ t ∈ l, claimed = some t ∧ (k.timers t).Due
        ∧ k' = k.setTimer t ((k.timers t).withExpirations ((k.timers t).expirations - 1)))
      ∨ (claimed = none ∧ (∀ t ∈ l, ¬(k.timers t).Due) ∧ k' = taskTimerServiceBlockLocked k) := by
  simp only [kernelTimerServiceClaim, timerClaimLoop_eq h (length_lt_addressSpace h)] at hclaim
  cases hfind : l.find? fun t => decide (k.timers t).Due with
  | none =>
      rw [hfind] at hclaim
      cases hclaim
      refine Or.inr ⟨rfl, fun t ht => ?_, rfl⟩
      simpa using List.find?_eq_none.mp hfind t ht
  | some t =>
      rw [hfind] at hclaim
      cases hclaim
      have hdue := List.find?_some hfind
      exact Or.inl ⟨t, List.mem_of_find?_eq_some hfind, rfl, of_decide_eq_true hdue, rfl⟩

end JustRT
