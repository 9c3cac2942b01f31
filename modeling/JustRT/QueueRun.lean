import JustRT.QueueStep

/-!
# Queue reservations

`QueueBalance` ties the counters of a queue to the tasks: each reservation
belongs to one woken task, and nobody waits while a slot, or an item, is
free for it. Every step keeps it, so a woken sender or receiver finds its
reservation whenever it runs.

The balance of counters alone is that of `Reservation.Balanced`; what is
added here is whose they are. A counter that only counted could be right
while a woken task found its slot taken and another one slept on.
-/

namespace JustRT

open Reservation Tally

/-! ## The invariant -/

/-- The reservations of a queue are the wake-ups nobody has taken yet, on
either side. Together with the items and the free slots they stay within the
capacity, and nobody waits while there is something to take that is not
reserved. -/
structure QueueBalance (q : Ptr) (c : Cfg) : Prop where
  capacity_ne : (c.kernel.queues q).capacity ≠ 0
  itemSize_ne : (c.kernel.queues q).itemSize ≠ 0
  send : (c.kernel.queues q).sendReservations.toNat = c.grants (sendPlace q)
  receive : (c.kernel.queues q).receiveReservations.toNat = c.grants (receivePlace q)
  balanced : Balanced (c.kernel.queues q).counters (c.kernel.Waited (sendPlace q))
    (c.kernel.Waited (receivePlace q))

/-- A sender that is accepted has a slot: its own, or a free one. -/
theorem room_of_accepts {Q : JrtQueue} {senders receivers : Prop} {reserved : Bool}
    (h : Balanced Q.counters senders receivers)
    (hreserved : reserved = true → 0 < Q.sendReservations.toNat)
    (haccepts : queueSendAccepts Q reserved = true) :
    Q.count.toNat < Q.capacity.toNat
      ∧ (reserved = false → Q.count.toNat + Q.sendReservations.toNat < Q.capacity.toNat) := by
  have hle : Q.count.toNat + Q.sendReservations.toNat ≤ Q.capacity.toNat := h.send_le
  have hcap := Q.capacity.toNat_lt
  obtain ⟨-, -, haccepts⟩ := queueSendAccepts_iff.mp haccepts
  rcases haccepts with hres | hroom
  · have hpos := hreserved hres
    refine ⟨by omega, fun hfree => ?_⟩
    rw [hres] at hfree
    cases hfree
  · have hlt : (Q.count + Q.sendReservations).toNat < Q.capacity.toNat :=
      UInt32.lt_iff_toNat_lt.mp hroom
    have hsum : (Q.count + Q.sendReservations).toNat
        = Q.count.toNat + Q.sendReservations.toNat := by
      rw [UInt32.toNat_add]
      exact Nat.mod_eq_of_lt (by omega)
    rw [hsum] at hlt
    exact ⟨by omega, fun _ => hlt⟩

/-- A receiver that is served has an item: its own, or a free one. -/
theorem item_of_accepts {Q : JrtQueue} {senders receivers : Prop} {reserved : Bool}
    (h : Balanced Q.counters senders receivers)
    (hreserved : reserved = true → 0 < Q.receiveReservations.toNat)
    (haccepts : queueReceiveAccepts Q reserved = true) :
    0 < Q.count.toNat
      ∧ (reserved = false → Q.receiveReservations.toNat < Q.count.toNat) := by
  have hle : Q.receiveReservations.toNat ≤ Q.count.toNat := h.receive_le
  obtain ⟨-, haccepts⟩ := queueReceiveAccepts_iff.mp haccepts
  rcases haccepts with hres | hitem
  · have hpos := hreserved hres
    refine ⟨by omega, fun hfree => ?_⟩
    rw [hres] at hfree
    cases hfree
  · have hlt : Q.receiveReservations.toNat < Q.count.toNat := UInt32.lt_iff_toNat_lt.mp hitem
    exact ⟨by omega, fun _ => hlt⟩

section Step

variable {q : Ptr} {c c' : Cfg} {x y : Option (List UInt8)}

@[simp] theorem sent_capacity (Q : JrtQueue) (reserved : Bool) (source : Nat → UInt8) :
    (Q.sent reserved source).capacity = Q.capacity ∧
      (Q.sent reserved source).itemSize = Q.itemSize := by
  cases reserved <;> exact ⟨rfl, rfl⟩

@[simp] theorem received_capacity (Q : JrtQueue) (reserved : Bool) :
    (Q.received reserved).capacity = Q.capacity ∧
      (Q.received reserved).itemSize = Q.itemSize := by
  cases reserved <;> exact ⟨rfl, rfl⟩

@[simp] theorem receiverWoken_capacity (Q : JrtQueue) (woken : Bool) :
    (Q.receiverWoken woken).capacity = Q.capacity ∧
      (Q.receiverWoken woken).itemSize = Q.itemSize := by
  cases woken <;> exact ⟨rfl, rfl⟩

@[simp] theorem senderWoken_capacity (Q : JrtQueue) (woken : Bool) :
    (Q.senderWoken woken).capacity = Q.capacity ∧
      (Q.senderWoken woken).itemSize = Q.itemSize := by
  cases woken <;> exact ⟨rfl, rfl⟩

/-- A queue keeps its capacity and its item size. -/
theorem QueueStep.sizes (hstep : QueueStep q c c' x y) :
    (c'.kernel.queues q).capacity = (c.kernel.queues q).capacity
      ∧ (c'.kernel.queues q).itemSize = (c.kernel.queues q).itemSize := by
  cases hstep with
  | kept hq => rw [hq]; exact ⟨rfl, rfl⟩
  | senderBlocks hq => rw [hq]; exact ⟨rfl, rfl⟩
  | receiverBlocks hq => rw [hq]; exact ⟨rfl, rfl⟩
  | stored _ hq => rw [hq]; simp
  | taken _ hq => rw [hq]; simp

theorem stored_counters {Q : JrtQueue} {senders receivers : Prop} {reserved woken : Bool}
    {source : Nat → UInt8} (h : Balanced Q.counters senders receivers)
    (hreserved : reserved = true → 0 < Q.sendReservations.toNat)
    (haccepts : queueSendAccepts Q reserved = true) :
    ((Q.sent reserved source).receiverWoken woken).counters
      = (Q.counters.stored reserved).reserveReceive woken := by
  have hroom := (room_of_accepts h hreserved haccepts).1
  have hsent := sent_counters source hroom hreserved
  have hreceive : Q.receiveReservations.toNat ≤ Q.count.toNat := h.receive_le
  have hlt : (Q.sent reserved source).receiveReservations.toNat
      < (Q.sent reserved source).count.toNat := by
    have hcount := congrArg Counters.count hsent
    have hres := congrArg Counters.receive hsent
    simp only [JrtQueue.counters, Counters.stored] at hcount hres
    omega
  rw [receiverWoken_counters (Or.inl hlt), hsent]

theorem taken_counters {Q : JrtQueue} {senders receivers : Prop} {reserved woken : Bool}
    (h : Balanced Q.counters senders receivers)
    (hreserved : reserved = true → 0 < Q.receiveReservations.toNat)
    (haccepts : queueReceiveAccepts Q reserved = true) :
    ((Q.received reserved).senderWoken woken).counters
      = (Q.counters.taken reserved).reserveSend woken := by
  have hitem := (item_of_accepts h hreserved haccepts).1
  have hreceived := received_counters hitem hreserved
  have hsend : Q.count.toNat + Q.sendReservations.toNat ≤ Q.capacity.toNat := h.send_le
  have hlt : (Q.received reserved).sendReservations.toNat
      < (Q.received reserved).capacity.toNat := by
    have hres := congrArg Counters.send hreceived
    have hcap := congrArg Counters.capacity hreceived
    simp only [JrtQueue.counters, Counters.taken] at hres hcap
    omega
  rw [senderWoken_counters (Or.inl hlt), hreceived]

/-- Who takes a reserved slot, or a reserved item, finds it on the counter. -/
theorem QueueBalance.send_pos (h : QueueBalance q c) {reserved : Bool}
    (htakes : Takes (sendPlace q) c c' reserved) :
    reserved = true → 0 < (c.kernel.queues q).sendReservations.toNat := by
  rintro rfl
  rw [h.send, htakes.grants]
  exact Nat.succ_pos _

theorem QueueBalance.receive_pos (h : QueueBalance q c) {reserved : Bool}
    (htakes : Takes (receivePlace q) c c' reserved) :
    reserved = true → 0 < (c.kernel.queues q).receiveReservations.toNat := by
  rintro rfl
  rw [h.receive, htakes.grants]
  exact Nat.succ_pos _

/-- A sender without a reservation is refused only where no slot is free. -/
theorem QueueBalance.full_of_refused (h : QueueBalance q c)
    (hfull : queueSendAccepts (c.kernel.queues q) false = false) :
    (c.kernel.queues q).capacity.toNat
      ≤ (c.kernel.queues q).count.toNat + (c.kernel.queues q).sendReservations.toNat := by
  by_contra hlt
  rw [← Bool.not_eq_true, queueSendAccepts_iff] at hfull
  refine hfull ⟨h.capacity_ne, h.itemSize_ne, Or.inr ?_⟩
  have hcaplt := (c.kernel.queues q).capacity.toNat_lt
  have hle : (c.kernel.queues q).count.toNat + (c.kernel.queues q).sendReservations.toNat
      ≤ (c.kernel.queues q).capacity.toNat := h.balanced.send_le
  have hsum : ((c.kernel.queues q).count + (c.kernel.queues q).sendReservations).toNat
      = (c.kernel.queues q).count.toNat + (c.kernel.queues q).sendReservations.toNat := by
    rw [UInt32.toNat_add]
    exact Nat.mod_eq_of_lt (by omega)
  rw [UInt32.lt_iff_toNat_lt, hsum]
  exact Nat.lt_of_not_le hlt

/-- A receiver without a reservation is refused only where every item is
reserved. -/
theorem QueueBalance.empty_of_refused (h : QueueBalance q c)
    (hempty : queueReceiveAccepts (c.kernel.queues q) false = false) :
    (c.kernel.queues q).count.toNat ≤ (c.kernel.queues q).receiveReservations.toNat := by
  by_contra hlt
  rw [← Bool.not_eq_true, queueReceiveAccepts_iff] at hempty
  exact hempty ⟨h.itemSize_ne, Or.inr (UInt32.lt_iff_toNat_lt.mpr (Nat.lt_of_not_le hlt))⟩

theorem QueueBalance.step (h : QueueBalance q c) (hstep : QueueStep q c c' x y) :
    QueueBalance q c' := by
  obtain ⟨hcap, hsize⟩ := hstep.sizes
  have hcap' : (c'.kernel.queues q).capacity ≠ 0 := by rw [hcap]; exact h.capacity_ne
  have hsize' : (c'.kernel.queues q).itemSize ≠ 0 := by rw [hsize]; exact h.itemSize_ne
  have hbalanced := h.balanced
  cases hstep with
  | kept hq hsend hreceive =>
      refine ⟨hcap', hsize', ?_, ?_, ?_⟩
      · rw [hq, hsend.grants, h.send]
      · rw [hq, hreceive.grants, h.receive]
      · rw [hq]
        exact hbalanced.mono hsend.waited hreceive.waited
  | senderBlocks hq hgrants hreceive hfull =>
      refine ⟨hcap', hsize', ?_, ?_, ?_⟩
      · rw [hq, hgrants, h.send]
      · rw [hq, hreceive.grants, h.receive]
      · rw [hq]
        exact hbalanced.sender_waits (h.full_of_refused hfull) hreceive.waited
  | receiverBlocks hq hsend hgrants hempty =>
      refine ⟨hcap', hsize', ?_, ?_, ?_⟩
      · rw [hq, hsend.grants, h.send]
      · rw [hq, hgrants, h.receive]
      · rw [hq]
        exact hbalanced.receiver_waits (h.empty_of_refused hempty) hsend.waited
  | @stored reserved woken source haccepts hq htakes hgives =>
      have hsent := htakes.grants
      have hreserved := h.send_pos htakes
      obtain ⟨-, hfree⟩ := room_of_accepts hbalanced hreserved haccepts
      have hcounters : (c'.kernel.queues q).counters
          = ((c.kernel.queues q).counters.stored reserved).reserveReceive woken := by
        rw [hq]
        exact stored_counters hbalanced hreserved haccepts
      refine ⟨hcap', hsize', ?_, ?_, ?_⟩
      · have hnew := congrArg Counters.send hcounters
        have hold := h.send
        cases reserved <;>
          simp_all [JrtQueue.counters, Counters.stored, Counters.reserveReceive]
      · have hnew := congrArg Counters.receive hcounters
        have hgrants := hgives.grants
        have hold := h.receive
        cases woken <;>
          simp_all [JrtQueue.counters, Counters.stored, Counters.reserveReceive]
      · rw [hcounters]
        exact hbalanced.store hreserved hfree htakes.waited hgives.waited hgives.given_iff
  | @taken reserved woken haccepts hq htakes hgives =>
      have hreceived := htakes.grants
      have hreserved := h.receive_pos htakes
      obtain ⟨-, hfree⟩ := item_of_accepts hbalanced hreserved haccepts
      have hcounters : (c'.kernel.queues q).counters
          = ((c.kernel.queues q).counters.taken reserved).reserveSend woken := by
        rw [hq]
        exact taken_counters hbalanced hreserved haccepts
      refine ⟨hcap', hsize', ?_, ?_, ?_⟩
      · have hnew := congrArg Counters.send hcounters
        have hgrants := hgives.grants
        have hold := h.send
        cases woken <;>
          simp_all [JrtQueue.counters, Counters.taken, Counters.reserveSend]
      · have hnew := congrArg Counters.receive hcounters
        have hold := h.receive
        cases reserved <;>
          simp_all [JrtQueue.counters, Counters.taken, Counters.reserveSend]
      · rw [hcounters]
        exact hbalanced.take hreserved hfree hgives.waited htakes.waited hgives.given_iff

end Step

/-! ## From the creation on -/

def QueueUnused (q : Ptr) (c : Cfg) : Prop :=
  ∀ i w, (c.Within i w ∨ ∃ r, c.pc i = .entered w r) → w.onQueue q = false

/-- The queue is as `JRT_QueueCreateStatic` leaves it, in a reachable
configuration in which no task is in a call on it. -/
structure QueueCreated (img : Image) (q : Ptr) (storage : Nat → UInt8)
    (capacity itemSize : UInt32) (c : Cfg) : Prop where
  reachable : Reachable img c
  unused : QueueUnused q c
  queue : c.kernel.queues q
    = (jrtQueueCreateStatic c.kernel q storage capacity itemSize).queues q

section Created

variable {img : Image} {q : Ptr} {c₀ c₁ c : Cfg} {o : Observation} {storage : Nat → UInt8}
  {capacity itemSize : UInt32} {tr : List Transition}

/-- A task in no call on the queue holds no reservation and waits at none of
its places. -/
theorem QueueUnused.grants (h : QueueUnused q c) {p : WaitPlace}
    (hp : p = sendPlace q ∨ p = receivePlace q) : c.grants p = 0 := by
  refine tally_eq_zero fun i _ => ?_
  rw [← Bool.not_eq_true]
  intro hg
  obtain ⟨w, hat, hw⟩ := exists_waitsAt_of_granted hg
  have hno := h i w (hw.imp_right fun hpc => ⟨true, hpc⟩)
  rw [onQueue_of_waitsAt hp hat] at hno
  cases hno

theorem QueueUnused.not_waited (h : QueueUnused q c) (hs : Sched c) {p : WaitPlace}
    (hp : p = sendPlace q ∨ p = receivePlace q) : ¬c.kernel.Waited p := by
  rintro ⟨i, hi, hon⟩
  obtain ⟨w, hwithin⟩ := hs.blocked i hi hon.1
  have hcall := (hs.waiting i w hwithin).on hon.1
  have hat : w.waitsAt i p = true :=
    waitsAt_iff.mpr ⟨hcall.2.1.symm.trans hon.2.1, hcall.2.2.symm.trans hon.2.2⟩
  have hno := h i w (Or.inl hwithin)
  rw [onQueue_of_waitsAt hp hat] at hno
  cases hno

/-- Behind `JRT_KernelInit` no task is in a call on a queue. -/
theorem QueueUnused.boot (hboot : Boot img c) : QueueUnused q c := by
  obtain ⟨k₀, config, k, -, rfl⟩ := hboot
  intro i w hw
  have hpc : (bootCfg k).pc i = initialPc k i := rfl
  rw [Cfg.Within, hpc, initialPc] at hw
  split at hw
  · rcases hw with (hw | hw) | ⟨r, hw⟩ <;> cases hw
  · split at hw
    · rcases hw with (hw | hw) | ⟨r, hw⟩ <;> cases hw
      rfl
    · rcases hw with (hw | hw) | ⟨r, hw⟩ <;> cases hw

theorem QueueUnused.start (h : QueueUnused q c₀) (hstart : step c₀ .start = some (c₁, o)) :
    QueueUnused q c₁ := by
  have hstep := step_cases hstart
  cases hstep with
  | start => exact h
  | thread _ _ hseg => cases hseg

theorem QueueCreated.of_boot (hboot : Boot img c) (hqueue : c.kernel.queues q
      = (jrtQueueCreateStatic c.kernel q storage capacity itemSize).queues q) :
    QueueCreated img q storage capacity itemSize c :=
  ⟨⟨c, [], hboot, .nil⟩, .boot hboot, hqueue⟩

theorem QueueCreated.of_call (hreachable : Reachable img c₀) (hunused : QueueUnused q c₀)
    (hcreate : step c₀ (.call (.queueCreateStatic q storage capacity itemSize)) = some (c₁, o)) :
    QueueCreated img q storage capacity itemSize c₁ := by
  obtain ⟨b, tr, hboot, hrun⟩ := hreachable
  have hreachable₁ : Reachable img c₁ := ⟨b, _, hboot, hrun.snoc hcreate⟩
  have hstep := step_cases hcreate
  cases hstep with
  | thread _ _ hseg =>
      cases hseg with
      | call _ _ hs =>
          obtain rfl := Except.ok.inj hs
          refine ⟨hreachable₁, fun i w hw => ?_, ?_⟩
          · by_cases hi : i = c₀.current
            · subst hi
              rw [Cfg.Within, Sched.after_pc_current] at hw
              rcases hw with (hw | hw) | ⟨r, hw⟩ <;> cases hw
            · rw [Cfg.Within, Sched.after_pc_of_ne _ hi] at hw
              exact hunused i w hw
          · simp [Cfg.after, jrtQueueCreateStatic, setQueue_queues]

/-- The queue's counters are in balance when it is created, ... -/
theorem QueueCreated.balance (h : QueueCreated img q storage capacity itemSize c)
    (hcapacity : capacity ≠ 0) (hsize : itemSize ≠ 0) : QueueBalance q c := by
  have hs : Sched c := h.reachable.sched
  have hqueue : c.kernel.queues q
      = { storage, capacity, itemSize, head := 0, tail := 0, count := 0
          sendReservations := 0, receiveReservations := 0 } := by
    rw [h.queue]
    exact (setQueue_queues _ _ _ _).trans (if_pos rfl)
  refine ⟨by rw [hqueue]; exact hcapacity, by rw [hqueue]; exact hsize, ?_, ?_, ?_⟩
  · rw [hqueue, h.unused.grants (Or.inl rfl)]
    rfl
  · rw [hqueue, h.unused.grants (Or.inr rfl)]
    rfl
  · rw [hqueue]
    refine ⟨Nat.zero_le _, Nat.le_refl 0, fun hw => ?_, fun _ => rfl⟩
    exact absurd hw (h.unused.not_waited hs (Or.inl rfl))

/-- ... and stay so, with the queue's sizes. -/
theorem QueueBalance.run (hs : Sched c₁) (h : QueueBalance q c₁) (hrun : Run c₁ tr c)
    (honce : ∀ x ∈ tr, x.action.createsQueue q = false) :
    Sched c ∧ QueueBalance q c
      ∧ (c.kernel.queues q).capacity = (c₁.kernel.queues q).capacity
      ∧ (c.kernel.queues q).itemSize = (c₁.kernel.queues q).itemSize := by
  induction hrun with
  | nil => exact ⟨hs, h, rfl, rfl⟩
  | @snoc tr c₂ c₃ a o _ hstep ih =>
      obtain ⟨hs₂, h₂, hcapacity, hsize⟩ := ih fun x hx => honce x (List.mem_append_left _ hx)
      have hcases := step_cases hstep
      have hcreate := honce ⟨c₂, a, o, c₃⟩ (List.mem_append_right _ List.mem_cons_self)
      have hqueue := queueStep_of_step hs₂ hcases hcreate h₂.capacity_ne h₂.itemSize_ne
      obtain ⟨hcapacity₃, hsize₃⟩ := hqueue.sizes
      exact ⟨hs₂.step hcases, h₂.step hqueue, hcapacity₃.trans hcapacity, hsize₃.trans hsize⟩

end Created

/-! ## What a reservation is for -/

/-- The step returns 1 from a call of task `i` at the place, which had a
reservation. -/
def Transition.completes (x : Transition) (p : WaitPlace) (i : Nat) : Prop :=
  x.pre.current = i ∧ x.pre.granted p i = true ∧ x.post.pc i = .user
    ∧ x.observation.result = some 1

section Reserved

variable {q : Ptr} {p : WaitPlace} {c c' : Cfg} {i : Nat} {tr : List Transition}

/-- A segment of a task that holds a reservation completes its call, or
brings it closer to that. -/
theorem reserved_segment (h : Sched c) (hpending : c.pending = false)
    (hcapacity : (c.kernel.queues q).capacity ≠ 0) (hsize : (c.kernel.queues q).itemSize ≠ 0)
    (hp : p = sendPlace q ∨ p = receivePlace q) (hg : c.granted p c.current = true)
    {a : Action} {s : Segment} (hseg : ThreadSegment c a s) :
    (s.pc = .user ∧ s.result = some 1)
      ∨ ((c.after s).granted p c.current = true
        ∧ s.pc.segmentsLeft < (c.pc c.current).segmentsLeft) := by
  obtain ⟨w, hat, hw⟩ := exists_waitsAt_of_granted hg
  have hon := onQueue_of_waitsAt hp hat
  cases hseg with
  | call hpc => rcases hw with (hw | hw) | hw <;> rw [hpc] at hw <;> cases hw
  | @entered w' r source s hpc hs =>
      refine Or.inl ?_
      have hentered : c.pc c.current = .entered w true := by
        rcases hw with (hw | hw) | hw
        · rw [hpc] at hw
          cases hw
        · rw [hpc] at hw
          cases hw
        · exact hw
      obtain ⟨rfl, rfl⟩ := Pc.entered.inj (hpc.symm.trans hentered)
      cases w' with
      | queueSend b timeout deadline =>
          obtain rfl : b = q := by simpa [WaitCall.onQueue] using hon
          obtain rfl := Except.ok.inj hs
          rcases jrtQueueSend_cases c.kernel b source timeout deadline true with
            ⟨-, k', heq, -⟩ | ⟨hfull, -⟩
          · rw [heq]
            exact ⟨rfl, rfl⟩
          · simp [queueSendAccepts, hcapacity, hsize] at hfull
      | queueReceive b timeout deadline =>
          obtain rfl : b = q := by simpa [WaitCall.onQueue] using hon
          obtain rfl := Except.ok.inj hs
          rcases jrtQueueReceive_cases c.kernel b timeout deadline true with
            ⟨-, k', heq, -⟩ | ⟨hempty, -⟩
          · rw [heq]
            exact ⟨rfl, rfl⟩
          · simp [queueReceiveAccepts, hsize] at hempty
      | _ => cases hon
  | @yielding w' source hpc =>
      refine Or.inr ⟨?_, by rw [hpc]; exact Nat.lt_succ_self 2⟩
      have hbehind : (c.after { kernel := c.kernel, pc := .resumed w', switch := true }).Within
          c.current w' := Or.inr (Sched.after_pc_current _)
      rw [granted_within hbehind]
      exact (granted_within (Or.inl hpc)).mp hg
  | @resumed w' source hpc =>
      refine Or.inr ?_
      have hresumed : w' = w := by
        rcases hw with (hw | hw) | hw <;> rw [hpc] at hw <;> cases hw
        rfl
      subst hresumed
      obtain ⟨-, hback⟩ := resumed_granted h hpending hpc hon p
      have hone := ((granted_within (Or.inr hpc)).mp hg).2.2
      rw [hback hone]
      refine ⟨?_, by rw [hpc]; exact Nat.lt_succ_self 1⟩
      rw [granted_entered (by rw [Sched.after_pc_current, hback hone]), hat]
      rfl
  | requestSwitch hpc => rcases hw with (hw | hw) | hw <;> rw [hpc] at hw <;> cases hw
  | inTime hpc => rcases hw with (hw | hw) | hw <;> rw [hpc] at hw <;> cases hw
  | delayed hpc => rcases hw with (hw | hw) | hw <;> rw [hpc] at hw <;> cases hw

/-- A reservation stays with its holder until its call returns 1. -/
theorem reserved_step (h : Sched c) (hqueue : QueueBalance q c) {a : Action} {o : Observation}
    (hstep : StepCases c a c' o) (hp : p = sendPlace q ∨ p = receivePlace q)
    (hi : i < c.kernel.taskCount) (hg : c.granted p i = true) :
    c'.granted p i = true ∨ Transition.completes ⟨c, a, o, c'⟩ p i := by
  by_cases hown : ∃ s, ThreadSegment c a s ∧ i = c.current
  · obtain ⟨s, hseg, rfl⟩ := hown
    cases hstep with
    | @thread a s' _ hpending hseg' =>
        rcases reserved_segment h hpending hqueue.capacity_ne hqueue.itemSize_ne hp hg hseg' with
          ⟨hpc, hresult⟩ | ⟨hkept, -⟩
        · refine Or.inr ⟨rfl, hg, ?_, hresult⟩
          show (c.after s').pc c.current = .user
          rw [Sched.after_pc_current, hpc]
        · exact Or.inl hkept
    | start => cases hseg
    | tick => cases hseg
    | isr => cases hseg
    | pendsv => cases hseg
    | store => cases hseg
    | cycles => cases hseg
  · have hothers : ∀ s, ThreadSegment c a s → i ≠ c.current := fun s hseg hic => hown ⟨s, hseg, hic⟩
    exact Or.inl (granted_kept h hstep hi hg hothers).1

theorem reserved_run (hs : Sched c) (hqueue : QueueBalance q c) (hrun : Run c tr c')
    (honce : ∀ x ∈ tr, x.action.createsQueue q = false)
    (hp : p = sendPlace q ∨ p = receivePlace q) (hi : i < c.kernel.taskCount)
    (hg : c.granted p i = true) :
    c'.granted p i = true ∨ ∃ x ∈ tr, x.completes p i := by
  induction hrun with
  | nil => exact Or.inl hg
  | @snoc tr c₁ c₂ a o hrun hstep ih =>
      have honce₁ : ∀ x ∈ tr, x.action.createsQueue q = false := fun x hx =>
        honce x (List.mem_append_left _ hx)
      obtain ⟨hs₁, hqueue₁, -⟩ := hqueue.run hs hrun honce₁
      have hn : c₁.kernel.taskCount = c.kernel.taskCount := hrun.taskCount
      rcases ih honce₁ with hg₁ | ⟨x, hx, hdone⟩
      · rcases reserved_step hs₁ hqueue₁ (step_cases hstep) hp (hn ▸ hi) hg₁ with hg₂ | hdone
        · exact Or.inl hg₂
        · exact Or.inr ⟨_, List.mem_append_right _ List.mem_cons_self, hdone⟩
      · exact Or.inr ⟨x, List.mem_append_left _ hx, hdone⟩

/-- The holder of a reservation can go on whenever it runs. -/
theorem reserved_proceeds (hp : p = sendPlace q ∨ p = receivePlace q)
    (hg : c.granted p c.current = true) (hruns : c.threadRuns = true) (source : Nat → UInt8) :
    ∃ c' o, step c (.proceed source) = some (c', o) := by
  obtain ⟨w, hat, hw⟩ := exists_waitsAt_of_granted hg
  have hon := onQueue_of_waitsAt hp hat
  have hsegment : ∃ s, proceed c.kernel source (c.pc c.current) = some (.ok s) := by
    rcases hw with (hw | hw) | hw
    · rw [hw]
      exact ⟨_, rfl⟩
    · rw [hw]
      exact ⟨_, rfl⟩
    · rw [hw]
      cases w with
      | queueSend | queueReceive => exact ⟨_, rfl⟩
      | _ => cases hon
  obtain ⟨s, hs⟩ := hsegment
  refine ⟨c.after s, { result := s.result, output := s.output }, ?_⟩
  simp only [step, hruns, hs, if_true, Cfg.commit]

/-- A wait that timed out left no reservation behind, and the rest of its
call leaves the queue alone. -/
theorem timed_out_step (h : Sched c) {w : WaitCall} (hw : w.onQueue q = true)
    (hwithin : c.Within c.current w) (hresult : (c.kernel.view c.current).waitResult = 0)
    {source : Nat → UInt8} {o : Observation} (hstep : step c (.proceed source) = some (c', o)) :
    c'.kernel.queues q = c.kernel.queues q ∧ c'.granted p c.current = false := by
  have hbefore : c.granted p c.current = false := by
    rw [← Bool.not_eq_true, granted_within hwithin, hresult]
    rintro ⟨-, -, hone⟩
    cases hone
  have hcases := step_cases hstep
  cases hcases with
  | thread _ hpending hseg =>
      rcases hwithin with hpc | hpc
      · obtain rfl := hseg.of_yielding hpc
        refine ⟨rfl, ?_⟩
        rw [← hbefore, Bool.eq_iff_iff, granted_within (Or.inl hpc),
          granted_within (Or.inr (Sched.after_pc_current _))]
        rfl
      · obtain rfl := hseg.of_resumed hpc
        have hqueue := resumed_queueStep h hpending hpc hw
        refine ⟨?_, by rw [(resumed_granted h hpending hpc hw p).1, hbefore]⟩
        cases hqueue with
        | kept hq => exact hq
        | senderBlocks hq => exact hq
        | receiverBlocks hq => exact hq

end Reserved

/-! ## The theorem -/

/-- From the creation of a queue on, its counters promise no slot and no
item twice, a counter is the number of tasks that were woken and have not
completed, and nobody is blocked where there is something for it. So a
woken task stays woken until its call returns 1, and each of its segments
brings it closer to that; a timed-out one holds nothing. -/
theorem queue_reservations (img : Image) (c₁ c : Cfg) (q : Ptr) (storage : Nat → UInt8)
    (capacity itemSize : UInt32) (tr : List Transition)
    (hcreated : QueueCreated img q storage capacity itemSize c₁) (hcapacity : capacity ≠ 0)
    (hsize : itemSize ≠ 0) (hrun : Run c₁ tr c)
    (honce : ∀ x ∈ tr, x.action.createsQueue q = false) :
    (c.kernel.queues q).count.toNat + (c.kernel.queues q).sendReservations.toNat ≤ capacity.toNat
      ∧ (c.kernel.queues q).receiveReservations ≤ (c.kernel.queues q).count
      ∧ (c.kernel.queues q).sendReservations.toNat = c.grants (sendPlace q)
      ∧ (c.kernel.queues q).receiveReservations.toNat = c.grants (receivePlace q)
      ∧ (c.kernel.Waited (receivePlace q) →
          (c.kernel.queues q).count = (c.kernel.queues q).receiveReservations)
      ∧ (c.kernel.Waited (sendPlace q) →
          (c.kernel.queues q).count.toNat + (c.kernel.queues q).sendReservations.toNat
            = capacity.toNat)
      ∧ (∀ p, p = sendPlace q ∨ p = receivePlace q →
          ∀ i < c.kernel.taskCount, c.granted p i = true →
            (c.kernel.tasks i).state ≠ .blocked
              ∧ (∀ next c', Run c next c' → (∀ x ∈ next, x.action.createsQueue q = false) →
                  c'.granted p i = true ∨ ∃ x ∈ next, x.completes p i)
              ∧ (c.current = i → c.threadRuns = true → ∀ source, ∃ c' o,
                  step c (.proceed source) = some (c', o)
                    ∧ (Transition.completes ⟨c, .proceed source, o, c'⟩ p i
                      ∨ (c'.granted p i = true
                        ∧ (c'.pc i).segmentsLeft < (c.pc i).segmentsLeft))))
      ∧ ∀ i w, w.onQueue q = true → c.Within i w → (c.kernel.tasks i).state ≠ .blocked →
          (c.kernel.tasks i).waitResult = 0 →
            (∀ p, c.granted p i = false)
              ∧ (c.current = i → ∀ source c' o, step c (.proceed source) = some (c', o) →
                  c'.kernel.queues q = c.kernel.queues q ∧ ∀ p, c'.granted p i = false) := by
  have hbalance₁ := hcreated.balance hcapacity hsize
  obtain ⟨hs, hbalance, hcap, -⟩ := hbalance₁.run hcreated.reachable.sched hrun honce
  have hcap₁ : (c₁.kernel.queues q).capacity = capacity := by
    rw [hcreated.queue]
    simp [jrtQueueCreateStatic, setQueue_queues]
  obtain ⟨hsend, hreceive, hsenders, hreceivers⟩ := hbalance.balanced
  simp only [JrtQueue.counters, hcap, hcap₁] at hsend hreceive hsenders hreceivers
  refine ⟨hsend, UInt32.le_iff_toNat_le.mpr hreceive, hbalance.send, hbalance.receive,
    fun hw => UInt32.toNat_inj.mp (hreceivers hw), hsenders, ?_, ?_⟩
  · intro p hp i hi hg
    refine ⟨not_blocked_of_granted hs hi hg, ?_, ?_⟩
    · intro next c' hnext hno
      exact reserved_run hs hbalance hnext hno hp hi hg
    · rintro rfl hruns source
      obtain ⟨c', o, hstep⟩ := reserved_proceeds hp hg hruns source
      refine ⟨c', o, hstep, ?_⟩
      have hcases := step_cases hstep
      cases hcases with
      | @thread _ s _ hpending hseg =>
          have hpc : (c.after s).pc c.current = s.pc := Sched.after_pc_current s
          rcases reserved_segment hs hpending hbalance.capacity_ne hbalance.itemSize_ne hp hg hseg
            with ⟨huser, hone⟩ | hleft
          · exact Or.inl ⟨rfl, hg, by rw [hpc, huser], hone⟩
          · rw [hpc]
            exact Or.inr hleft
  · intro i w hw hwithin hstate hresult
    have hnone : ∀ p, c.granted p i = false := fun p => by
      rw [← Bool.not_eq_true, granted_within hwithin, view_waitResult, hresult]
      rintro ⟨-, -, hone⟩
      cases hone
    refine ⟨hnone, ?_⟩
    rintro rfl source c' o hstep
    have hleaves : ∀ p, c'.kernel.queues q = c.kernel.queues q ∧ c'.granted p c.current = false :=
      fun p => timed_out_step hs hw hwithin hresult hstep
    exact ⟨(hleaves (sendPlace q)).1, fun p => (hleaves p).2⟩

/-- A queue of one byte, on which the first task waits to receive while the
second sends. -/
def queueActions : List Action :=
  [.call (.queueReceive 8 100), .proceed fun _ => 0, .proceed fun _ => 0, .pendsv (sampleSp 0),
    .call (.queueSend 8 0), .proceed fun _ => 7]

theorem queueActions_run : ∃ c₁ tr c,
    QueueCreated .sample 8 (fun _ => 0) 1 1 c₁ ∧ runActions c₁ queueActions = some (tr, c)
      ∧ (∀ x ∈ tr, x.action.createsQueue 8 = false)
      ∧ (c.kernel.queues 8).receiveReservations = 1 ∧ (c.kernel.queues 8).count = 1 := by
  have hsome : ((sampleBoot [2, 1]).bind fun b => (step b .start).bind fun r₀ =>
      (step r₀.1 (.call (.queueCreateStatic 8 (fun _ => 0) 1 1))).bind fun r₁ =>
        (runActions r₁.1 queueActions).filter fun r =>
          (r.2.kernel.queues 8).receiveReservations == 1 && (r.2.kernel.queues 8).count == 1).isSome
      = true := by decide +kernel
  obtain ⟨⟨tr, c⟩, hbind⟩ := Option.isSome_iff_exists.mp hsome
  obtain ⟨b, hboot, hbind⟩ := Option.bind_eq_some_iff.mp hbind
  obtain ⟨⟨c₀, o₀⟩, hstart, hbind⟩ := Option.bind_eq_some_iff.mp hbind
  obtain ⟨⟨c₁, o⟩, hcreate, hbind⟩ := Option.bind_eq_some_iff.mp hbind
  obtain ⟨hrun, hcounts⟩ := Option.filter_eq_some_iff.mp hbind
  obtain ⟨hreceive, hcount⟩ := Bool.and_eq_true_iff.mp hcounts
  have hreachable : Reachable .sample c₀ := ⟨b, _, sampleBoot_boot hboot, .snoc .nil hstart⟩
  have hactions : ∀ a ∈ queueActions, a.createsQueue 8 = false := by
    simp [queueActions, Action.createsQueue]
  refine ⟨c₁, tr, c, ?_, hrun, fun x hx => hactions x.action ?_, eq_of_beq hreceive,
    eq_of_beq hcount⟩
  · exact .of_call hreachable (.start (.boot (sampleBoot_boot hboot)) hstart) hcreate
  · rw [← runActions_actions hrun]
    exact List.mem_map_of_mem hx

theorem queue_reservations_sample : ∃ c₁ tr c,
    QueueCreated .sample 8 (fun _ => 0) 1 1 c₁ ∧ runActions c₁ queueActions = some (tr, c)
      ∧ c.grants (receivePlace 8) = 1 := by
  obtain ⟨c₁, tr, c, hcreated, hrun, honce, hreceive, -⟩ := queueActions_run
  obtain ⟨-, -, -, hgrants, -⟩ := queue_reservations .sample c₁ c 8 (fun _ => 0) 1 1 tr hcreated
    (by decide) (by decide) (runActions_run hrun) honce
  refine ⟨c₁, tr, c, hcreated, hrun, ?_⟩
  rw [← hgrants, hreceive]
  rfl

end JustRT
