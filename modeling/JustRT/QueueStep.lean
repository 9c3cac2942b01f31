import JustRT.Grant
import JustRT.Lib.Reservation

/-!
# What a step does to a queue

Senders and receivers of a queue wait at two places. `QueueStep` is every
way a step may treat a queue: it leaves it alone, blocks a sender or a
receiver, stores an item, or takes one; and who holds which reservation
changes with it. `queueStep_of_step` places every step of the system.

The loops of `JRT_QueueSend` and `JRT_QueueReceive` go back to their
critical section behind a wait, so one call may pass through it again: the
first time without a reservation, and then with the one it was woken
with. Which of the two it is, is the flag in the program counter.
-/

namespace JustRT

open Reservation

/-! ## The queue operations as functions of the record -/

def JrtQueue.counters (q : JrtQueue) : Counters :=
  { capacity := q.capacity.toNat
    count := q.count.toNat
    send := q.sendReservations.toNat
    receive := q.receiveReservations.toNat }

def JrtQueue.sent (q : JrtQueue) (reserved : Bool) (source : Nat → UInt8) : JrtQueue :=
  (if reserved then q.withSendReservations (q.sendReservations - 1) else q).push source

def JrtQueue.received (q : JrtQueue) (reserved : Bool) : JrtQueue :=
  (if reserved then q.withReceiveReservations (q.receiveReservations - 1) else q).pop

def JrtQueue.receiverWoken (q : JrtQueue) (woken : Bool) : JrtQueue :=
  if woken then q.withReceiveReservations (q.receiveReservations + 1) else q

def JrtQueue.senderWoken (q : JrtQueue) (woken : Bool) : JrtQueue :=
  if woken then q.withSendReservations (q.sendReservations + 1) else q

theorem toNat_succ {n m : UInt32} (h : n.toNat < m.toNat) : (n + 1).toNat = n.toNat + 1 := by
  have hm := m.toNat_lt
  rw [UInt32.toNat_add]
  show (n.toNat + 1) % 4294967296 = n.toNat + 1
  omega

theorem toNat_pred {n : UInt32} (h : 0 < n.toNat) : (n - 1).toNat = n.toNat - 1 := by
  have hn := n.toNat_lt
  rw [UInt32.toNat_sub]
  show (4294967296 - 1 + n.toNat) % 4294967296 = n.toNat - 1
  omega

section Counters

variable {q : JrtQueue} {reserved woken : Bool}

theorem sent_counters (source : Nat → UInt8) (hroom : q.count.toNat < q.capacity.toNat)
    (hreserved : reserved = true → 0 < q.sendReservations.toNat) :
    (q.sent reserved source).counters = q.counters.stored reserved := by
  have hcount := toNat_succ hroom
  cases reserved with
  | false => simp [JrtQueue.sent, JrtQueue.push, JrtQueue.counters, Counters.stored, hcount]
  | true =>
      have hsend := toNat_pred (hreserved rfl)
      simp [JrtQueue.sent, JrtQueue.push, JrtQueue.withSendReservations, JrtQueue.counters,
        Counters.stored, hcount, hsend]

theorem received_counters (hcount : 0 < q.count.toNat)
    (hreserved : reserved = true → 0 < q.receiveReservations.toNat) :
    (q.received reserved).counters = q.counters.taken reserved := by
  have hpred := toNat_pred hcount
  cases reserved with
  | false => simp [JrtQueue.received, JrtQueue.pop, JrtQueue.counters, Counters.taken, hpred]
  | true =>
      have hreceive := toNat_pred (hreserved rfl)
      simp [JrtQueue.received, JrtQueue.pop, JrtQueue.withReceiveReservations, JrtQueue.counters,
        Counters.taken, hpred, hreceive]

theorem receiverWoken_counters (h : q.receiveReservations.toNat < q.count.toNat ∨ woken = false) :
    (q.receiverWoken woken).counters = q.counters.reserveReceive woken := by
  cases woken with
  | false => rfl
  | true =>
      have hsucc := toNat_succ (h.resolve_right (by simp))
      simp [JrtQueue.receiverWoken, JrtQueue.withReceiveReservations, JrtQueue.counters,
        Counters.reserveReceive, hsucc]

theorem senderWoken_counters (h : q.sendReservations.toNat < q.capacity.toNat ∨ woken = false) :
    (q.senderWoken woken).counters = q.counters.reserveSend woken := by
  cases woken with
  | false => rfl
  | true =>
      have hsucc := toNat_succ (h.resolve_right (by simp))
      simp [JrtQueue.senderWoken, JrtQueue.withSendReservations, JrtQueue.counters,
        Counters.reserveSend, hsucc]

theorem queueSendAccepts_iff :
    queueSendAccepts q reserved = true ↔ q.capacity ≠ 0 ∧ q.itemSize ≠ 0
      ∧ (reserved = true ∨ q.count + q.sendReservations < q.capacity) := by
  simp [queueSendAccepts, and_assoc]

theorem queueReceiveAccepts_iff :
    queueReceiveAccepts q reserved = true ↔ q.itemSize ≠ 0
      ∧ (reserved = true ∨ q.receiveReservations < q.count) := by
  simp [queueReceiveAccepts]

end Counters

/-- The places at which senders and receivers of a queue wait. -/
def sendPlace (q : Ptr) : WaitPlace := ⟨.ptr q, .queueSend⟩

def receivePlace (q : Ptr) : WaitPlace := ⟨.ptr q, .queueReceive⟩

theorem waitsAt_sendPlace_iff {w : WaitCall} {i : Nat} {q : Ptr} :
    w.waitsAt i (sendPlace q) = true ↔ ∃ timeout deadline, w = .queueSend q timeout deadline := by
  rw [waitsAt_iff]
  cases w <;> simp [WaitCall.object, WaitCall.kind, sendPlace]

theorem waitsAt_receivePlace_iff {w : WaitCall} {i : Nat} {q : Ptr} :
    w.waitsAt i (receivePlace q) = true
      ↔ ∃ timeout deadline, w = .queueReceive q timeout deadline := by
  rw [waitsAt_iff]
  cases w <;> simp [WaitCall.object, WaitCall.kind, receivePlace]

/-! ## The wakes of the queue operations -/

section Wakes

variable {k : Kernel} {q a : Ptr}

theorem queueWakeReceiver_spec (k : Kernel) (q : Ptr) :
    (queueWakeReceiver k q).view = k.wokenView (receivePlace q)
      ∧ ∀ a, (queueWakeReceiver k q).queues a
        = if a = q then (k.queues q).receiverWoken (k.selected (receivePlace q)).isSome
          else k.queues a := by
  rw [← wakeSelected_view]
  simp only [queueWakeReceiver, taskWake_eq]
  rw [show wakeSelect k (.ptr q) .queueReceive = k.selected (receivePlace q) from rfl]
  cases k.selected (receivePlace q) with
  | none =>
      refine ⟨rfl, fun a => ?_⟩
      by_cases ha : a = q
      · simp [ha, JrtQueue.receiverWoken]
      · simp [ha]
  | some s =>
      refine ⟨rfl, fun a => ?_⟩
      by_cases ha : a = q
      · simp [ha, JrtQueue.receiverWoken, setQueue_queues]
      · simp [ha, setQueue_queues]

theorem queueWakeSender_spec (k : Kernel) (q : Ptr) :
    (queueWakeSender k q).view = k.wokenView (sendPlace q)
      ∧ ∀ a, (queueWakeSender k q).queues a
        = if a = q then (k.queues q).senderWoken (k.selected (sendPlace q)).isSome
          else k.queues a := by
  rw [← wakeSelected_view]
  simp only [queueWakeSender, taskWake_eq]
  rw [show wakeSelect k (.ptr q) .queueSend = k.selected (sendPlace q) from rfl]
  cases k.selected (sendPlace q) with
  | none =>
      refine ⟨rfl, fun a => ?_⟩
      by_cases ha : a = q
      · simp [ha, JrtQueue.senderWoken]
      · simp [ha]
  | some s =>
      refine ⟨rfl, fun a => ?_⟩
      by_cases ha : a = q
      · simp [ha, JrtQueue.senderWoken, setQueue_queues]
      · simp [ha, setQueue_queues]

/-- The critical section of a send: it stores the item and wakes a
receiver, gives up, or blocks. -/
theorem jrtQueueSend_cases (k : Kernel) (q : Ptr) (source : Nat → UInt8) (timeout : UInt32)
    (deadline : TaskWaitDeadline) (reserved : Bool) :
    (queueSendAccepts (k.queues q) reserved = true
        ∧ ∃ k', jrtQueueSend k q source timeout deadline reserved false = (.returns 1, k')
          ∧ k'.view = k.wokenView (receivePlace q)
          ∧ ∀ a, k'.queues a = if a = q then
              ((k.queues q).sent reserved source).receiverWoken
                (k.selected (receivePlace q)).isSome
            else k.queues a)
      ∨ (queueSendAccepts (k.queues q) reserved = false
        ∧ (jrtQueueSend k q source timeout deadline reserved false = (.returns 0, k)
          ∨ jrtQueueSend k q source timeout deadline reserved false
            = (.yields, taskWaitBeginUntil k k.currentTask (.ptr q) .queueSend deadline))) := by
  simp only [jrtQueueSend, Bool.false_eq_true, if_false]
  cases haccepts : queueSendAccepts (k.queues q) reserved with
  | true =>
      obtain ⟨hview, hqueues⟩ := queueWakeReceiver_spec
        (k.setQueue q ((k.queues q).sent reserved source)) q
      refine Or.inl ⟨rfl, _, rfl, hview, fun a => ?_⟩
      have hqueue := hqueues a
      rw [setQueue_queues, setQueue_queues, if_pos rfl] at hqueue
      refine hqueue.trans ?_
      by_cases ha : a = q
      · rw [if_pos ha, if_pos ha]
        rfl
      · rw [if_neg ha, if_neg ha, if_neg ha]
  | false =>
      refine Or.inr ⟨rfl, ?_⟩
      rw [if_neg (by simp)]
      by_cases htimeout : timeout = 0
      · rw [if_pos htimeout]
        exact Or.inl rfl
      · rw [if_neg htimeout, taskBlockUntilLocked]
        split
        · exact Or.inl rfl
        · exact Or.inr rfl

/-- The critical section of a receive: it takes the oldest item and wakes a
sender, gives up, or blocks. -/
theorem jrtQueueReceive_cases (k : Kernel) (q : Ptr) (timeout : UInt32)
    (deadline : TaskWaitDeadline) (reserved : Bool) :
    (queueReceiveAccepts (k.queues q) reserved = true
        ∧ ∃ k', jrtQueueReceive k q timeout deadline reserved false
            = (.returns 1, some (k.queues q).front, k')
          ∧ k'.view = k.wokenView (sendPlace q)
          ∧ ∀ a, k'.queues a = if a = q then
              ((k.queues q).received reserved).senderWoken (k.selected (sendPlace q)).isSome
            else k.queues a)
      ∨ (queueReceiveAccepts (k.queues q) reserved = false
        ∧ (jrtQueueReceive k q timeout deadline reserved false = (.returns 0, none, k)
          ∨ jrtQueueReceive k q timeout deadline reserved false
            = (.yields, none,
                taskWaitBeginUntil k k.currentTask (.ptr q) .queueReceive deadline))) := by
  simp only [jrtQueueReceive, Bool.false_eq_true, if_false]
  cases haccepts : queueReceiveAccepts (k.queues q) reserved with
  | true =>
      obtain ⟨hview, hqueues⟩ := queueWakeSender_spec
        (k.setQueue q ((k.queues q).received reserved)) q
      refine Or.inl ⟨rfl, _, rfl, hview, fun a => ?_⟩
      have hqueue := hqueues a
      rw [setQueue_queues, setQueue_queues, if_pos rfl] at hqueue
      refine hqueue.trans ?_
      by_cases ha : a = q
      · rw [if_pos ha, if_pos ha]
        rfl
      · rw [if_neg ha, if_neg ha, if_neg ha]
  | false =>
      refine Or.inr ⟨rfl, ?_⟩
      rw [if_neg (by simp)]
      by_cases htimeout : timeout = 0
      · rw [if_pos htimeout]
        exact Or.inl rfl
      · rw [if_neg htimeout, taskBlockUntilLocked]
        split
        · exact Or.inl rfl
        · exact Or.inr rfl

theorem jrtQueueSendFromIsr_cases (k : Kernel) (q : Ptr) (source : Nat → UInt8) :
    (queueSendAccepts (k.queues q) false = true
        ∧ ∃ k', jrtQueueSendFromIsr k q source true = (1, k')
          ∧ k'.view = k.wokenView (receivePlace q)
          ∧ ∀ a, k'.queues a = if a = q then
              ((k.queues q).sent false source).receiverWoken (k.selected (receivePlace q)).isSome
            else k.queues a)
      ∨ (queueSendAccepts (k.queues q) false = false
        ∧ ∃ k', jrtQueueSendFromIsr k q source true = (0, k')
          ∧ k'.view = k.view ∧ k'.queues = k.queues) := by
  simp only [jrtQueueSendFromIsr, Bool.not_true, Bool.false_eq_true, if_false]
  have hsame : (k.mapDiag Diagnostics.isrSendAttempted).queues q = k.queues q := rfl
  rw [hsame]
  cases haccepts : queueSendAccepts (k.queues q) false with
  | true =>
      obtain ⟨hview, hqueues⟩ := queueWakeReceiver_spec
        (((k.mapDiag Diagnostics.isrSendAttempted).setQueue q ((k.queues q).push source)).mapDiag
          fun d => d.isrSendAccepted ((((k.mapDiag Diagnostics.isrSendAttempted).setQueue q
            ((k.queues q).push source)).queues q).count)) q
      refine Or.inl ⟨rfl, _, rfl, hview, fun a => ?_⟩
      refine (hqueues a).trans ?_
      by_cases ha : a = q
      · rw [if_pos ha, if_pos ha]
        simp [setQueue_queues, JrtQueue.sent]
        rfl
      · rw [if_neg ha, if_neg ha]
        simp [setQueue_queues, ha]
  | false => exact Or.inr ⟨rfl, _, rfl, rfl, rfl⟩

end Wakes

/-! ## Items -/

def Action.createsQueue (q : Ptr) : Action → Bool
  | .call (.queueCreateStatic a _ _ _) => a == q
  | _ => false

/-- The first `n` bytes behind an item pointer. -/
def itemBytes (source : Nat → UInt8) (n : Nat) : List UInt8 := (List.range n).map source

/-- The item a step had accepted by the queue. -/
def Transition.acceptedItem (q : Ptr) (x : Transition) : Option (List UInt8) :=
  match x.action with
  | .proceed source =>
      match x.pre.pc x.pre.current with
      | .entered (.queueSend a _ _) _ =>
          if a = q ∧ x.observation.result = some 1 then
            some (itemBytes source (x.pre.kernel.queues q).itemSize.toNat)
          else none
      | _ => none
  | .isr (.queueSendFromIsr a source) =>
      if a = q ∧ x.observation.result = some 1 then
        some (itemBytes source (x.pre.kernel.queues q).itemSize.toNat)
      else none
  | _ => none

/-- The item a step received from the queue. -/
def Transition.receivedItem (q : Ptr) (x : Transition) : Option (List UInt8) :=
  match x.action with
  | .proceed _ =>
      match x.pre.pc x.pre.current with
      | .entered (.queueReceive a _ _) _ =>
          if a = q ∧ x.observation.result = some 1 then
            match x.observation.output with
            | some (.item bytes) => some bytes
            | _ => none
          else none
      | _ => none
  | _ => none

/-! ## Every way to treat a queue -/

/-- A step of the system as the queue `q` sees it, with the item it stored and
the item it took. A task blocks only where its call was not accepted, and a
store or a take hands at most one wake-up to the other side. -/
inductive QueueStep (q : Ptr) (c c' : Cfg) : Option (List UInt8) → Option (List UInt8) → Prop where
  | kept : c'.kernel.queues q = c.kernel.queues q → Spares (sendPlace q) c c' →
      Spares (receivePlace q) c c' → QueueStep q c c' none none
  | senderBlocks : c'.kernel.queues q = c.kernel.queues q →
      c'.grants (sendPlace q) = c.grants (sendPlace q) → Spares (receivePlace q) c c' →
      queueSendAccepts (c.kernel.queues q) false = false → QueueStep q c c' none none
  | receiverBlocks : c'.kernel.queues q = c.kernel.queues q → Spares (sendPlace q) c c' →
      c'.grants (receivePlace q) = c.grants (receivePlace q) →
      queueReceiveAccepts (c.kernel.queues q) false = false → QueueStep q c c' none none
  | stored {reserved woken : Bool} {source : Nat → UInt8} :
      queueSendAccepts (c.kernel.queues q) reserved = true →
      c'.kernel.queues q = ((c.kernel.queues q).sent reserved source).receiverWoken woken →
      Takes (sendPlace q) c c' reserved → Gives (receivePlace q) c c' woken →
      QueueStep q c c' (some (itemBytes source (c.kernel.queues q).itemSize.toNat)) none
  | taken {reserved woken : Bool} :
      queueReceiveAccepts (c.kernel.queues q) reserved = true →
      c'.kernel.queues q = ((c.kernel.queues q).received reserved).senderWoken woken →
      Takes (receivePlace q) c c' reserved → Gives (sendPlace q) c c' woken →
      QueueStep q c c' none (some (c.kernel.queues q).front)

section Classify

variable {c c' : Cfg} {a : Action} {o : Observation} {q : Ptr}

/-- A call in progress on the queue. -/
def WaitCall.onQueue (q : Ptr) : WaitCall → Bool
  | .queueSend a _ _ | .queueReceive a _ _ => a == q
  | _ => false

/-- Calls and handlers that have nothing to do with a queue grant nothing
at its places. -/
theorem wakes_not_queue {p : WaitPlace} (hkind : p.kind = .queueSend ∨ p.kind = .queueReceive)
    {made : Call} {v : WaitView} (hon : v.On p.object p.kind) : ¬made.wakes v 1 := by
  have hv : v.waitKind = .queueSend ∨ v.waitKind = .queueReceive := by
    rw [hon.2.2]
    exact hkind
  cases made with
  | semaphoreGive | mutexUnlock | eventGroupSetBits | timerSetCallback =>
      rintro ⟨-, hk, -⟩
      rcases hv with hv | hv <;> rw [hv] at hk <;> cases hk
  | taskNotify =>
      rintro ⟨hk, -⟩
      rcases hv with hv | hv <;> rw [hv] at hk <;> cases hk
  | _ => exact id

/-- The critical section of a call on another queue, or of no queue call,
grants nothing at the places of this one. -/
theorem waitCall_wakes_not_queue {w : WaitCall} (hw : w.onQueue q = false) {p : WaitPlace}
    (hobject : p.object = .ptr q) {v : WaitView} (hon : v.On p.object p.kind) : ¬w.wakes v 1 := by
  cases w with
  | queueSend a | queueReceive a =>
      rintro ⟨hobj, -, -⟩
      rw [hon.2.1, hobject] at hobj
      cases hobj
      simp [WaitCall.onQueue] at hw
  | _ => exact id

theorem onQueue_of_waitsAt {w : WaitCall} {i : Nat} {p : WaitPlace}
    (hp : p = sendPlace q ∨ p = receivePlace q) (hat : w.waitsAt i p = true) :
    w.onQueue q = true := by
  rcases hp with rfl | rfl
  · obtain ⟨timeout, deadline, rfl⟩ := waitsAt_sendPlace_iff.mp hat
    simp [WaitCall.onQueue]
  · obtain ⟨timeout, deadline, rfl⟩ := waitsAt_receivePlace_iff.mp hat
    simp [WaitCall.onQueue]

/-- Segments that are not critical sections of calls on the queue, nor what
comes behind their yields. -/
theorem segment_spares_queue (h : Sched c) (hpending : c.pending = false) {s : Segment}
    (hseg : ThreadSegment c a s)
    (hentered : ∀ w r, c.pc c.current = .entered w r → w.onQueue q = false)
    (hresumed : ∀ w, c.pc c.current = .resumed w → w.onQueue q = false)
    {p : WaitPlace} (hp : p = sendPlace q ∨ p = receivePlace q) : Spares p c (c.after s) := by
  have hobject : p.object = .ptr q := by rcases hp with rfl | rfl <;> rfl
  have hkind : p.kind = .queueSend ∨ p.kind = .queueReceive := by
    rcases hp with rfl | rfl
    · exact Or.inl rfl
    · exact Or.inr rfl
  have hat : ∀ {w : WaitCall}, w.onQueue q = false → w.waitsAt c.current p = false := fun hw => by
    rw [← Bool.not_eq_true]
    intro hwaits
    rw [onQueue_of_waitsAt hp hwaits] at hw
    cases hw
  refine .segment h hpending hseg ?_ (fun w r hpc => hat (hentered w r hpc))
    fun w hpc => hat (hresumed w hpc)
  intro v hon
  cases a with
  | call made => exact wakes_not_queue hkind hon
  | proceed source =>
      rw [Action.wakes]
      cases hpc : c.pc c.current with
      | entered w r => exact waitCall_wakes_not_queue (hentered w r hpc) hobject hon
      | _ => exact id
  | _ => exact id

/-- Such segments leave the queue's record alone, unless they create it. -/
theorem segment_queue_eq {s : Segment} (hseg : ThreadSegment c a s)
    (hcreate : a.createsQueue q = false)
    (hentered : ∀ w r, c.pc c.current = .entered w r → w.onQueue q = false) :
    s.kernel.queues q = c.kernel.queues q := by
  by_cases hkind : a.objectKind c = .queue
  · cases hseg with
    | @call made s _ _ hs =>
        cases made with
        | queueCreateStatic b storage capacity itemSize =>
            obtain rfl := Except.ok.inj hs
            have hne : q ≠ b := fun heq => by simp [Action.createsQueue, heq] at hcreate
            show (jrtQueueCreateStatic c.kernel b storage capacity itemSize).queues q = _
            rw [jrtQueueCreateStatic, setQueue_queues, if_neg hne]
        | _ => cases hkind
    | @entered w reserved source s hpc hs =>
        have hw := hentered w reserved hpc
        rw [Action.objectKind, hpc] at hkind
        cases w with
        | queueSend b timeout deadline =>
            have hne : q ≠ b := fun heq => by simp [WaitCall.onQueue, heq] at hw
            obtain rfl := Except.ok.inj hs
            rw [ofFlow_kernel]
            rcases jrtQueueSend_cases c.kernel b source timeout deadline reserved with
              ⟨-, k', heq, -, hqueues⟩ | ⟨-, heq | heq⟩
            · rw [heq]
              exact (hqueues q).trans (if_neg hne)
            · rw [heq]
            · rw [heq]
              rfl
        | queueReceive b timeout deadline =>
            have hne : q ≠ b := fun heq => by simp [WaitCall.onQueue, heq] at hw
            obtain rfl := Except.ok.inj hs
            simp only [ofFlow_kernel]
            rcases jrtQueueReceive_cases c.kernel b timeout deadline reserved with
              ⟨-, k', heq, -, hqueues⟩ | ⟨-, heq | heq⟩
            · rw [heq]
              exact (hqueues q).trans (if_neg hne)
            · rw [heq]
            · rw [heq]
              rfl
        | _ => cases hkind
    | yielding => rfl
    | @resumed w _ hpc =>
        rw [Action.objectKind, hpc] at hkind
        cases w with
        | queueSend =>
            simp only [proceedResumed]
            split <;> rfl
        | queueReceive =>
            simp only [proceedResumed]
            split <;> rfl
        | _ => cases hkind
    | requestSwitch => rfl
    | inTime => rfl
    | delayed hpc =>
        rw [Action.objectKind, hpc] at hkind
        cases hkind
  · rw [hseg.heap.queues hkind]

/-- Such segments neither store nor take an item. -/
theorem segment_no_item {s : Segment} (hseg : ThreadSegment c a s)
    (hentered : ∀ w r, c.pc c.current = .entered w r → w.onQueue q = false) (c' : Cfg)
    (o : Observation) :
    Transition.acceptedItem q ⟨c, a, o, c'⟩ = none
      ∧ Transition.receivedItem q ⟨c, a, o, c'⟩ = none := by
  cases hseg with
  | call => exact ⟨rfl, rfl⟩
  | @entered w reserved _ _ hpc _ =>
      have hw := hentered w reserved hpc
      simp only [Transition.acceptedItem, Transition.receivedItem, hpc]
      cases w with
      | queueSend b | queueReceive b =>
          have hb : b ≠ q := fun heq => by simp [WaitCall.onQueue, heq] at hw
          simp [hb]
      | _ => exact ⟨rfl, rfl⟩
  | yielding hpc | resumed hpc | requestSwitch hpc | inTime hpc | delayed hpc =>
      simp [Transition.acceptedItem, Transition.receivedItem, hpc]

/-- The running task leaves a call on the queue with a failure: it held no
grant and holds none. -/
theorem returns_spares {s : Segment} {p : WaitPlace} (hpc : s.pc = .user)
    (hk : s.kernel = c.kernel) (hno : c.granted p c.current = false) :
    Spares p c (c.after s) := by
  refine .of_segment_view_eq (by rw [hk]) (by rw [hk]) ?_
  rw [hno]
  exact granted_user (by rw [Sched.after_pc_current, hpc])

theorem send_queueStep (h : Sched c) (hpending : c.pending = false) {source : Nat → UInt8}
    {timeout : UInt32} {deadline : TaskWaitDeadline} {reserved : Bool} {s : Segment}
    (hpc : c.pc c.current = .entered (.queueSend q timeout deadline) reserved)
    (hs : proceedEntered c.kernel source reserved (.queueSend q timeout deadline) = .ok s)
    (hcapacity : (c.kernel.queues q).capacity ≠ 0) (hsize : (c.kernel.queues q).itemSize ≠ 0) :
    QueueStep q c (c.after s)
      (if s.result = some 1 then
        some (itemBytes source (c.kernel.queues q).itemSize.toNat) else none) none := by
  have hseg : ThreadSegment c (.proceed source) s := .entered hpc hs
  have hsend : (WaitCall.queueSend q timeout deadline).waitsAt c.current (sendPlace q) = true :=
    waitsAt_sendPlace_iff.mpr ⟨_, _, rfl⟩
  have hreceive : (WaitCall.queueSend q timeout deadline).waitsAt c.current (receivePlace q)
      = false := by
    simp [WaitCall.waitsAt, WaitCall.kind, receivePlace]
  have hwakes : ∀ v : WaitView, v.On (sendPlace q).object (sendPlace q).kind →
      ¬(Action.proceed source).wakes c v 1 := by
    intro v hon
    rw [Action.wakes, hpc]
    rintro ⟨-, hkind, -⟩
    rw [hon.2.2] at hkind
    cases hkind
  obtain rfl := Except.ok.inj hs
  rcases jrtQueueSend_cases c.kernel q source timeout deadline reserved with
    ⟨haccepts, k', heq, hview, hqueues⟩ | ⟨hfull, heq⟩
  · rw [heq] at hseg ⊢
    have hqueue := hqueues q
    rw [if_pos rfl] at hqueue
    exact .stored haccepts hqueue (.of_return h hpending hseg hpc hsend rfl hwakes)
      (.of_return h hseg.frame.1 hpc hreceive rfl hview)
  · -- A sender with a reservation is always accepted.
    have hfree : reserved = false := by
      cases reserved with
      | false => rfl
      | true => simp [queueSendAccepts, hcapacity, hsize] at hfull
    subst hfree
    have hnone : ∀ p, c.granted p c.current = false := fun p => by
      rw [granted_entered hpc, Bool.and_false]
    rcases heq with heq | heq
    · rw [heq] at hseg ⊢
      exact .kept rfl (returns_spares rfl rfl (hnone _)) (returns_spares rfl rfl (hnone _))
    · have hview := taskWaitBeginUntil_view c.kernel c.current (.ptr q) .queueSend deadline
      rw [heq, h.currentTask] at hseg ⊢
      exact .senderBlocks rfl (grants_of_block rfl hpc rfl hview rfl)
        (.of_block rfl hpc rfl hview ⟨rfl, rfl, rfl⟩ hreceive) hfull

theorem receive_queueStep (h : Sched c) (hpending : c.pending = false) {source : Nat → UInt8}
    {timeout : UInt32} {deadline : TaskWaitDeadline} {reserved : Bool} {s : Segment}
    (hpc : c.pc c.current = .entered (.queueReceive q timeout deadline) reserved)
    (hs : proceedEntered c.kernel source reserved (.queueReceive q timeout deadline) = .ok s)
    (hsize : (c.kernel.queues q).itemSize ≠ 0) :
    QueueStep q c (c.after s) none
      (if s.result = some 1 then
        match s.output with
        | some (.item bytes) => some bytes
        | _ => none
      else none) := by
  have hseg : ThreadSegment c (.proceed source) s := .entered hpc hs
  have hreceive : (WaitCall.queueReceive q timeout deadline).waitsAt c.current (receivePlace q)
      = true := waitsAt_receivePlace_iff.mpr ⟨_, _, rfl⟩
  have hsend : (WaitCall.queueReceive q timeout deadline).waitsAt c.current (sendPlace q)
      = false := by
    simp [WaitCall.waitsAt, WaitCall.kind, sendPlace]
  have hwakes : ∀ v : WaitView, v.On (receivePlace q).object (receivePlace q).kind →
      ¬(Action.proceed source).wakes c v 1 := by
    intro v hon
    rw [Action.wakes, hpc]
    rintro ⟨-, hkind, -⟩
    rw [hon.2.2] at hkind
    cases hkind
  obtain rfl := Except.ok.inj hs
  rcases jrtQueueReceive_cases c.kernel q timeout deadline reserved with
    ⟨haccepts, k', heq, hview, hqueues⟩ | ⟨hempty, heq⟩
  · rw [heq] at hseg ⊢
    have hqueue := hqueues q
    rw [if_pos rfl] at hqueue
    exact .taken haccepts hqueue (.of_return h hpending hseg hpc hreceive rfl hwakes)
      (.of_return h hseg.frame.1 hpc hsend rfl hview)
  · -- A receiver with a reservation is always served.
    have hfree : reserved = false := by
      cases reserved with
      | false => rfl
      | true => simp [queueReceiveAccepts, hsize] at hempty
    subst hfree
    have hnone : ∀ p, c.granted p c.current = false := fun p => by
      rw [granted_entered hpc, Bool.and_false]
    rcases heq with heq | heq
    · rw [heq] at hseg ⊢
      exact .kept rfl (returns_spares rfl rfl (hnone _)) (returns_spares rfl rfl (hnone _))
    · have hview := taskWaitBeginUntil_view c.kernel c.current (.ptr q) .queueReceive deadline
      rw [heq, h.currentTask] at hseg ⊢
      exact .receiverBlocks rfl (.of_block rfl hpc rfl hview ⟨rfl, rfl, rfl⟩ hsend)
        (grants_of_block rfl hpc rfl hview rfl) hempty

/-- Behind the yield of a call on the queue: the call gives up, or goes back
to its critical section with its reservation. -/
theorem resumed_granted (h : Sched c) (hpending : c.pending = false) {w : WaitCall}
    (hpc : c.pc c.current = .resumed w) (hw : w.onQueue q = true) (p : WaitPlace) :
    (c.after (proceedResumed c.kernel w)).granted p c.current = c.granted p c.current
      ∧ ((c.kernel.view c.current).waitResult = 1 →
        (proceedResumed c.kernel w).pc = .entered w true) := by
  have hrun := h.current_running hpending (by simp [hpc])
  have hwaiting := h.waiting c.current w (Or.inr hpc)
  have hresult : (c.kernel.tasks c.kernel.currentTask).waitResult = 0
      ∨ (c.kernel.tasks c.kernel.currentTask).waitResult = 1 := by
    rw [h.currentTask]
    exact hwaiting.result (by simp [hrun])
  rw [Bool.eq_iff_iff, granted_within (Or.inr hpc)]
  rcases hresult with hzero | hone
  · have huser : (proceedResumed c.kernel w).pc = .user := by
      cases w with
      | queueSend | queueReceive => simp only [proceedResumed, if_pos hzero, ret_pc]
      | _ => cases hw
    have hno : ¬(c.kernel.view c.current).waitResult = 1 := by
      rw [h.currentTask] at hzero
      rw [view_waitResult, hzero]
      decide
    rw [granted_user (by rw [Sched.after_pc_current, huser])]
    exact ⟨iff_of_false (by simp) fun hand => hno hand.2.2, fun hone => absurd hone hno⟩
  · have hentered : (proceedResumed c.kernel w).pc = .entered w true := by
      cases w with
      | queueSend | queueReceive => simp [proceedResumed, hone]
      | _ => cases hw
    rw [granted_entered (by rw [Sched.after_pc_current, hentered]), Bool.and_true]
    rw [h.currentTask] at hone
    exact ⟨⟨fun hat => ⟨hat, by simp [hrun], hone⟩, fun hand => hand.1⟩, fun _ => hentered⟩

theorem resumed_queueStep (h : Sched c) (hpending : c.pending = false) {w : WaitCall}
    (hpc : c.pc c.current = .resumed w) (hw : w.onQueue q = true) :
    QueueStep q c (c.after (proceedResumed c.kernel w)) none none := by
  have hkernel : (proceedResumed c.kernel w).kernel = c.kernel := by
    cases w with
    | queueSend =>
        simp only [proceedResumed]
        split <;> rfl
    | queueReceive =>
        simp only [proceedResumed]
        split <;> rfl
    | _ => cases hw
  have hspares : ∀ p, Spares p c (c.after (proceedResumed c.kernel w)) := fun p =>
    .of_segment_view_eq (by rw [hkernel]) (by rw [hkernel])
      (resumed_granted h hpending hpc hw p).1
  refine .kept ?_ (hspares _) (hspares _)
  show (proceedResumed c.kernel w).kernel.queues q = _
  rw [hkernel]

/-- A send from a handler: the item is stored and a receiver woken, or the
queue is full. -/
theorem sendFromIsr_queueStep (h : Sched c) (source : Nat → UInt8) (c' : Cfg)
    (hk : c'.kernel = (jrtQueueSendFromIsr c.kernel q source true).2) (hpcs : c'.pc = c.pc) :
    QueueStep q c c'
      (if (jrtQueueSendFromIsr c.kernel q source true).1 = 1 then
        some (itemBytes source (c.kernel.queues q).itemSize.toNat) else none) none := by
  have hn : c'.kernel.taskCount = c.kernel.taskCount := by
    rw [hk]
    exact (isrCall_frame c.kernel (.queueSendFromIsr q source)).1
  rcases jrtQueueSendFromIsr_cases c.kernel q source with
    ⟨haccepts, k', heq, hview, hqueues⟩ | ⟨-, k', heq, hview, hqueues⟩
  · have hw : WakesOnly (wakesOn (.ptr q) .queueReceive) c.kernel c'.kernel := by
      rw [hk]
      exact isrCall_wakes c.kernel (.queueSendFromIsr q source)
    rw [heq] at hk ⊢
    change c'.kernel = k' at hk
    have hqueue := hqueues q
    rw [if_pos rfl, ← hk] at hqueue
    rw [← hk] at hview
    have hgives : Gives (receivePlace q) c c' (c.kernel.selected (receivePlace q)).isSome :=
      .of_wake h hn hview (fun i _ => congrFun hpcs i) fun i hsame =>
        granted_congr (congrFun hpcs i) (by rw [hsame]) (by rw [hsame])
    have hspares : Spares (sendPlace q) c c' := by
      refine .of_wakes h hw hpcs hn fun v hon hwake => ?_
      have hkind := hon.2.2
      rw [hwake.2.1] at hkind
      cases hkind
    exact .stored haccepts hqueue (.free hspares) hgives
  · rw [heq] at hk ⊢
    change c'.kernel = k' at hk
    rw [← hk] at hview hqueues
    have hspares : ∀ p, Spares p c c' := fun p => .of_view_eq h hview hpcs hn
    exact .kept (congrFun hqueues q) (hspares _) (hspares _)

theorem isr_queueStep (h : Sched c) (call : IsrCall) (c' : Cfg)
    (hk : c'.kernel = (isrCall c.kernel call).1) (hpcs : c'.pc = c.pc) :
    QueueStep q c c'
      (match call with
        | .queueSendFromIsr a source =>
            if a = q ∧ (isrCall c.kernel call).2.1 = 1 then
              some (itemBytes source (c.kernel.queues q).itemSize.toNat)
            else none
        | _ => none) none := by
  have hother : (∀ v, v.waitObject = .ptr q →
      v.waitKind = .queueSend ∨ v.waitKind = .queueReceive → ¬call.wakes v 1) →
      c'.kernel.queues q = c.kernel.queues q → QueueStep q c c' none none := by
    intro hspare hqueue
    have hn : c'.kernel.taskCount = c.kernel.taskCount := by
      rw [hk]
      exact (isrCall_frame c.kernel call).1
    have hw : WakesOnly call.wakes c.kernel c'.kernel := by
      rw [hk]
      exact isrCall_wakes c.kernel call
    exact .kept hqueue
      (.of_wakes h hw hpcs hn fun v hon => hspare v hon.2.1 (Or.inl hon.2.2))
      (.of_wakes h hw hpcs hn fun v hon => hspare v hon.2.1 (Or.inr hon.2.2))
  have hheap := isrCall_heap c.kernel call
  rw [← hk] at hheap
  cases call with
  | queueSendFromIsr b source =>
      by_cases hb : b = q
      · subst hb
        simp only [true_and]
        exact sendFromIsr_queueStep h source c' hk hpcs
      · simp only [hb, false_and, if_false]
        refine hother ?_ ?_
        · rintro v hobject - ⟨hobj, -⟩
          rw [hobject] at hobj
          cases hobj
          exact hb rfl
        · rw [hk]
          show (jrtQueueSendFromIsr c.kernel b source true).2.queues q = _
          rcases jrtQueueSendFromIsr_cases c.kernel b source with
            ⟨-, k', heq, -, hqueues⟩ | ⟨-, k', heq, -, hqueues⟩
          · rw [heq]
            exact (hqueues q).trans (if_neg (Ne.symm hb))
          · rw [heq]
            exact congrFun hqueues q
  | semaphoreGiveFromIsr s =>
      refine hother ?_ (congrFun (hheap.queues (by simp [IsrCall.objectKind])) q)
      rintro v - hkind ⟨-, hk, -⟩
      rcases hkind with hkind | hkind <;> rw [hkind] at hk <;> cases hk
  | taskNotifyFromIsr task value =>
      refine hother ?_ (congrFun (hheap.queues (by simp [IsrCall.objectKind])) q)
      rintro v - hkind ⟨hk, -⟩
      rcases hkind with hkind | hkind <;> rw [hkind] at hk <;> cases hk
  | eventGroupSetBitsFromIsr g bits =>
      refine hother ?_ (congrFun (hheap.queues (by simp [IsrCall.objectKind])) q)
      rintro v - hkind ⟨-, hk, -⟩
      rcases hkind with hkind | hkind <;> rw [hkind] at hk <;> cases hk

/-- A segment of a task inside a call at the queue, or elsewhere. -/
theorem thread_queueStep (h : Sched c) (hpending : c.pending = false) {s : Segment}
    (hseg : ThreadSegment c a s) (hcreate : a.createsQueue q = false)
    (hcapacity : (c.kernel.queues q).capacity ≠ 0) (hsize : (c.kernel.queues q).itemSize ≠ 0) :
    QueueStep q c (c.after s)
      (Transition.acceptedItem q
        ⟨c, a, { result := s.result, output := s.output }, c.after s⟩)
      (Transition.receivedItem q
        ⟨c, a, { result := s.result, output := s.output }, c.after s⟩) := by
  by_cases hat : ∃ w r, w.onQueue q = true ∧ c.pc c.current = .entered w r
  · obtain ⟨w, r, hw, hpc⟩ := hat
    obtain ⟨source, rfl⟩ := hseg.proceeds (by simp [hpc])
    have hs := hseg.of_entered hpc
    cases w with
    | queueSend b timeout deadline =>
        obtain rfl : b = q := by simpa [WaitCall.onQueue] using hw
        have hstep := send_queueStep h hpending hpc hs hcapacity hsize
        simpa only [Transition.acceptedItem, Transition.receivedItem, hpc, true_and] using hstep
    | queueReceive b timeout deadline =>
        obtain rfl : b = q := by simpa [WaitCall.onQueue] using hw
        have hstep := receive_queueStep h hpending hpc hs hsize
        simpa only [Transition.acceptedItem, Transition.receivedItem, hpc, true_and] using hstep
    | _ => cases hw
  by_cases hbehind : ∃ w, w.onQueue q = true ∧ c.pc c.current = .resumed w
  · obtain ⟨w, hw, hpc⟩ := hbehind
    obtain ⟨source, rfl⟩ := hseg.proceeds (by simp [hpc])
    obtain rfl := hseg.of_resumed hpc
    have hstep := resumed_queueStep h hpending hpc hw
    simpa only [Transition.acceptedItem, Transition.receivedItem, hpc] using hstep
  have hentered : ∀ w r, c.pc c.current = .entered w r → w.onQueue q = false := fun w r hpc => by
    rw [← Bool.not_eq_true]
    exact fun hw => hat ⟨w, r, hw, hpc⟩
  have hresumed : ∀ w, c.pc c.current = .resumed w → w.onQueue q = false := fun w hpc => by
    rw [← Bool.not_eq_true]
    exact fun hw => hbehind ⟨w, hw, hpc⟩
  have hkept : QueueStep q c (c.after s) none none :=
    .kept (segment_queue_eq hseg hcreate hentered)
      (segment_spares_queue h hpending hseg hentered hresumed (Or.inl rfl))
      (segment_spares_queue h hpending hseg hentered hresumed (Or.inr rfl))
  obtain ⟨haccepted, hreceived⟩ := segment_no_item hseg hentered (c.after s) _
  rw [haccepted, hreceived]
  exact hkept

/-- Every step treats the queue in one of the ways of `QueueStep`. -/
theorem queueStep_of_step (h : Sched c) (hstep : StepCases c a c' o)
    (hcreate : a.createsQueue q = false) (hcapacity : (c.kernel.queues q).capacity ≠ 0)
    (hsize : (c.kernel.queues q).itemSize ≠ 0) :
    QueueStep q c c' (Transition.acceptedItem q ⟨c, a, o, c'⟩)
      (Transition.receivedItem q ⟨c, a, o, c'⟩) := by
  cases hstep with
  | start _ hk =>
      obtain rfl := jrtKernelStart_spec hk
      exact .kept rfl (.of_view_eq h rfl rfl rfl) (.of_view_eq h rfl rfl rfl)
  | thread _ hpending hseg => exact thread_queueStep h hpending hseg hcreate hcapacity hsize
  | tick _ hk =>
      have hw := tickTasks_wakes hk
      have hn := (tickTasks_frame hk).1
      have hspare : ∀ {p : WaitPlace}, p.kind = .queueSend ∨ p.kind = .queueReceive →
          ∀ v : WaitView, v.On p.object p.kind → ¬tickWakes v 1 := by
        rintro p hkind v hon (⟨hzero, -⟩ | ⟨-, hk, -⟩)
        · cases hzero
        · rw [hon.2.2] at hk
          rcases hkind with hkind | hkind <;> rw [hkind] at hk <;> cases hk
      exact .kept (congrFun ((tickTasks_heap hk).queues (by simp)) q)
        (.of_wakes h hw rfl hn (hspare (Or.inl rfl))) (.of_wakes h hw rfl hn (hspare (Or.inr rfl)))
  | @isr call _ =>
      have hstep := isr_queueStep (q := q) h call
        { c with
          kernel := (isrCall c.kernel call).1
          pending := c.pending || (isrCall c.kernel call).2.2 } rfl rfl
      cases call <;>
        simpa only [Transition.acceptedItem, Transition.receivedItem, Option.some.injEq] using hstep
  | pendsv _ _ hk =>
      exact .kept (congrFun ((pendsvSwitch_heap hk .none).queues (by simp)) q) (.pendsv h hk)
        (.pendsv h hk)
  | store => exact .kept rfl (.of_view_eq h rfl rfl rfl) (.of_view_eq h rfl rfl rfl)
  | cycles => exact .kept rfl (.of_view_eq h rfl rfl rfl) (.of_view_eq h rfl rfl rfl)

end Classify

end JustRT
