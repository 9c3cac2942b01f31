import JustRT.QueueRun
import JustRT.Lib.Ring

/-!
# Queues are bounded FIFOs

The record of a queue holds its items as a ring in the storage: a send
stores behind the newest, a receive takes the oldest. With the balance of
the reservations no send finds the ring full and no receive finds it
empty, so over every run the items received are the first of the items
accepted, and the ring holds the rest.
-/

namespace JustRT

open Reservation

/-! ## The copy loops -/

/-- The copy loop of a send writes the bytes of its slot and no others. -/
theorem copyIn_apply (storage source : Nat → UInt8) (offset size o : Nat) :
    copyIn storage offset source size o
      = if offset ≤ o ∧ o < offset + size then source (o - offset) else storage o := by
  induction size with
  | zero => rw [if_neg (by omega)]; rfl
  | succ size ih =>
      have hloop : copyIn storage offset source (size + 1) o
          = if o = offset + size then source size else copyIn storage offset source size o := by
        simp [copyIn, List.range_succ]
      rw [hloop, ih]
      by_cases hlast : o = offset + size
      · subst hlast
        rw [if_pos rfl, if_pos (by omega), Nat.add_sub_cancel_left]
      · rw [if_neg hlast]
        by_cases hin : offset ≤ o ∧ o < offset + size
        · rw [if_pos hin, if_pos (by omega)]
        · rw [if_neg hin, if_neg (by omega)]

def JrtQueue.slot (q : JrtQueue) (i : Nat) : List UInt8 :=
  copyOut q.storage (i * q.itemSize.toNat) q.itemSize.toNat

theorem slots_disjoint {size i j a b : Nat} (hij : i ≠ j) (ha : a < size) (hb : b < size) :
    i * size + a ≠ j * size + b := by
  rcases Nat.lt_or_gt_of_ne hij with hlt | hlt
  · have hstep : (i + 1) * size ≤ j * size := Nat.mul_le_mul_right size hlt
    rw [Nat.add_mul, Nat.one_mul] at hstep
    omega
  · have hstep : (j + 1) * size ≤ i * size := Nat.mul_le_mul_right size hlt
    rw [Nat.add_mul, Nat.one_mul] at hstep
    omega

/-- A copy into slot `i` is read back there, and the other slots keep their
items. -/
theorem copyOut_copyIn (storage source : Nat → UInt8) (size i j : Nat) :
    copyOut (copyIn storage (i * size) source size) (j * size) size
      = if j = i then itemBytes source size else copyOut storage (j * size) size := by
  by_cases hji : j = i
  · subst hji
    rw [if_pos rfl, copyOut, itemBytes]
    refine List.map_congr_left fun b hb => ?_
    have hlt : b < size := List.mem_range.mp hb
    rw [copyIn_apply, if_pos (by omega), Nat.add_sub_cancel_left]
  · rw [if_neg hji, copyOut, copyOut]
    refine List.map_congr_left fun b hb => ?_
    have hlt : b < size := List.mem_range.mp hb
    rw [copyIn_apply, if_neg]
    rintro ⟨hge, hle⟩
    have hin : j * size + b - i * size < size := by omega
    have hne := slots_disjoint hji hlt hin
    omega

/-! ## The ring of a queue -/

/-- The record holds the items, oldest first: they lie in the slots from `tail`
on, around the end of the storage, and `head` is the slot behind them. -/
structure JrtQueue.HoldsItems (q : JrtQueue) (items : List (List UInt8)) : Prop where
  tail_lt : q.tail.toNat < q.capacity.toNat
  length : items.length = q.count.toNat
  count_le : q.count.toNat ≤ q.capacity.toNat
  head : q.head.toNat = (q.tail.toNat + q.count.toNat) % q.capacity.toNat
  slots : Ring.Holds q.slot q.capacity.toNat q.tail.toNat items

namespace JrtQueue

variable {q : JrtQueue} {items : List (List UInt8)}

theorem offset_toNat {i : UInt32} (hbytes : q.capacity.toNat * q.itemSize.toNat < 2 ^ 32)
    (hi : i.toNat < q.capacity.toNat) :
    (i * q.itemSize).toNat = i.toNat * q.itemSize.toNat := by
  rw [UInt32.toNat_mul]
  have hle : i.toNat * q.itemSize.toNat ≤ q.capacity.toNat * q.itemSize.toNat :=
    Nat.mul_le_mul_right _ hi.le
  exact Nat.mod_eq_of_lt (by omega)

theorem next_toNat {i : UInt32} (hi : i.toNat < q.capacity.toNat) :
    ((i + 1) % q.capacity).toNat = (i.toNat + 1) % q.capacity.toNat := by
  rw [UInt32.toNat_mod, toNat_succ hi]

namespace HoldsItems

theorem head_lt (h : q.HoldsItems items) : q.head.toNat < q.capacity.toNat := by
  rw [h.head]
  exact Nat.mod_lt _ (Nat.lt_of_le_of_lt (Nat.zero_le _) h.tail_lt)

theorem push (h : q.HoldsItems items) (source : Nat → UInt8)
    (hroom : q.count.toNat < q.capacity.toNat)
    (hbytes : q.capacity.toNat * q.itemSize.toNat < 2 ^ 32) :
    (q.push source).HoldsItems (items ++ [itemBytes source q.itemSize.toNat]) := by
  have hcount : (q.push source).count.toNat = q.count.toNat + 1 := toNat_succ hroom
  have hhead : (q.push source).head.toNat = (q.head.toNat + 1) % q.capacity.toNat :=
    next_toNat h.head_lt
  have hslot : ∀ j, (q.push source).slot j
      = if j = q.head.toNat then itemBytes source q.itemSize.toNat else q.slot j := fun j => by
    show copyOut (copyIn q.storage (q.head * q.itemSize).toNat source q.itemSize.toNat) _ _ = _
    rw [offset_toNat hbytes h.head_lt]
    exact copyOut_copyIn _ _ _ _ _
  have hnewest : (q.tail.toNat + items.length) % q.capacity.toNat = q.head.toNat := by
    rw [h.length, h.head]
  refine ⟨h.tail_lt, ?_, by rw [hcount]; exact hroom, ?_, ?_⟩
  · rw [List.length_append, h.length, hcount]
    rfl
  · rw [hhead, hcount]
    exact Ring.head_push h.head
  · refine h.slots.push (by rw [h.length]; exact hroom) (fun j _ hj => ?_) ?_
    · rw [hnewest] at hj
      rw [hslot, if_neg hj]
    · rw [hnewest, hslot, if_pos rfl]

theorem pop (h : q.HoldsItems items) (hcount : 0 < q.count.toNat)
    (hbytes : q.capacity.toNat * q.itemSize.toNat < 2 ^ 32) :
    ∃ rest, items = q.front :: rest ∧ q.pop.HoldsItems rest := by
  cases items with
  | nil =>
      have hzero := h.length
      rw [List.length_nil] at hzero
      omega
  | cons item rest =>
      have hpred : q.pop.count.toNat = q.count.toNat - 1 := toNat_pred hcount
      have htail : q.pop.tail.toNat = (q.tail.toNat + 1) % q.capacity.toNat :=
        next_toNat h.tail_lt
      have hlength := h.length
      rw [List.length_cons] at hlength
      have hfront : q.front = item := by
        rw [← h.slots.front h.tail_lt, front, slot, offset_toNat hbytes h.tail_lt]
      have hpos : 0 < q.capacity.toNat := Nat.lt_of_le_of_lt (Nat.zero_le _) h.tail_lt
      have hle := h.count_le
      refine ⟨rest, by rw [hfront], ?_, by omega, ?_, ?_, ?_⟩
      · rw [htail]
        exact Nat.mod_lt _ hpos
      · show q.pop.count.toNat ≤ q.capacity.toNat
        omega
      · show q.head.toNat = (q.pop.tail.toNat + q.pop.count.toNat) % q.capacity.toNat
        rw [htail]
        refine Ring.head_pop (h.head.trans ?_)
        rw [hpred, Nat.sub_add_cancel hcount]
      · rw [htail]
        exact h.slots.pop

theorem sent (h : q.HoldsItems items) (reserved woken : Bool) (source : Nat → UInt8)
    (hroom : q.count.toNat < q.capacity.toNat)
    (hbytes : q.capacity.toNat * q.itemSize.toNat < 2 ^ 32) :
    ((q.sent reserved source).receiverWoken woken).HoldsItems
      (items ++ [itemBytes source q.itemSize.toNat]) := by
  obtain ⟨htail, hlength, hcount, hhead, hslots⟩ := h.push source hroom hbytes
  cases reserved <;> cases woken <;> exact ⟨htail, hlength, hcount, hhead, hslots⟩

theorem received (h : q.HoldsItems items) (reserved woken : Bool) (hcount : 0 < q.count.toNat)
    (hbytes : q.capacity.toNat * q.itemSize.toNat < 2 ^ 32) :
    ∃ rest, items = q.front :: rest
      ∧ ((q.received reserved).senderWoken woken).HoldsItems rest := by
  obtain ⟨rest, hitems, htail, hlength, hcount', hhead, hslots⟩ := h.pop hcount hbytes
  refine ⟨rest, hitems, ?_⟩
  cases reserved <;> cases woken <;> exact ⟨htail, hlength, hcount', hhead, hslots⟩

end HoldsItems

theorem sent_storage (h : q.HoldsItems items) (reserved woken : Bool) (source : Nat → UInt8)
    (hbytes : q.capacity.toNat * q.itemSize.toNat < 2 ^ 32) {o : Nat}
    (ho : q.capacity.toNat * q.itemSize.toNat ≤ o) :
    ((q.sent reserved source).receiverWoken woken).storage o = q.storage o := by
  have hstorage : ((q.sent reserved source).receiverWoken woken).storage
      = copyIn q.storage (q.head * q.itemSize).toNat source q.itemSize.toNat := by
    cases reserved <;> cases woken <;> rfl
  have hslot : (q.head.toNat + 1) * q.itemSize.toNat ≤ q.capacity.toNat * q.itemSize.toNat :=
    Nat.mul_le_mul_right _ h.head_lt
  rw [Nat.add_mul, Nat.one_mul] at hslot
  rw [hstorage, offset_toNat hbytes h.head_lt, copyIn_apply, if_neg (by omega)]

theorem received_storage (reserved woken : Bool) :
    ((q.received reserved).senderWoken woken).storage = q.storage := by
  cases reserved <;> cases woken <;> rfl

end JrtQueue

/-! ## Steps and runs -/

/-- The items the steps of a run had accepted, and those they received. -/
def acceptedItems (q : Ptr) (tr : List Transition) : List (List UInt8) :=
  tr.filterMap (Transition.acceptedItem q)

def receivedItems (q : Ptr) (tr : List Transition) : List (List UInt8) :=
  tr.filterMap (Transition.receivedItem q)

section Run

variable {q : Ptr} {c c' : Cfg} {a : Action} {o : Observation} {x y : Option (List UInt8)}
  {items : List (List UInt8)} {tr : List Transition}

/-- One step: what was held and is accepted is received or held. -/
theorem QueueStep.holds (hstep : QueueStep q c c' x y) (h : QueueBalance q c)
    (hitems : (c.kernel.queues q).HoldsItems items)
    (hbytes : (c.kernel.queues q).capacity.toNat * (c.kernel.queues q).itemSize.toNat < 2 ^ 32) :
    ∃ items', (c'.kernel.queues q).HoldsItems items' ∧ items ++ x.toList = y.toList ++ items'
      ∧ ∀ o, (c.kernel.queues q).capacity.toNat * (c.kernel.queues q).itemSize.toNat ≤ o →
        (c'.kernel.queues q).storage o = (c.kernel.queues q).storage o := by
  have hkept : c'.kernel.queues q = c.kernel.queues q →
      ∃ items', (c'.kernel.queues q).HoldsItems items' ∧ items ++ [] = [] ++ items'
        ∧ ∀ o, (c.kernel.queues q).capacity.toNat * (c.kernel.queues q).itemSize.toNat ≤ o →
          (c'.kernel.queues q).storage o = (c.kernel.queues q).storage o := fun hq => by
    rw [hq]
    exact ⟨items, hitems, List.append_nil items, fun _ _ => rfl⟩
  cases hstep with
  | kept hq => exact hkept hq
  | senderBlocks hq => exact hkept hq
  | receiverBlocks hq => exact hkept hq
  | stored haccepts hq htakes =>
      obtain ⟨hroom, -⟩ := room_of_accepts h.balanced (h.send_pos htakes) haccepts
      rw [hq]
      exact ⟨_, hitems.sent _ _ _ hroom hbytes, rfl, fun o ho =>
        JrtQueue.sent_storage hitems _ _ _ hbytes ho⟩
  | taken haccepts hq htakes =>
      obtain ⟨hitem, -⟩ := item_of_accepts h.balanced (h.receive_pos htakes) haccepts
      obtain ⟨rest, hfront, hrest⟩ := hitems.received _ _ hitem hbytes
      rw [hq]
      refine ⟨rest, hrest, ?_, fun o _ => by rw [JrtQueue.received_storage]⟩
      rw [hfront]
      exact List.append_nil _

/-- A step that does not return 1 has no item accepted and receives none. -/
theorem no_item_of_result_ne {x : Transition} (hone : x.observation.result ≠ some 1) :
    x.acceptedItem q = none ∧ x.receivedItem q = none := by
  obtain ⟨c, a, o, c'⟩ := x
  unfold Transition.acceptedItem Transition.receivedItem
  cases a with
  | proceed source =>
      cases c.pc c.current with
      | entered w r => cases w <;> simp [hone]
      | _ => exact ⟨rfl, rfl⟩
  | isr call => cases call <;> simp [hone]
  | _ => exact ⟨rfl, rfl⟩

/-- A receive that returns 1 stores the item it received. -/
theorem receivedItem_of_return {source : Nat → UInt8} {timeout : UInt32}
    {deadline : TaskWaitDeadline} {reserved : Bool}
    (hpc : c.pc c.current = .entered (.queueReceive q timeout deadline) reserved)
    (hstep : step c (.proceed source) = some (c', o)) (hone : o.result = some 1) :
    ∃ item, o.output = some (.item item)
      ∧ Transition.acceptedItem q ⟨c, .proceed source, o, c'⟩ = none
      ∧ Transition.receivedItem q ⟨c, .proceed source, o, c'⟩ = some item := by
  have hcases := step_cases hstep
  cases hcases with
  | thread _ _ hseg =>
      obtain rfl := Except.ok.inj (hseg.of_entered hpc)
      simp only [Transition.acceptedItem, Transition.receivedItem, hpc]
      rcases jrtQueueReceive_cases c.kernel q timeout deadline reserved with
        ⟨-, k', heq, -⟩ | ⟨-, heq | heq⟩
      · rw [heq]
        exact ⟨_, rfl, trivial, if_pos ⟨trivial, rfl⟩⟩
      · rw [heq] at hone
        cases hone
      · rw [heq] at hone
        cases hone

theorem QueueCreated.holds {img : Image} {storage : Nat → UInt8} {capacity itemSize : UInt32}
    (h : QueueCreated img q storage capacity itemSize c) (hcapacity : capacity ≠ 0) :
    (c.kernel.queues q).HoldsItems [] := by
  have hpos : 0 < capacity.toNat := by
    rw [Nat.pos_iff_ne_zero]
    exact fun hzero => hcapacity (UInt32.toNat_inj.mp hzero)
  rw [h.queue]
  simp only [jrtQueueCreateStatic, setQueue_queues, if_true]
  exact ⟨hpos, rfl, Nat.zero_le _, (Nat.zero_mod _).symm, Ring.holds_nil _ _ _⟩

theorem holds_run {c₁ : Cfg} (hs : Sched c₁) (hbalance : QueueBalance q c₁)
    (hitems : (c₁.kernel.queues q).HoldsItems [])
    (hbytes : (c₁.kernel.queues q).capacity.toNat * (c₁.kernel.queues q).itemSize.toNat < 2 ^ 32)
    (hrun : Run c₁ tr c) (honce : ∀ x ∈ tr, x.action.createsQueue q = false) :
    ∃ items, (c.kernel.queues q).HoldsItems items
      ∧ acceptedItems q tr = receivedItems q tr ++ items
      ∧ ∀ o, (c₁.kernel.queues q).capacity.toNat * (c₁.kernel.queues q).itemSize.toNat ≤ o →
        (c.kernel.queues q).storage o = (c₁.kernel.queues q).storage o := by
  induction hrun with
  | nil => exact ⟨[], hitems, rfl, fun _ _ => rfl⟩
  | @snoc tr c₂ c₃ a o hrun hstep ih =>
      have honce₂ : ∀ x ∈ tr, x.action.createsQueue q = false := fun x hx =>
        honce x (List.mem_append_left _ hx)
      have hcreate := honce ⟨c₂, a, o, c₃⟩ (List.mem_append_right _ List.mem_cons_self)
      obtain ⟨items, hheld, hlists, houtside⟩ := ih honce₂
      obtain ⟨hs₂, hbalance₂, hcapacity, hsize⟩ := hbalance.run hs hrun honce₂
      have hqueue := queueStep_of_step hs₂ (step_cases hstep) hcreate hbalance₂.capacity_ne
        hbalance₂.itemSize_ne
      obtain ⟨items', hheld', hmoved, houtside'⟩ :=
        hqueue.holds hbalance₂ hheld (by rw [hcapacity, hsize]; exact hbytes)
      refine ⟨items', hheld', ?_, fun o ho => ?_⟩
      · rw [acceptedItems] at hlists ⊢
        rw [receivedItems] at hlists ⊢
        rw [filterMap_snoc, filterMap_snoc, hlists, List.append_assoc, hmoved, List.append_assoc]
      · rw [hcapacity, hsize] at houtside'
        rw [houtside' o ho, houtside o ho]

end Run

/-- From its creation on a queue is a bounded FIFO: the items received are
the first of those accepted, and the ring in the storage holds the others
from `tail` on, in the order of their acceptance. A receive that returns 1
stores the oldest of them; a step that does not return 1 leaves the record
alone, and no step writes outside the storage. -/
theorem queue_refines_fifo (img : Image) (c₁ c : Cfg) (q : Ptr) (storage : Nat → UInt8)
    (capacity itemSize : UInt32) (tr : List Transition)
    (hcreated : QueueCreated img q storage capacity itemSize c₁) (hcapacity : capacity ≠ 0)
    (hsize : itemSize ≠ 0) (hbytes : capacity.toNat * itemSize.toNat < 2 ^ 32)
    (hrun : Run c₁ tr c) (honce : ∀ x ∈ tr, x.action.createsQueue q = false) :
    ∃ items, acceptedItems q tr = receivedItems q tr ++ items
      ∧ items.length = (c.kernel.queues q).count.toNat
      ∧ (c.kernel.queues q).count ≤ capacity
      ∧ (c.kernel.queues q).tail < capacity
      ∧ (c.kernel.queues q).head.toNat
          = ((c.kernel.queues q).tail.toNat + (c.kernel.queues q).count.toNat) % capacity.toNat
      ∧ (∀ i, (h : i < items.length) →
          copyOut (c.kernel.queues q).storage
            (((c.kernel.queues q).tail.toNat + i) % capacity.toNat * itemSize.toNat)
            itemSize.toNat = items[i])
      ∧ (∀ source timeout deadline reserved c' o,
          c.pc c.current = .entered (.queueReceive q timeout deadline) reserved →
          step c (.proceed source) = some (c', o) → o.result = some 1 →
            ∃ item, o.output = some (.item item) ∧ items.head? = some item)
      ∧ (∀ a c' o, step c a = some (c', o) → a.createsQueue q = false → o.result ≠ some 1 →
          c'.kernel.queues q = c.kernel.queues q)
      ∧ ∀ i, capacity.toNat * itemSize.toNat ≤ i →
          (c.kernel.queues q).storage i = storage i := by
  have hbalance₁ := hcreated.balance hcapacity hsize
  have hs₁ := hcreated.reachable.sched
  have hqueue₁ : (c₁.kernel.queues q).capacity = capacity
      ∧ (c₁.kernel.queues q).itemSize = itemSize
      ∧ (c₁.kernel.queues q).storage = storage := by
    rw [hcreated.queue]
    simp [jrtQueueCreateStatic, setQueue_queues]
  obtain ⟨hcap₁, hsize₁, hstorage₁⟩ := hqueue₁
  obtain ⟨hs, hbalance, hcap, hitemSize⟩ := hbalance₁.run hs₁ hrun honce
  rw [hcap₁] at hcap
  rw [hsize₁] at hitemSize
  obtain ⟨items, hheld, hlists, houtside⟩ := holds_run hs₁ hbalance₁ (hcreated.holds hcapacity)
    (by rw [hcap₁, hsize₁]; exact hbytes) hrun honce
  rw [hcap₁, hsize₁, hstorage₁] at houtside
  have hqueueStep : ∀ {a c' o}, step c a = some (c', o) → a.createsQueue q = false →
      QueueStep q c c' (Transition.acceptedItem q ⟨c, a, o, c'⟩)
        (Transition.receivedItem q ⟨c, a, o, c'⟩) := fun hstep hcreate =>
    queueStep_of_step hs (step_cases hstep) hcreate hbalance.capacity_ne hbalance.itemSize_ne
  have hhead := hheld.head
  have htail := hheld.tail_lt
  have hcount := hheld.count_le
  have hslots := hheld.slots
  rw [hcap] at hhead htail hcount hslots
  refine ⟨items, hlists, hheld.length, UInt32.le_iff_toNat_le.mpr hcount,
    UInt32.lt_iff_toNat_lt.mpr htail, hhead, ?_, ?_, ?_, houtside⟩
  · intro i hi
    have hslot := hslots i hi
    rwa [JrtQueue.slot, hitemSize] at hslot
  · intro source timeout deadline reserved c' o hpc hstep hone
    obtain ⟨item, houtput, haccepted, hreceived⟩ := receivedItem_of_return hpc hstep hone
    refine ⟨item, houtput, ?_⟩
    obtain ⟨rest, -, hmoved, -⟩ := (hqueueStep hstep rfl).holds hbalance hheld
      (by rw [hcap, hitemSize]; exact hbytes)
    rw [haccepted, hreceived] at hmoved
    have hfirst : items = item :: rest := (List.append_nil items).symm.trans hmoved
    rw [hfirst]
    rfl
  · intro a c' o hstep hcreate hone
    have hqueue := hqueueStep hstep hcreate
    obtain ⟨haccepted, hreceived⟩ : Transition.acceptedItem q ⟨c, a, o, c'⟩ = none
        ∧ Transition.receivedItem q ⟨c, a, o, c'⟩ = none := no_item_of_result_ne hone
    rw [haccepted, hreceived] at hqueue
    cases hqueue with
    | kept hq => exact hq
    | senderBlocks hq => exact hq
    | receiverBlocks hq => exact hq

theorem queue_refines_fifo_sample : ∃ c₁ tr c items,
    QueueCreated .sample 8 (fun _ => 0) 1 1 c₁ ∧ runActions c₁ queueActions = some (tr, c)
      ∧ acceptedItems 8 tr = receivedItems 8 tr ++ items ∧ items.length = 1 := by
  obtain ⟨c₁, tr, c, hcreated, hrun, honce, -, hcount⟩ := queueActions_run
  obtain ⟨items, hlists, hlength, -⟩ := queue_refines_fifo .sample c₁ c 8 (fun _ => 0) 1 1 tr
    hcreated (by decide) (by decide) (by decide) (runActions_run hrun) honce
  refine ⟨c₁, tr, c, items, hcreated, hrun, hlists, ?_⟩
  rw [hlength, hcount]
  rfl

end JustRT
