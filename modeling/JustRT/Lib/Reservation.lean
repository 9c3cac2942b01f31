import Mathlib.Data.Nat.Basic

/-!
# Buffers with reservations

A bounded buffer whose users wait where it is full or empty. Whoever makes
room for a waiting sender, or stores for a waiting receiver, wakes it and
reserves the slot or the item for it, so nobody else can take it before
the woken one runs. `Balanced` is the accounting that makes this work:
neither a slot nor an item is promised twice, and nobody waits while there
is one that is not promised.
-/

namespace Reservation

structure Counters where
  capacity : Nat
  count : Nat
  send : Nat
  receive : Nat
deriving Repr, DecidableEq

/-- The accounting; `senders` and `receivers` say that one of them waits. -/
structure Balanced (b : Counters) (senders receivers : Prop) : Prop where
  send_le : b.count + b.send ≤ b.capacity
  receive_le : b.receive ≤ b.count
  senders_full : senders → b.count + b.send = b.capacity
  receivers_empty : receivers → b.count = b.receive

namespace Counters

/-- Store an item, in a reserved slot or in a free one. -/
def stored (b : Counters) (reserved : Bool) : Counters :=
  { b with count := b.count + 1, send := if reserved then b.send - 1 else b.send }

/-- Take an item, a reserved one or a free one. -/
def taken (b : Counters) (reserved : Bool) : Counters :=
  { b with count := b.count - 1, receive := if reserved then b.receive - 1 else b.receive }

/-- Reserve an item if a receiver was woken. -/
def reserveReceive (b : Counters) (woken : Bool) : Counters :=
  { b with receive := if woken then b.receive + 1 else b.receive }

/-- Reserve a slot if a sender was woken. -/
def reserveSend (b : Counters) (woken : Bool) : Counters :=
  { b with send := if woken then b.send + 1 else b.send }

end Counters

namespace Balanced

variable {b : Counters} {senders receivers senders' receivers' : Prop} {reserved woken : Bool}

theorem mono (h : Balanced b senders receivers) (hs : senders' → senders)
    (hr : receivers' → receivers) : Balanced b senders' receivers' :=
  ⟨h.send_le, h.receive_le, fun s => h.senders_full (hs s), fun r => h.receivers_empty (hr r)⟩

/-- A sender begins to wait where there is no free slot. -/
theorem sender_waits (h : Balanced b senders receivers) (hfull : b.capacity ≤ b.count + b.send)
    (hr : receivers' → receivers) : Balanced b senders' receivers' := by
  have hsend := h.send_le
  exact ⟨h.send_le, h.receive_le, fun _ => by omega, fun r => h.receivers_empty (hr r)⟩

/-- A receiver begins to wait where there is no free item. -/
theorem receiver_waits (h : Balanced b senders receivers) (hempty : b.count ≤ b.receive)
    (hs : senders' → senders) : Balanced b senders' receivers' := by
  have hreceive := h.receive_le
  exact ⟨h.send_le, h.receive_le, fun s => h.senders_full (hs s), fun _ => by omega⟩

/-- An item is stored, and one receiver is woken if any waits. -/
theorem store (h : Balanced b senders receivers)
    (hreserved : reserved = true → 0 < b.send)
    (hfree : reserved = false → b.count + b.send < b.capacity)
    (hs : senders' → senders) (hr : receivers' → receivers)
    (hwoken : woken = true ↔ receivers) :
    Balanced ((b.stored reserved).reserveReceive woken) senders' receivers' := by
  obtain ⟨hsend, hreceive, hsenders, hreceivers⟩ := h
  have hwaits : woken = true → b.count = b.receive := fun hw => hreceivers (hwoken.mp hw)
  have hnone : woken = false → ¬receivers' := fun hw hr' => by
    rw [hwoken.mpr (hr hr')] at hw
    cases hw
  cases reserved with
  | true =>
      have hpos := hreserved rfl
      refine ⟨?_, ?_, fun s => ?_, fun r => ?_⟩ <;> cases woken <;>
        simp_all [Counters.stored, Counters.reserveReceive] <;> omega
  | false =>
      have hroom := hfree rfl
      refine ⟨?_, ?_, fun s => ?_, fun r => ?_⟩
      · simp [Counters.stored, Counters.reserveReceive]
        omega
      · cases woken <;> simp_all [Counters.stored, Counters.reserveReceive]
        omega
      · have := hsenders (hs s)
        omega
      · cases woken <;> simp_all [Counters.stored, Counters.reserveReceive]

/-- An item is taken, and one sender is woken if any waits. -/
theorem take (h : Balanced b senders receivers)
    (hreserved : reserved = true → 0 < b.receive)
    (hfree : reserved = false → b.receive < b.count)
    (hs : senders' → senders) (hr : receivers' → receivers)
    (hwoken : woken = true ↔ senders) :
    Balanced ((b.taken reserved).reserveSend woken) senders' receivers' := by
  obtain ⟨hsend, hreceive, hsenders, hreceivers⟩ := h
  have hwaits : woken = true → b.count + b.send = b.capacity := fun hw => hsenders (hwoken.mp hw)
  have hnone : woken = false → ¬senders' := fun hw hs' => by
    rw [hwoken.mpr (hs hs')] at hw
    cases hw
  have hpos : 0 < b.count := by
    cases reserved with
    | true => exact Nat.lt_of_lt_of_le (hreserved rfl) hreceive
    | false => exact Nat.lt_of_le_of_lt (Nat.zero_le _) (hfree rfl)
  refine ⟨?_, ?_, fun s => ?_, fun r => ?_⟩
  · cases woken <;> simp_all [Counters.taken, Counters.reserveSend] <;> omega
  · cases reserved <;> simp_all [Counters.taken, Counters.reserveSend] <;> omega
  · cases woken <;> simp_all [Counters.taken, Counters.reserveSend]
    omega
  · have hempty := hreceivers (hr r)
    cases reserved <;> simp_all [Counters.taken, Counters.reserveSend]

end Balanced

end Reservation
