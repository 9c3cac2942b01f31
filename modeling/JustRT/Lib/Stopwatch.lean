import Mathlib.Data.UInt

/-!
# Stopwatches, and clocks that wrap

A stopwatch holds the limit it was set to and counts the ticks since, in
`Nat`. A device keeps no such count: it stores what its clock showed when
the stopwatch was set, and compares differences of a clock that wraps.
`After.reached_iff` says that it sees the limit reached exactly if the
stopwatch does, whatever the phase of the clock.
-/

namespace Stopwatch

variable {α : Type*}

/-- What may happen to a stopwatch. -/
inductive Event (α : Type*) where
  | set (limit : α)
  | tick
  | other
deriving Repr, DecidableEq

/-- A stopwatch, if it was ever set: its limit, and the ticks since. -/
def step (shown : Option (α × Nat)) : Event α → Option (α × Nat)
  | .set limit => some (limit, 0)
  | .tick => shown.map fun r => (r.1, r.2 + 1)
  | .other => shown

/-- What a stopwatch shows behind a history. -/
def reading (es : List (Event α)) : Option (α × Nat) := es.foldl step none

@[simp] theorem reading_nil : reading ([] : List (Event α)) = none := rfl

@[simp] theorem reading_append (es : List (Event α)) (e : Event α) :
    reading (es ++ [e]) = step (reading es) e := by
  rw [reading, List.foldl_append]
  rfl

/-- A stopwatch has seen no more ticks than there were events. -/
theorem elapsed_le_length {es : List (Event α)} {limit : α} {elapsed : Nat}
    (h : reading es = some (limit, elapsed)) : elapsed ≤ es.length := by
  induction es using List.reverseRecOn generalizing limit elapsed with
  | nil => cases h
  | append_singleton es e ih =>
      rw [reading_append] at h
      rw [List.length_append, List.length_singleton]
      cases e with
      | set limit' =>
          obtain ⟨-, rfl⟩ := Prod.mk.inj (Option.some.inj h)
          exact Nat.zero_le _
      | tick =>
          obtain ⟨⟨limit', elapsed'⟩, hr, heq⟩ := Option.map_eq_some_iff.mp h
          obtain ⟨-, rfl⟩ := Prod.mk.inj heq
          exact Nat.succ_le_succ (ih hr)
      | other => exact Nat.le_succ_of_le (ih h)

/-! ## The clock of a device -/

/-- The clock shows `now`, `elapsed` ticks after it showed `start`. -/
def After (start now : UInt32) (elapsed : Nat) : Prop := now = start + UInt32.ofNat elapsed

namespace After

variable {start now limit : UInt32} {elapsed : Nat}

theorem refl (start : UInt32) : After start start 0 := (UInt32.add_zero start).symm

theorem tick (h : After start now elapsed) : After start (now + 1) (elapsed + 1) := by
  rw [After] at h ⊢
  rw [h, UInt32.ofNat_add, UInt32.add_assoc]
  rfl

theorem sub_eq (h : After start now elapsed) : now - start = UInt32.ofNat elapsed := by
  rw [After] at h
  rw [h, UInt32.add_comm, UInt32.add_sub_cancel]

/-- The difference of the clock readings has reached the limit exactly if
the ticks have. -/
theorem reached_iff (h : After start now elapsed) (hlt : elapsed < 2 ^ 32) :
    now - start ≥ start + limit - start ↔ limit.toNat ≤ elapsed := by
  have hlimit : start + limit - start = limit := by rw [UInt32.add_comm, UInt32.add_sub_cancel]
  rw [h.sub_eq, hlimit, ge_iff_le, UInt32.le_iff_toNat_le, UInt32.toNat_ofNat_of_lt' hlt]

end After

end Stopwatch
