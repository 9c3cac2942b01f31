import JustRT.Init
import Mathlib.Algebra.Order.Floor.Div
import Mathlib.Tactic.Ring

/-!
# Milliseconds to ticks

`JRT_MillisecondsToTicks` multiplies a time by the tick rate and divides
by 1000 without leaving 32 bits: it splits the time into seconds and a
rest, and the rate into a multiple of 1000 and a rest, and rounds only the
product of the two rests. `ceilDiv_split` says that the split is exact;
the bounds behind it say that no product or sum wraps before one of the
two guards has answered.
-/

namespace JustRT

/-! ## A rounded-up quotient in parts -/

theorem ceilDiv_mul_add {d : Nat} (hd : 0 < d) (a b : Nat) :
    (d * a + b) ⌈/⌉ d = a + b ⌈/⌉ d := by
  rw [Nat.ceilDiv_eq_add_pred_div, Nat.ceilDiv_eq_add_pred_div, Nat.add_assoc,
    Nat.add_sub_assoc (by omega), Nat.mul_add_div hd, Nat.add_sub_assoc (by omega)]

/-- Only the product of the two rests is rounded. -/
theorem ceilDiv_split {d : Nat} (hd : 0 < d) (m r : Nat) :
    (m * r) ⌈/⌉ d = m / d * r + (m % d * (r / d) + (m % d * (r % d)) ⌈/⌉ d) := by
  have hproduct : m * r = d * (m / d * r + m % d * (r / d)) + m % d * (r % d) := by
    calc m * r = (d * (m / d) + m % d) * r := by rw [Nat.div_add_mod]
      _ = d * (m / d * r) + m % d * r := by ring
      _ = d * (m / d * r) + m % d * (d * (r / d) + r % d) := by rw [Nat.div_add_mod]
      _ = d * (m / d * r + m % d * (r / d)) + m % d * (r % d) := by ring
  rw [hproduct, ceilDiv_mul_add hd, Nat.add_assoc]

/-! ## The conversion -/

section

variable (jrtTickRateHz milliseconds : UInt32)

def wholeSeconds : UInt32 := milliseconds / 1000

def remainingMilliseconds : UInt32 := milliseconds % 1000

def wholeTicks : UInt32 := wholeSeconds milliseconds * jrtTickRateHz

/-- `fractional_ticks`, in thousandths. -/
def fractionalTicks : UInt32 := remainingMilliseconds milliseconds * (jrtTickRateHz % 1000)

/-- `remaining_ticks` as it is first set. -/
def remainingWholeTicks : UInt32 := remainingMilliseconds milliseconds * (jrtTickRateHz / 1000)

/-- What is added to `remaining_ticks`. -/
def roundedTicks : UInt32 := (fractionalTicks jrtTickRateHz milliseconds + 999) / 1000

def remainingTicks : UInt32 :=
  remainingWholeTicks jrtTickRateHz milliseconds + roundedTicks jrtTickRateHz milliseconds

def jrtMillisecondsToTicks : UInt32 :=
  if wholeSeconds milliseconds > 4294967295 / jrtTickRateHz then 4294967295
  else if wholeTicks jrtTickRateHz milliseconds
      > 4294967295 - remainingTicks jrtTickRateHz milliseconds then 4294967295
  else wholeTicks jrtTickRateHz milliseconds + remainingTicks jrtTickRateHz milliseconds

/-- No product and no sum of the conversion wraps: `whole_ticks` is only
computed behind the first guard, and the last sum behind the second. -/
structure NoWrap : Prop where
  whole_fits : ¬ wholeSeconds milliseconds > 4294967295 / jrtTickRateHz →
    (wholeSeconds milliseconds).toNat * jrtTickRateHz.toNat < 2 ^ 32
  remaining_fits :
    (remainingMilliseconds milliseconds).toNat * (jrtTickRateHz / 1000).toNat < 2 ^ 32
  fractional_fits :
    (remainingMilliseconds milliseconds).toNat * (jrtTickRateHz % 1000).toNat < 2 ^ 32
  rounding_fits : (fractionalTicks jrtTickRateHz milliseconds).toNat + 999 < 2 ^ 32
  rounded_fits : (remainingWholeTicks jrtTickRateHz milliseconds).toNat
    + (roundedTicks jrtTickRateHz milliseconds).toNat < 2 ^ 32
  sum_fits : ¬ wholeSeconds milliseconds > 4294967295 / jrtTickRateHz →
    ¬ wholeTicks jrtTickRateHz milliseconds
      > 4294967295 - remainingTicks jrtTickRateHz milliseconds →
    (wholeTicks jrtTickRateHz milliseconds).toNat
      + (remainingTicks jrtTickRateHz milliseconds).toNat < 2 ^ 32

end

/-! ## Bounds -/

section

variable {r m : UInt32}

theorem remainingMilliseconds_toNat : (remainingMilliseconds m).toNat = m.toNat % 1000 := rfl

theorem wholeSeconds_toNat : (wholeSeconds m).toNat = m.toNat / 1000 := rfl

theorem wholeSeconds_le_iff (hr : 0 < r) :
    ¬ wholeSeconds m > 4294967295 / r ↔ m.toNat / 1000 * r.toNat < 2 ^ 32 := by
  have hpos : 0 < r.toNat := UInt32.lt_iff_toNat_lt.mp hr
  rw [gt_iff_lt, UInt32.lt_iff_toNat_lt, wholeSeconds_toNat, UInt32.toNat_div, Nat.not_lt,
    Nat.le_div_iff_mul_le hpos]
  exact Nat.lt_succ_iff.symm

theorem remainingWholeTicks_bound : m.toNat % 1000 * (r.toNat / 1000) ≤ 999 * 4294967 := by
  have hr := r.toNat_lt
  exact Nat.mul_le_mul (by omega) (by omega)

theorem fractionalTicks_bound : m.toNat % 1000 * (r.toNat % 1000) ≤ 999 * 999 :=
  Nat.mul_le_mul (by omega) (by omega)

theorem remainingWholeTicks_toNat :
    (remainingWholeTicks r m).toNat = m.toNat % 1000 * (r.toNat / 1000) := by
  have hbound := @remainingWholeTicks_bound r m
  rw [remainingWholeTicks, UInt32.toNat_mul, remainingMilliseconds_toNat]
  exact Nat.mod_eq_of_lt (Nat.lt_of_le_of_lt hbound (by decide))

theorem fractionalTicks_toNat :
    (fractionalTicks r m).toNat = m.toNat % 1000 * (r.toNat % 1000) := by
  have hbound := @fractionalTicks_bound r m
  rw [fractionalTicks, UInt32.toNat_mul, remainingMilliseconds_toNat]
  exact Nat.mod_eq_of_lt (Nat.lt_of_le_of_lt hbound (by decide))

theorem roundedTicks_toNat :
    (roundedTicks r m).toNat = (m.toNat % 1000 * (r.toNat % 1000)) ⌈/⌉ 1000 := by
  have hbound := @fractionalTicks_bound r m
  rw [roundedTicks, UInt32.toNat_div, UInt32.toNat_add, fractionalTicks_toNat,
    Nat.ceilDiv_eq_add_pred_div]
  change (m.toNat % 1000 * (r.toNat % 1000) + 999) % 2 ^ 32 / 1000 = _
  rw [Nat.mod_eq_of_lt (by omega)]
  rfl

theorem roundedTicks_bound : (m.toNat % 1000 * (r.toNat % 1000)) ⌈/⌉ 1000 ≤ 999 := by
  have hbound := @fractionalTicks_bound r m
  rw [Nat.ceilDiv_eq_add_pred_div]
  omega

theorem remainingTicks_toNat : (remainingTicks r m).toNat
    = m.toNat % 1000 * (r.toNat / 1000) + (m.toNat % 1000 * (r.toNat % 1000)) ⌈/⌉ 1000 := by
  have hwhole := @remainingWholeTicks_bound r m
  have hrounded := @roundedTicks_bound r m
  rw [remainingTicks, UInt32.toNat_add, remainingWholeTicks_toNat, roundedTicks_toNat]
  exact Nat.mod_eq_of_lt (by omega)

/-- Behind the first guard, `whole_ticks` is the product. -/
theorem wholeTicks_toNat (h : m.toNat / 1000 * r.toNat < 2 ^ 32) :
    (wholeTicks r m).toNat = m.toNat / 1000 * r.toNat := by
  rw [wholeTicks, UInt32.toNat_mul, wholeSeconds_toNat]
  exact Nat.mod_eq_of_lt h

theorem wholeTicks_le_iff {w s : UInt32} :
    ¬ w > 4294967295 - s ↔ w.toNat + s.toNat < 2 ^ 32 := by
  have hs := s.toNat_lt
  have hle : s ≤ 4294967295 := UInt32.le_iff_toNat_le.mpr (Nat.le_of_lt_succ hs)
  rw [gt_iff_lt, UInt32.lt_iff_toNat_lt, UInt32.toNat_sub_of_le _ _ hle]
  change ¬ 4294967295 - s.toNat < w.toNat ↔ _
  omega

theorem noWrap (hr : 0 < r) : NoWrap r m where
  whole_fits h := (wholeSeconds_le_iff hr).mp h
  remaining_fits := Nat.lt_of_le_of_lt (@remainingWholeTicks_bound r m) (by decide)
  fractional_fits := Nat.lt_of_le_of_lt (@fractionalTicks_bound r m) (by decide)
  rounding_fits := by
    have hbound := @fractionalTicks_bound r m
    rw [fractionalTicks_toNat]
    omega
  rounded_fits := by
    have hwhole := @remainingWholeTicks_bound r m
    have hrounded := @roundedTicks_bound r m
    rw [remainingWholeTicks_toNat, roundedTicks_toNat]
    omega
  sum_fits _ h := wholeTicks_le_iff.mp h

/-! ## The result -/

/-- The conversion is the rounded-up quotient, or the greatest tick count
where that does not fit. -/
theorem jrtMillisecondsToTicks_toNat (hr : 0 < r) :
    (jrtMillisecondsToTicks r m).toNat = min ((m.toNat * r.toNat) ⌈/⌉ 1000) (2 ^ 32 - 1) := by
  have hsplit := ceilDiv_split (d := 1000) (by decide) m.toNat r.toNat
  rw [← remainingTicks_toNat] at hsplit
  rw [hsplit, jrtMillisecondsToTicks]
  by_cases hseconds : wholeSeconds m > 4294967295 / r
  · have hover := mt (wholeSeconds_le_iff (m := m) hr).mpr (not_not.mpr hseconds)
    rw [if_pos hseconds, Nat.min_eq_right (by omega)]
    rfl
  · have hfits := (wholeSeconds_le_iff hr).mp hseconds
    have hwhole := wholeTicks_toNat hfits
    rw [if_neg hseconds]
    by_cases hsum : wholeTicks r m > 4294967295 - remainingTicks r m
    · have hover := mt wholeTicks_le_iff.mpr (not_not.mpr hsum)
      rw [if_pos hsum, Nat.min_eq_right (by omega)]
      rfl
    · have hlt := wholeTicks_le_iff.mp hsum
      rw [if_neg hsum, UInt32.toNat_add, Nat.mod_eq_of_lt hlt, hwhole,
        Nat.min_eq_left (by omega)]

/-- `JRT_MillisecondsToTicks` is the exact conversion, rounded up and
saturated, and nothing it computes on the way wraps. -/
theorem jrtMillisecondsToTicks_exact (jrtTickRateHz milliseconds : UInt32)
    (hrate : 0 < jrtTickRateHz) :
    (jrtMillisecondsToTicks jrtTickRateHz milliseconds).toNat
        = min ((milliseconds.toNat * jrtTickRateHz.toNat) ⌈/⌉ 1000) (2 ^ 32 - 1)
      ∧ NoWrap jrtTickRateHz milliseconds :=
  ⟨jrtMillisecondsToTicks_toNat hrate, noWrap hrate⟩

/-- At the rate of the board, 999 ms are 1023 ticks. -/
theorem jrtMillisecondsToTicks_exact_board :
    (jrtMillisecondsToTicks 1024 999).toNat = 1023 ∧ NoWrap 1024 999 := by
  have hexact := jrtMillisecondsToTicks_exact 1024 999 (by decide)
  exact ⟨hexact.1.trans (by simp [Nat.ceilDiv_eq_add_pred_div]), hexact.2⟩

example : [0, 1, 1000, 4294967295].map (jrtMillisecondsToTicks 1024)
    = [0, 2, 1024, 4294967295] := by
  decide

end

/-- In every image the conversion is exact: its tick rate is not zero. -/
theorem Image.jrtMillisecondsToTicks_toNat (img : Image) (milliseconds : UInt32) :
    (jrtMillisecondsToTicks img.jrtTickRateHz milliseconds).toNat
      = min ((milliseconds.toNat * img.jrtTickRateHz.toNat) ⌈/⌉ 1000) (2 ^ 32 - 1) :=
  JustRT.jrtMillisecondsToTicks_toNat img.tickRateHz_pos

end JustRT
