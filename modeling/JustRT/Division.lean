import JustRT.Benchmark
import JustRT.Lib.LongDivision

/-!
# The division of `benchmark.c`

`divide_u64_u32` is a shift-subtract loop over the 64 bits of the
numerator, written so that no 64-bit division routine is linked.
`DivideVars` names the loop's two variables and `divideVars` their values
after some of its passes; the loop returns the quotient of the last. Each
pass keeps the remainder and the quotient of the bits read so far
(`DivideVars.Divides`), and a remainder below a 32-bit denominator has
room for one more bit.
-/

namespace JustRT

/-! ## The variables of the loop -/

structure DivideVars where
  remainder : UInt64
  quotient : UInt64
  deriving DecidableEq, Repr

/-- `remainder` with the next bit shifted in, before it is compared. -/
def DivideVars.shifted (v : DivideVars) (numerator : UInt64) (bit : Nat) : UInt64 :=
  (v.remainder <<< 1) ||| ((numerator >>> UInt64.ofNat bit) &&& 1)

/-- One pass of the loop, for the numerator's bit `bit`. -/
def DivideVars.pass (v : DivideVars) (numerator denominator : UInt64) (bit : Nat) :
    DivideVars :=
  if v.shifted numerator bit ≥ denominator then
    { remainder := v.shifted numerator bit - denominator
      quotient := v.quotient ||| ((1 : UInt64) <<< UInt64.ofNat bit) }
  else { v with remainder := v.shifted numerator bit }

/-- The variables after `passes` passes. -/
def divideVars (numerator denominator : UInt64) : Nat → DivideVars
  | 0 => { remainder := 0, quotient := 0 }
  | passes + 1 =>
      (divideVars numerator denominator passes).pass numerator denominator (63 - passes)

variable {numerator denominator : UInt64} {v : DivideVars} {bit passes : Nat}

theorem divideLoop_succ :
    divideLoop numerator denominator (bit + 1) v.remainder v.quotient =
      divideLoop numerator denominator bit (v.pass numerator denominator bit).remainder
        (v.pass numerator denominator bit).quotient := by
  rw [divideLoop, DivideVars.pass]
  show (if v.shifted numerator bit ≥ denominator then _ else _) = _
  split <;> rfl

theorem divideLoop_eq_divideVars (h : passes ≤ 64) :
    divideLoop numerator denominator 64 0 0 =
      divideLoop numerator denominator (64 - passes)
        (divideVars numerator denominator passes).remainder
        (divideVars numerator denominator passes).quotient := by
  induction passes with
  | zero => rfl
  | succ passes ih =>
    have hbit : 64 - passes = (63 - passes) + 1 := by omega
    rw [ih (by omega), hbit, divideLoop_succ, divideVars]
    congr 1
    omega

/-! ## One pass -/

/-- The variables divide the numerator's bits from `bit` up. -/
structure DivideVars.Divides (v : DivideVars) (numerator denominator : UInt64)
    (bit : Nat) : Prop where
  remainder_eq : v.remainder.toNat = numerator.toNat >>> bit % denominator.toNat
  quotient_eq : v.quotient.toNat = numerator.toNat >>> bit / denominator.toNat * 2 ^ bit

theorem DivideVars.Divides.remainder_lt (h : v.Divides numerator denominator bit)
    (hpos : 0 < denominator.toNat) : v.remainder.toNat < denominator.toNat := by
  rw [h.remainder_eq]
  exact Nat.mod_lt _ hpos

theorem toNat_bit (hbit : bit < 64) :
    ((numerator >>> UInt64.ofNat bit) &&& 1).toNat = numerator.toNat >>> bit % 2 := by
  have hmod : bit % 2 ^ 64 % 64 = bit := by omega
  rw [UInt64.toNat_and, UInt64.toNat_shiftRight, UInt64.toNat_ofNat', hmod]
  exact Nat.and_one_is_mod _

/-- No bit of a remainder below `2 ^ 63` is shifted out. -/
theorem DivideVars.toNat_shifted (hroom : v.remainder.toNat < 2 ^ 63) (hbit : bit < 64) :
    (v.shifted numerator bit).toNat =
      2 * v.remainder.toNat + numerator.toNat >>> bit % 2 := by
  have hlow : numerator.toNat >>> bit % 2 < 2 ^ 1 := by omega
  have hdouble : v.remainder.toNat <<< 1 % 2 ^ 64 = 2 ^ 1 * v.remainder.toNat := by
    rw [Nat.shiftLeft_eq]
    omega
  rw [DivideVars.shifted, UInt64.toNat_or, toNat_bit hbit, UInt64.toNat_shiftLeft]
  show v.remainder.toNat <<< 1 % 2 ^ 64 ||| _ = _
  rw [hdouble, ← Nat.two_pow_add_eq_or_of_lt hlow]

theorem toNat_one_shiftLeft (hbit : bit < 64) :
    ((1 : UInt64) <<< UInt64.ofNat bit).toNat = 2 ^ bit := by
  have hmod : bit % 2 ^ 64 % 64 = bit := by omega
  have hlt : 2 ^ bit < 2 ^ 64 := Nat.pow_lt_pow_right (by omega) hbit
  rw [UInt64.toNat_shiftLeft, UInt64.toNat_ofNat', hmod, Nat.shiftLeft_eq]
  show 1 * 2 ^ bit % 2 ^ 64 = 2 ^ bit
  rw [Nat.one_mul, Nat.mod_eq_of_lt hlt]

theorem DivideVars.Divides.pass (h : v.Divides numerator denominator (bit + 1))
    (hpos : 0 < denominator.toNat) (hroom : denominator.toNat ≤ 2 ^ 63) (hbit : bit < 64) :
    (v.pass numerator denominator bit).Divides numerator denominator bit := by
  have hr : v.remainder.toNat < denominator.toNat := h.remainder_lt hpos
  have hb : numerator.toNat >>> bit % 2 < 2 := Nat.mod_lt _ (by omega)
  have hshift : (v.shifted numerator bit).toNat =
      2 * v.remainder.toNat + numerator.toNat >>> bit % 2 :=
    DivideVars.toNat_shifted (Nat.lt_of_lt_of_le hr hroom) hbit
  rw [h.remainder_eq] at hshift
  have hextend := LongDivision.shiftRight_extend numerator.toNat bit
  rw [DivideVars.pass]
  split
  · rename_i hge
    have hle : denominator.toNat ≤ (v.shifted numerator bit).toNat := UInt64.le_iff_toNat_le.mp hge
    rw [hshift] at hle
    have hmod := LongDivision.mod_of_le hpos hb hle
    rw [← hextend] at hmod
    constructor
    · show (v.shifted numerator bit - denominator).toNat = _
      rw [UInt64.toNat_sub_of_le _ _ hge, hshift, hmod]
    · show (v.quotient ||| _).toNat = _
      rw [UInt64.toNat_or, toNat_one_shiftLeft hbit, h.quotient_eq,
        LongDivision.quotient_one (LongDivision.div_of_le hpos hb hle), ← hextend]
  · rename_i hlt
    have hlt : (v.shifted numerator bit).toNat < denominator.toNat := by
      rw [ge_iff_le, UInt64.le_iff_toNat_le] at hlt
      omega
    rw [hshift] at hlt
    have hmod := LongDivision.mod_of_lt hlt
    rw [← hextend] at hmod
    constructor
    · rw [hshift, hmod]
    · rw [h.quotient_eq, LongDivision.quotient_zero (LongDivision.div_of_lt hlt), ← hextend]

/-! ## The whole loop -/

theorem divideVars_divides (hpos : 0 < denominator.toNat) (hroom : denominator.toNat ≤ 2 ^ 63)
    (h : passes ≤ 64) :
    (divideVars numerator denominator passes).Divides numerator denominator (64 - passes) := by
  induction passes with
  | zero =>
    have hnone : numerator.toNat >>> 64 = 0 := by
      rw [Nat.shiftRight_eq_div_pow]
      exact Nat.div_eq_of_lt numerator.toNat_lt
    constructor
    · show 0 = numerator.toNat >>> 64 % denominator.toNat
      rw [hnone, Nat.zero_mod]
    · show 0 = numerator.toNat >>> 64 / denominator.toNat * 2 ^ 64
      rw [hnone, Nat.zero_div, Nat.zero_mul]
  | succ passes ih =>
    have hbit : 64 - passes = (63 - passes) + 1 := by omega
    have hrest : 64 - (passes + 1) = 63 - passes := by omega
    have hbefore := ih (by omega)
    rw [hbit] at hbefore
    rw [hrest]
    exact hbefore.pass hpos hroom (by omega)

theorem toNat_divideLoop (hpos : 0 < denominator.toNat) (hroom : denominator.toNat ≤ 2 ^ 63) :
    (divideLoop numerator denominator 64 0 0).toNat = numerator.toNat / denominator.toNat := by
  have hlast : (divideVars numerator denominator 64).Divides numerator denominator (64 - 64) :=
    divideVars_divides hpos hroom (Nat.le_refl 64)
  rw [divideLoop_eq_divideVars (Nat.le_refl 64)]
  show (divideVars numerator denominator 64).quotient.toNat = _
  rw [hlast.quotient_eq]
  simp

theorem toNat_divideU64U32 {denominator : UInt32} (h : denominator ≠ 0) :
    (divideU64U32 numerator denominator).toNat = numerator.toNat / denominator.toNat := by
  have hpos : denominator.toNat ≠ 0 := fun hzero => h (UInt32.toNat_inj.mp hzero)
  have hlt : denominator.toNat < 2 ^ 32 := denominator.toNat_lt
  have hsame : denominator.toUInt64.toNat = denominator.toNat := UInt32.toNat_toUInt64 _
  rw [divideU64U32, toNat_divideLoop (by omega) (by omega), hsame]

/-- The product of two 32-bit values fits in 64 bits. -/
theorem toNat_mul_toUInt64 (a b : UInt32) :
    (a.toUInt64 * b.toUInt64).toNat = a.toNat * b.toNat := by
  have hlt : a.toNat * b.toNat < 2 ^ 32 * 2 ^ 32 := Nat.mul_lt_mul'' a.toNat_lt b.toNat_lt
  rw [← Nat.pow_add] at hlt
  rw [UInt64.toNat_mul, UInt32.toNat_toUInt64, UInt32.toNat_toUInt64, Nat.mod_eq_of_lt hlt]

theorem toNat_periodToCycles {jrtCoreClockHz jrtTickRateHz periodTicks : UInt32}
    (h : jrtTickRateHz ≠ 0) :
    (periodToCycles jrtCoreClockHz jrtTickRateHz periodTicks).toNat =
      if periodTicks.toNat * jrtCoreClockHz.toNat / jrtTickRateHz.toNat < 2 ^ 32 then
        periodTicks.toNat * jrtCoreClockHz.toNat / jrtTickRateHz.toNat
      else 0 := by
  have hcycles : (divideU64U32 (periodTicks.toUInt64 * jrtCoreClockHz.toUInt64) _).toNat = _ :=
    toNat_divideU64U32 h
  rw [toNat_mul_toUInt64] at hcycles
  rw [periodToCycles, ← hcycles]
  have hmax : ∀ c : UInt64, c ≤ 4294967295 ↔ c.toNat < 2 ^ 32 := fun c => by
    rw [UInt64.le_iff_toNat_le]
    exact Nat.lt_succ_iff.symm
  split
  · rename_i hfits
    have hfits := (hmax _).mp hfits
    rw [if_pos hfits, UInt64.toNat_toUInt32, Nat.mod_eq_of_lt hfits]
  · rename_i hover
    rw [if_neg fun hlt => hover ((hmax _).mpr hlt)]
    rfl

/-- **Exact division.** For every numerator and every denominator but zero
the loop returns the floor of the quotient. Before each of its passes the
remainder is below the denominator, and shifting the next bit in loses
nothing; so a period in ticks becomes its length in cycles whenever that
fits in 32 bits, and zero otherwise. -/
theorem divideU64U32_exact (numerator : UInt64) (denominator : UInt32) (h : denominator ≠ 0) :
    (divideU64U32 numerator denominator).toNat = numerator.toNat / denominator.toNat ∧
    divideU64U32 numerator denominator =
      (divideVars numerator denominator.toUInt64 64).quotient ∧
    (∀ passes < 64,
      (divideVars numerator denominator.toUInt64 passes).remainder.toNat < denominator.toNat ∧
      ((divideVars numerator denominator.toUInt64 passes).shifted numerator
        (63 - passes)).toNat =
        2 * (divideVars numerator denominator.toUInt64 passes).remainder.toNat +
          numerator.toNat / 2 ^ (63 - passes) % 2) ∧
    ∀ jrtCoreClockHz periodTicks : UInt32,
      (periodToCycles jrtCoreClockHz denominator periodTicks).toNat =
        if periodTicks.toNat * jrtCoreClockHz.toNat / denominator.toNat < 2 ^ 32 then
          periodTicks.toNat * jrtCoreClockHz.toNat / denominator.toNat
        else 0 := by
  have hpos : denominator.toNat ≠ 0 := fun hzero => h (UInt32.toNat_inj.mp hzero)
  have hlt : denominator.toNat < 2 ^ 32 := denominator.toNat_lt
  have hsame : denominator.toUInt64.toNat = denominator.toNat := UInt32.toNat_toUInt64 _
  refine ⟨toNat_divideU64U32 h, divideLoop_eq_divideVars (Nat.le_refl 64), ?_,
    fun jrtCoreClockHz periodTicks => toNat_periodToCycles h⟩
  intro passes hpasses
  have hdivides : (divideVars numerator denominator.toUInt64 passes).Divides numerator
      denominator.toUInt64 (64 - passes) :=
    divideVars_divides (by omega) (by omega) (Nat.le_of_lt hpasses)
  have hbelow := hdivides.remainder_lt (by omega)
  rw [hsame] at hbelow
  refine ⟨hbelow, ?_⟩
  rw [DivideVars.toNat_shifted (by omega) (by omega), Nat.shiftRight_eq_div_pow]

/-- One second of a 216 MHz clock, at 1000 ticks a second. -/
theorem divideU64U32_exact_second :
    (1000 : UInt32) ≠ 0 ∧ (periodToCycles 216000000 1000 1000).toNat = 216000000 := by
  refine ⟨by decide, ?_⟩
  rw [(divideU64U32_exact 216000000 1000 (by decide)).2.2.2 216000000 1000]
  decide

end JustRT
