import Mathlib.Algebra.Order.Ring.Nat
import Mathlib.Tactic.Ring

/-!
# Binary long division

The recurrence of most-significant-bit-first division. `n >>> i` is what
has been read of `n` once bit `i` is in; one more bit `b` doubles the
prefix and adds `b`, its remainder is at most one subtraction away from
`2 * r + b`, and the quotient gains the bit that says whether the
subtraction was made.
-/

namespace LongDivision

variable {d p b : Nat}

theorem shiftRight_extend (n i : Nat) : n >>> i = 2 * n >>> (i + 1) + n >>> i % 2 := by
  rw [Nat.shiftRight_succ]
  omega

/-- The extended prefix in terms of the division of the shorter one. -/
theorem extend_eq (d p b : Nat) : 2 * p + b = d * (2 * (p / d)) + (2 * (p % d) + b) := by
  calc 2 * p + b = 2 * (d * (p / d) + p % d) + b := by rw [Nat.div_add_mod]
    _ = d * (2 * (p / d)) + (2 * (p % d) + b) := by ring

theorem div_of_lt (h : 2 * (p % d) + b < d) : (2 * p + b) / d = 2 * (p / d) := by
  have hd : 0 < d := by omega
  rw [extend_eq d p b, Nat.mul_add_div hd, Nat.div_eq_of_lt h, Nat.add_zero]

theorem mod_of_lt (h : 2 * (p % d) + b < d) : (2 * p + b) % d = 2 * (p % d) + b := by
  rw [extend_eq d p b, Nat.mul_add_mod, Nat.mod_eq_of_lt h]

theorem div_of_le (hd : 0 < d) (hb : b < 2) (h : d ≤ 2 * (p % d) + b) :
    (2 * p + b) / d = 2 * (p / d) + 1 := by
  have hr : p % d < d := Nat.mod_lt p hd
  have hone : (2 * (p % d) + b) / d = 1 := Nat.div_eq_of_lt_le (by omega) (by omega)
  rw [extend_eq d p b, Nat.mul_add_div hd, hone]

theorem mod_of_le (hd : 0 < d) (hb : b < 2) (h : d ≤ 2 * (p % d) + b) :
    (2 * p + b) % d = 2 * (p % d) + b - d := by
  have hr : p % d < d := Nat.mod_lt p hd
  rw [extend_eq d p b, Nat.mul_add_mod, Nat.mod_eq_sub_mod h, Nat.mod_eq_of_lt (by omega)]

/-! ## The quotient under construction

With bits `i` and up read, the quotient's bits stand in their final
places, above `i` zero bits. -/

theorem quotient_zero (h : (2 * p + b) / d = 2 * (p / d)) (i : Nat) :
    (p / d) * 2 ^ (i + 1) = (2 * p + b) / d * 2 ^ i := by
  rw [h]
  ring

theorem quotient_one (h : (2 * p + b) / d = 2 * (p / d) + 1) (i : Nat) :
    (p / d) * 2 ^ (i + 1) ||| 2 ^ i = (2 * p + b) / d * 2 ^ i := by
  have hbelow : 2 ^ i < 2 ^ (i + 1) := Nat.pow_lt_pow_right (by decide) (by omega)
  rw [Nat.mul_comm, ← Nat.two_pow_add_eq_or_of_lt hbelow, h]
  ring

end LongDivision
