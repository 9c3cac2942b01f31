import Mathlib.Data.Nat.Basic
import Mathlib.Tactic.Ring

/-!
# Blocks of equal size

`n` blocks of `size` bytes each, one behind the other from `base` on: which
addresses are the start of one, and that different ones are apart.
-/

namespace Blocks

def start (base size i : Nat) : Nat := base + i * size

variable {base size n i j a : Nat}

theorem start_add_le (hi : i < n) : start base size i + size ≤ base + n * size := by
  have h : (i + 1) * size ≤ n * size := Nat.mul_le_mul_right size hi
  rw [Nat.succ_mul] at h
  unfold start
  omega

/-- A block ends where the next one starts, or before. -/
theorem start_add_le_start (hij : i < j) : start base size i + size ≤ start base size j := by
  have h : start base size i + size ≤ base + j * size := start_add_le hij
  exact h

theorem disjoint (hij : i ≠ j) : start base size i + size ≤ start base size j
    ∨ start base size j + size ≤ start base size i := by
  rcases Nat.lt_or_gt_of_ne hij with h | h
  · exact Or.inl (start_add_le_start h)
  · exact Or.inr (start_add_le_start h)

theorem start_injective (hsize : 0 < size) (h : start base size i = start base size j) : i = j := by
  by_contra hij
  have happart : start base size i + size ≤ start base size j
      ∨ start base size j + size ≤ start base size i := disjoint hij
  rcases happart with hle | hle <;> omega

/-- The test for the start of a block: in range, and a multiple of the size
away from the base. -/
theorem exists_start_iff (hsize : 0 < size) :
    (∃ i < n, a = start base size i) ↔ base ≤ a ∧ a < base + n * size ∧ (a - base) % size = 0 := by
  constructor
  · rintro ⟨i, hi, rfl⟩
    have hle : start base size i + size ≤ base + n * size := start_add_le hi
    refine ⟨Nat.le_add_right _ _, by omega, ?_⟩
    rw [start, Nat.add_sub_cancel_left, Nat.mul_mod_left]
  · rintro ⟨hle, hlt, hmod⟩
    have hdiv : (a - base) / size * size = a - base := Nat.div_mul_cancel (Nat.dvd_of_mod_eq_zero hmod)
    refine ⟨(a - base) / size, Nat.div_lt_of_lt_mul ?_, ?_⟩
    · rw [Nat.mul_comm]
      omega
    · rw [start, hdiv]
      omega

end Blocks
