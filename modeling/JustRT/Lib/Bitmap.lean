import Mathlib.Data.Nat.Basic
import Mathlib.Tactic.ByContra

/-!
# Sets as bitmaps

A set of numbers kept one bit each in words of `w` bits. `Represents` says
which set the first `size` words hold; writing one word adds or removes
one number, whatever becomes of the words behind.
-/

namespace Bitmap

variable {w : Nat}

/-- Bit `i` of the words. -/
def mem (words : Nat → BitVec w) (i : Nat) : Bool := (words (i / w)).getLsbD (i % w)

/-- The first `size` words hold the set `p`. -/
def Represents (words : Nat → BitVec w) (size : Nat) (p : Nat → Prop) : Prop :=
  ∀ i < w * size, mem words i = true ↔ p i

theorem getLsbD_mask {k i : Nat} (hi : i < w) :
    (1#w <<< k).getLsbD i = decide (i = k) := by
  simp only [BitVec.getLsbD_shiftLeft, BitVec.getLsbD_one]
  by_cases hlt : i < k
  · simp [hlt, show i ≠ k by omega]
  · by_cases hik : i = k
    · subst hik
      simp [hi, show 0 < w by omega]
    · have hne : i - k ≠ 0 := by omega
      simp [hne, hik]

theorem and_mask_eq_zero_iff {x : BitVec w} {k : Nat} (hk : k < w) :
    x &&& 1#w <<< k = 0#w ↔ x.getLsbD k = false := by
  constructor
  · intro h
    have hbit := congrArg (BitVec.getLsbD · k) h
    simpa [hk] using hbit
  · intro h
    apply BitVec.eq_of_getLsbD_eq
    intro i hi
    rw [BitVec.getLsbD_and, getLsbD_mask hi, BitVec.getLsbD_zero]
    by_cases hik : i = k
    · rw [hik, h, Bool.false_and]
    · simp [hik]

variable {words words' : Nat → BitVec w} {size i : Nat} {p : Nat → Prop}

theorem div_lt (hi : i < w * size) : i / w < size := Nat.div_lt_of_lt_mul hi

theorem eq_iff (w : Nat) {i j : Nat} : j = i ↔ j / w = i / w ∧ j % w = i % w := by
  constructor
  · rintro rfl
    exact ⟨rfl, rfl⟩
  · rintro ⟨hdiv, hmod⟩
    rw [← Nat.div_add_mod j w, hdiv, hmod, Nat.div_add_mod]

theorem Represents.test (h : Represents words size p) (hi : i < w * size) :
    words (i / w) &&& 1#w <<< (i % w) = 0#w ↔ ¬p i := by
  have hw : 0 < w := Nat.pos_of_ne_zero fun hw => by simp [hw] at hi
  rw [and_mask_eq_zero_iff (Nat.mod_lt i hw), ← h i hi, mem, Bool.not_eq_true]

/-- The word of bit `i` is written back with the bit set. -/
theorem Represents.set (h : Represents words size p) (hi : i < w * size)
    (hother : ∀ j < size, j ≠ i / w → words' j = words j)
    (hword : words' (i / w) = words (i / w) ||| 1#w <<< (i % w)) :
    Represents words' size fun j => j = i ∨ p j := by
  intro j hj
  have hw : 0 < w := Nat.pos_of_ne_zero fun hw => by simp [hw] at hi
  change mem words' j = true ↔ j = i ∨ p j
  rw [← h j hj, mem, mem]
  by_cases hjw : j / w = i / w
  · rw [eq_iff w (i := i), hjw, hword, BitVec.getLsbD_or, getLsbD_mask (Nat.mod_lt j hw),
      Bool.or_eq_true, decide_eq_true_eq, or_comm]
    simp
  · rw [hother (j / w) (div_lt hj) hjw, eq_iff w]
    simp [hjw]

/-- The word of bit `i` is written back with the bit cleared. -/
theorem Represents.clear (h : Represents words size p) (hi : i < w * size)
    (hother : ∀ j < size, j ≠ i / w → words' j = words j)
    (hword : words' (i / w) = words (i / w) &&& ~~~(1#w <<< (i % w))) :
    Represents words' size fun j => j ≠ i ∧ p j := by
  intro j hj
  have hw : 0 < w := Nat.pos_of_ne_zero fun hw => by simp [hw] at hi
  change mem words' j = true ↔ j ≠ i ∧ p j
  rw [← h j hj, mem, mem, Ne, eq_iff w]
  by_cases hjw : j / w = i / w
  · have hbit : (~~~(1#w <<< (i % w))).getLsbD (j % w) = !decide (j % w = i % w) := by
      rw [BitVec.getLsbD_not, getLsbD_mask (Nat.mod_lt j hw)]
      simp [Nat.mod_lt j hw]
    rw [hjw, hword, BitVec.getLsbD_and, hbit, Bool.and_eq_true, and_comm]
    simp
  · rw [hother (j / w) (div_lt hj) hjw]
    simp [hjw]

theorem represents_empty (words : Nat → BitVec w) (size : Nat)
    (h : ∀ j < size, words j = 0#w) :
    Represents words size fun _ => False := by
  intro i hi
  rw [mem, h (i / w) (div_lt hi)]
  simp

end Bitmap
