import Mathlib.Algebra.Order.Ring.Nat
import Mathlib.Data.Nat.Log
import Mathlib.Tactic.Ring

/-!
# Aligned power-of-two blocks

The address space cut into blocks of `2 ^ j` bytes, each starting at a
multiple of its size: the block an address lies in, how blocks of
different sizes nest, and which ranges one block describes exactly. The
block a range is rounded out to is the smallest that holds it.
-/

namespace AlignedBlock

variable {i j k a b x : Nat}

/-- The first address of the block of `2 ^ j` bytes that holds `a`. -/
def base (j a : Nat) : Nat := a / 2 ^ j * 2 ^ j

theorem base_le (j a : Nat) : base j a ≤ a := Nat.div_mul_le_self a (2 ^ j)

theorem lt_base_add (j a : Nat) : a < base j a + 2 ^ j :=
  Nat.lt_div_mul_add (Nat.two_pow_pos j)

theorem dvd_base (j a : Nat) : 2 ^ j ∣ base j a := Nat.dvd_mul_left _ _

theorem base_eq_of_dvd (h : 2 ^ j ∣ a) : base j a = a := Nat.div_mul_cancel h

/-- Two addresses are in one block when their quotients agree. -/
theorem div_eq_iff (j a x : Nat) :
    x / 2 ^ j = a / 2 ^ j ↔ base j a ≤ x ∧ x < base j a + 2 ^ j := by
  have hpos : 0 < 2 ^ j := Nat.two_pow_pos j
  rw [Nat.div_eq_iff hpos, base]
  omega

theorem base_add_mono (h : j ≤ k) : base j a + 2 ^ j ≤ base k a + 2 ^ k := by
  -- The end of the large block is a multiple of the small size above `a`.
  obtain ⟨d, rfl⟩ := Nat.exists_eq_add_of_le h
  have hlt : a < base (j + d) a + 2 ^ (j + d) := lt_base_add (j + d) a
  have hend : base (j + d) a + 2 ^ (j + d) = (a / 2 ^ (j + d) + 1) * 2 ^ d * 2 ^ j := by
    rw [base, Nat.pow_add]
    ring
  rw [hend] at hlt ⊢
  have hdiv : a / 2 ^ j < (a / 2 ^ (j + d) + 1) * 2 ^ d :=
    (Nat.div_lt_iff_lt_mul (Nat.two_pow_pos j)).mpr hlt
  calc
    base j a + 2 ^ j = (a / 2 ^ j + 1) * 2 ^ j := by rw [base]; ring
    _ ≤ (a / 2 ^ (j + d) + 1) * 2 ^ d * 2 ^ j := Nat.mul_le_mul_right _ hdiv

/-- The block of `2 ^ j` bytes around `a` reaches `b`. -/
def Reaches (a b j : Nat) : Prop := b ≤ base j a + 2 ^ j

theorem Reaches.mono (hreach : Reaches a b j) (h : j ≤ k) : Reaches a b k :=
  Nat.le_trans hreach (base_add_mono h)

theorem Reaches.sub_le (hreach : Reaches a b j) : b - a ≤ 2 ^ j := by
  have hle : base j a ≤ a := base_le j a
  have hpos : 0 < 2 ^ j := Nat.two_pow_pos j
  unfold Reaches at hreach
  omega

/-- A block that holds `a` is the block around it. -/
theorem base_eq_of_mem (hdvd : 2 ^ j ∣ x) (hle : x ≤ a) (hlt : a < x + 2 ^ j) : base j a = x := by
  have hsame : a / 2 ^ j = x / 2 ^ j := by
    rw [div_eq_iff, base_eq_of_dvd hdvd]
    exact ⟨hle, hlt⟩
  rw [base, hsame]
  exact base_eq_of_dvd hdvd

/-- Any block that holds `[a, b)` makes the block around `a` reach. -/
theorem reaches_of_mem (hab : a < b) (hdvd : 2 ^ j ∣ x) (hle : x ≤ a) (hb : b ≤ x + 2 ^ j) :
    Reaches a b j := by
  rw [Reaches, base_eq_of_mem hdvd hle (Nat.lt_of_lt_of_le hab hb)]
  exact hb

/-- One block describes `[a, b)` exactly: its length is a power of two and
its start a multiple of the length. -/
def Exact (a b : Nat) : Prop := ∃ k, b = a + 2 ^ k ∧ 2 ^ k ∣ a

theorem Exact.reaches (hexact : b = a + 2 ^ k) (hdvd : 2 ^ k ∣ a) : Reaches a b k := by
  rw [Reaches, base_eq_of_dvd hdvd, hexact]

/-- The smallest block of at least `2 ^ i` bytes that holds `[a, b)` holds
nothing else just when the range is exact. -/
theorem least_subset_iff (hab : a < b) (hdvd : 2 ^ i ∣ b - a) (hreach : Reaches a b j)
    (hleast : ∀ k, i ≤ k → Reaches a b k → j ≤ k) :
    (∀ x, base j a ≤ x → x < base j a + 2 ^ j → a ≤ x ∧ x < b) ↔ Exact a b := by
  have hpos : 0 < 2 ^ j := Nat.two_pow_pos j
  constructor
  · intro hsubset
    have hfirst := hsubset (base j a) (Nat.le_refl _) (by omega)
    have hlast := hsubset (base j a + 2 ^ j - 1) (by omega) (by omega)
    have hbase : base j a = a := Nat.le_antisymm (base_le j a) hfirst.1
    refine ⟨j, ?_, ?_⟩
    · rw [Reaches, hbase] at hreach
      rw [hbase] at hlast
      omega
    · rw [← hbase]
      exact dvd_base j a
  · rintro ⟨k, hb, hk⟩
    have hle : i ≤ k := by
      refine (Nat.pow_dvd_pow_iff_le_right Nat.one_lt_two).mp ?_
      have hlen : b - a = 2 ^ k := by omega
      rwa [hlen] at hdvd
    have hjk : j ≤ k := hleast k hle (Exact.reaches hb hk)
    have hkj : k ≤ j := by
      refine (Nat.pow_le_pow_iff_right Nat.one_lt_two).mp ?_
      have hlen := hreach.sub_le
      omega
    obtain rfl := Nat.le_antisymm hjk hkj
    rw [base_eq_of_dvd hk, ← hb]
    intro x hax hxb
    exact ⟨hax, hxb⟩

end AlignedBlock
