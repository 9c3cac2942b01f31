import Mathlib.Data.UInt

/-!
# Bytes in memory

A memory of bytes under 32-bit addresses, and the little-endian words in it.
`overlay` is what a loop leaves that writes one piece behind the other: the bytes
from a start upwards are given, the others are as they were. Addresses wrap, and
a range is told by the distance from its start.
-/

namespace Bytes

/-- A memory of bytes. -/
abbrev Mem := UInt32 → UInt8

/-- The `n` bytes from `start` upwards become `f`. -/
def overlay (m : Mem) (start : UInt32) (n : Nat) (f : Nat → UInt8) : Mem := fun a =>
  if (a - start).toNat < n then f (a - start).toNat else m a

def set (m : Mem) (a : UInt32) (b : UInt8) : Mem := overlay m a 1 fun _ => b

def load32 (m : Mem) (a : UInt32) : UInt32 :=
  .ofNat ((m a).toNat + 256 * (m (a + 1)).toNat + 65536 * (m (a + 2)).toNat
    + 16777216 * (m (a + 3)).toNat)

def store32 (m : Mem) (a w : UInt32) : Mem := overlay m a 4 fun i => .ofNat (w.toNat / 256 ^ i)

variable {m m' : Mem} {start a src : UInt32} {n k : Nat} {f g : Nat → UInt8}

/-! ## Ranges -/

theorem toNat_sub_lt_iff {stop : UInt32} (hstop : stop.toNat = start.toNat + n) :
    (a - start).toNat < n ↔ start.toNat ≤ a.toNat ∧ a.toNat < stop.toNat := by
  have ha := a.toNat_lt
  have hs := start.toNat_lt
  have hlt := stop.toNat_lt
  rw [UInt32.toNat_sub]
  omega

theorem toNat_add_ofNat (h : start.toNat + n < 2 ^ 32) :
    (start + .ofNat n).toNat = start.toNat + n := by
  rw [UInt32.toNat_add, UInt32.toNat_ofNat']
  omega

theorem toNat_add_ofNat_sub (h : n < 2 ^ 32) : (start + .ofNat n - start).toNat = n := by
  rw [UInt32.add_comm, UInt32.add_sub_cancel, UInt32.toNat_ofNat_of_lt' h]

theorem overlay_of_lt (h : (a - start).toNat < n) : overlay m start n f a = f (a - start).toNat :=
  if_pos h

theorem overlay_of_le (h : n ≤ (a - start).toNat) : overlay m start n f a = m a :=
  if_neg (Nat.not_lt.mpr h)

@[simp] theorem overlay_zero : overlay m start 0 f = m := by
  funext a
  exact overlay_of_le (Nat.zero_le _)

theorem overlay_congr (h : ∀ i < n, f i = g i) : overlay m start n f = overlay m start n g := by
  funext a
  rw [overlay, overlay]
  split
  · next ha => exact h _ ha
  · rfl

theorem overlay_overlay (hend : n + k ≤ 2 ^ 32) (hg : ∀ i < k, g i = f (n + i)) :
    overlay (overlay m start n f) (start + .ofNat n) k g = overlay m start (n + k) f := by
  funext a
  have ha := (a - start).toNat_lt
  have hbehind : (a - (start + .ofNat n)).toNat
      = (2 ^ 32 - n % 2 ^ 32 + (a - start).toNat) % 2 ^ 32 := by
    have hs := start.toNat_lt
    rw [UInt32.toNat_sub, UInt32.toNat_sub, UInt32.toNat_add, UInt32.toNat_ofNat']
    omega
  simp only [overlay, hbehind]
  generalize (a - start).toNat = d at ha
  by_cases hfirst : d < n
  · have hfar : ¬(2 ^ 32 - n % 2 ^ 32 + d) % 2 ^ 32 < k := by omega
    rw [if_neg hfar, if_pos hfirst, if_pos (by omega)]
  · by_cases hsecond : d < n + k
    · have hnear : (2 ^ 32 - n % 2 ^ 32 + d) % 2 ^ 32 = d - n := by omega
      rw [hnear, if_pos (by omega), if_pos hsecond, hg _ (by omega)]
      congr 1
      omega
    · have hfar : ¬(2 ^ 32 - n % 2 ^ 32 + d) % 2 ^ 32 < k := by omega
      rw [if_neg hfar, if_neg hfirst, if_neg hsecond]

/-! ## Words -/

theorem store32_zero : store32 m a 0 = overlay m a 4 fun _ => 0 := by
  unfold store32
  congr 1
  funext i
  simp

theorem byte_load32 {i : Nat} (hi : i < 4) :
    UInt8.ofNat ((load32 m a).toNat / 256 ^ i) = m (a + .ofNat i) := by
  have h0 := (m a).toNat_lt
  have h1 := (m (a + 1)).toNat_lt
  have h2 := (m (a + 2)).toNat_lt
  have h3 := (m (a + 3)).toNat_lt
  have hword : (load32 m a).toNat = (m a).toNat + 256 * (m (a + 1)).toNat
      + 65536 * (m (a + 2)).toNat + 16777216 * (m (a + 3)).toNat := by
    rw [load32, UInt32.toNat_ofNat']
    omega
  rw [hword]
  apply UInt8.toNat_inj.mp
  rw [UInt8.toNat_ofNat']
  rcases i with _ | _ | _ | _ | i
  · rw [show a + UInt32.ofNat 0 = a from UInt32.add_zero a]
    omega
  · change _ = (m (a + 1)).toNat
    omega
  · change _ = (m (a + 2)).toNat
    omega
  · change _ = (m (a + 3)).toNat
    omega
  · omega

theorem store32_load32 :
    store32 m a (load32 m' src) = overlay m a 4 fun i => m' (src + .ofNat i) := by
  funext b
  rw [store32, overlay, overlay]
  split
  · next h => exact byte_load32 h
  · rfl

theorem load32_congr (h : ∀ i < 4, m (a + .ofNat i) = m' (a + .ofNat i)) :
    load32 m a = load32 m' a := by
  have h0 : m a = m' a := by simpa using h 0 (by decide)
  have h1 : m (a + 1) = m' (a + 1) := h 1 (by decide)
  have h2 : m (a + 2) = m' (a + 2) := h 2 (by decide)
  have h3 : m (a + 3) = m' (a + 3) := h 3 (by decide)
  rw [load32, load32, h0, h1, h2, h3]

/-! ## Loops -/

theorem foldl_set (hn : n ≤ 2 ^ 32) :
    (List.range n).foldl (fun m j => set m (start + .ofNat j) (f j)) m = overlay m start n f := by
  induction n with
  | zero => exact overlay_zero.symm
  | succ n ih =>
      rw [List.range_succ, List.foldl_append, ih (by omega), List.foldl_cons, List.foldl_nil, set]
      refine overlay_overlay hn fun i hi => ?_
      rw [Nat.lt_one_iff.mp hi, Nat.add_zero]

/-- A range is copied, byte by byte, from where it is not written. -/
theorem foldl_copy (hn : n ≤ 2 ^ 32) (hsrc : ∀ i < n, n ≤ (src + .ofNat i - start).toNat) :
    (List.range n).foldl (fun m j => set m (start + .ofNat j) (m (src + .ofNat j))) m
      = overlay m start n fun i => m (src + .ofNat i) := by
  have hrange : ∀ k ≤ n,
      (List.range k).foldl (fun m j => set m (start + .ofNat j) (m (src + .ofNat j))) m
        = overlay m start k fun i => m (src + .ofNat i) := by
    intro k hk
    induction k with
    | zero => exact overlay_zero.symm
    | succ k ih =>
        rw [List.range_succ, List.foldl_append, ih (by omega), List.foldl_cons, List.foldl_nil,
          set]
        refine overlay_overlay (by omega) fun i hi => ?_
        rw [Nat.lt_one_iff.mp hi, Nat.add_zero]
        have hfar := hsrc k (by omega)
        exact overlay_of_le (by omega)
  exact hrange n (Nat.le_refl n)

end Bytes
