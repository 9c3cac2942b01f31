import Mathlib.Data.UInt
import Mathlib.Order.Interval.Set.Basic

/-!
# Runs of words in memory

A memory of 32-bit words under 32-bit byte addresses, and the two
instructions that move several registers at once: a store of `n` words
downwards from an address, and a load of `n` words upwards. What is loaded
is what was stored last over the same words, and nothing outside the
stored words changes.
-/

namespace Words

/-- A memory of words. -/
abbrev Mem := UInt32 → UInt32

variable {n : Nat} {m m' : Mem} {base a : UInt32}

/-- The `n` words from `base` upwards become `f`. -/
def store (m : Mem) (base : UInt32) (f : Fin n → UInt32) : Mem := fun a =>
  if h : (a - base).toNat % 4 = 0 ∧ (a - base).toNat / 4 < n then
    f ⟨(a - base).toNat / 4, h.2⟩
  else m a

def load (n : Nat) (m : Mem) (base : UInt32) : Fin n → UInt32 := fun i =>
  m (base + 4 * UInt32.ofNat i)

/-- The bytes of `n` words from `base` upwards. -/
def bytes (base : UInt32) (n : Nat) : Set Nat := Set.Ico base.toNat (base.toNat + 4 * n)

theorem toNat_word_sub (hn : 4 * n ≤ 2 ^ 32) (i : Fin n) :
    (base + 4 * UInt32.ofNat i - base).toNat = 4 * i.val := by
  have hi := i.isLt
  have hoffset : base + 4 * UInt32.ofNat i - base = 4 * UInt32.ofNat i := by
    rw [UInt32.add_comm, UInt32.add_sub_cancel]
  rw [hoffset, UInt32.toNat_mul, UInt32.toNat_ofNat']
  change 4 * (i.val % 2 ^ 32) % 2 ^ 32 = 4 * i.val
  omega

theorem toNat_word (hend : base.toNat + 4 * n ≤ 2 ^ 32) (i : Fin n) :
    (base + 4 * UInt32.ofNat i).toNat = base.toNat + 4 * i.val := by
  have hi := i.isLt
  rw [UInt32.toNat_add, UInt32.toNat_mul, UInt32.toNat_ofNat']
  change (base.toNat + 4 * (i.val % 2 ^ 32) % 2 ^ 32) % 2 ^ 32 = base.toNat + 4 * i.val
  omega

theorem load_store (hn : 4 * n ≤ 2 ^ 32) (f : Fin n → UInt32) :
    load n (store m base f) base = f := by
  funext i
  have hoffset : (base + 4 * UInt32.ofNat i - base).toNat = 4 * i.val := toNat_word_sub hn i
  have hword : (base + 4 * UInt32.ofNat i - base).toNat % 4 = 0
      ∧ (base + 4 * UInt32.ofNat i - base).toNat / 4 < n := by
    rw [hoffset]
    exact ⟨Nat.mul_mod_right 4 i, by rw [Nat.mul_div_cancel_left _ (by decide)]; exact i.isLt⟩
  rw [load, store, dif_pos hword]
  congr 1
  apply Fin.ext
  change (base + 4 * UInt32.ofNat i - base).toNat / 4 = i
  rw [hoffset, Nat.mul_div_cancel_left _ (by decide)]

theorem store_self (f : Fin (n + 1) → UInt32) : store m base f base = f 0 := by
  have hzero : (base - base).toNat = 0 := congrArg UInt32.toNat (UInt32.sub_self base)
  have hword : (base - base).toNat % 4 = 0 ∧ (base - base).toNat / 4 < n + 1 := by
    rw [hzero]
    exact ⟨rfl, Nat.succ_pos n⟩
  rw [store, dif_pos hword]
  congr 1
  apply Fin.ext
  change (base - base).toNat / 4 = 0
  rw [hzero]

theorem store_of_not_mem (hend : base.toNat + 4 * n ≤ 2 ^ 32) (f : Fin n → UInt32)
    (ha : a.toNat ∉ bytes base n) : store m base f a = m a := by
  refine dif_neg ?_
  rintro ⟨-, hlt⟩
  have hoff : (a - base).toNat < 4 * n := by omega
  -- Within the words, the offset is the distance, without a borrow.
  rw [UInt32.toNat_sub] at hoff
  have hbase := base.toNat_lt
  have haddr := a.toNat_lt
  refine ha ⟨?_, ?_⟩
  · by_contra hlow
    omega
  · omega

theorem load_congr (hend : base.toNat + 4 * n ≤ 2 ^ 32)
    (h : ∀ a : UInt32, a.toNat ∈ bytes base n → m' a = m a) : load n m' base = load n m base := by
  funext i
  have hi := i.isLt
  have hword := toNat_word hend i
  refine h _ ⟨?_, ?_⟩
  · omega
  · omega

end Words
