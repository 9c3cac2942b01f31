import Mathlib.Data.Nat.Count

/-!
# Counting who passes a test

`tally p n` is the number of the first `n` indices that pass the test `p`.
Where one index changes sides the tally moves by one.
-/

namespace Tally

variable {p q : Nat → Bool} {n i : Nat}

/-- How many of the indices below `n` pass. -/
def tally (p : Nat → Bool) (n : Nat) : Nat := Nat.count (fun i => p i = true) n

/-- Below `n`, `q` passes what `p` passes and one index more. -/
def Gains (p q : Nat → Bool) (n : Nat) : Prop :=
  ∃ i < n, p i = false ∧ q i = true ∧ ∀ j < n, j ≠ i → q j = p j

theorem tally_succ (p : Nat → Bool) (n : Nat) :
    tally p (n + 1) = tally p n + if p n = true then 1 else 0 :=
  Nat.count_succ _ n

theorem tally_congr (h : ∀ i < n, q i = p i) : tally q n = tally p n := by
  induction n with
  | zero => rfl
  | succ n ih =>
      have hn : q n = p n := h n (Nat.lt_succ_self n)
      rw [tally_succ, tally_succ, ih fun i hi => h i (Nat.lt_succ_of_lt hi), hn]

theorem tally_eq_zero (h : ∀ i < n, p i = false) : tally p n = 0 := by
  have hnone : tally p n = tally (fun _ => false) n := tally_congr h
  rw [hnone, tally]
  induction n with
  | zero => rfl
  | succ n ih => simp

theorem Gains.tally_eq (h : Gains p q n) : tally q n = tally p n + 1 := by
  obtain ⟨i, hi, hp, hq, hrest⟩ := h
  induction n with
  | zero => omega
  | succ n ih =>
      rw [tally_succ, tally_succ]
      by_cases hin : i = n
      · -- The index that changes sides is the last one.
        subst hin
        have hbelow : tally q i = tally p i :=
          tally_congr fun j hj => hrest j (Nat.lt_succ_of_lt hj) (Nat.ne_of_lt hj)
        rw [hbelow, hp, hq]
        simp
      · have hlast : q n = p n := hrest n (Nat.lt_succ_self n) (Ne.symm hin)
        have hbelow := ih (by omega) fun j hj hji => hrest j (Nat.lt_succ_of_lt hj) hji
        rw [hbelow, hlast]
        omega

end Tally
