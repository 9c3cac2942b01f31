import Mathlib.Logic.Basic

/-!
# Positions around a table

Places `0` to `n - 1` in a circle. `ahead n base i` is the number of steps
forward from `base` to `i`, with a whole turn from a place to itself: the
order in which a scan that starts behind `base` meets them.
-/

namespace Cyclic

/-- The steps forward from `base` to `i`, a whole turn if they are equal. -/
def ahead (n base i : Nat) : Nat := if base < i then i - base else i + n - base

variable {n base i j d : Nat}

theorem ahead_pos (hb : base < n) : 1 ≤ ahead n base i := by
  unfold ahead
  split <;> omega

theorem ahead_le (base : Nat) (hi : i < n) : ahead n base i ≤ n := by
  unfold ahead
  split <;> omega

theorem add_ahead_mod (hb : base < n) (hi : i < n) : (base + ahead n base i) % n = i := by
  unfold ahead
  split
  · rw [Nat.add_sub_cancel' (by omega), Nat.mod_eq_of_lt hi]
  · have h : base + (i + n - base) = i + n := by omega
    rw [h, Nat.add_mod_right, Nat.mod_eq_of_lt hi]

theorem ahead_add_mod (hb : base < n) (hd : 1 ≤ d) (hdn : d ≤ n) :
    ahead n base ((base + d) % n) = d := by
  unfold ahead
  by_cases h : base + d < n
  · rw [Nat.mod_eq_of_lt h]
    split <;> omega
  · have hmod : (base + d) % n = base + d - n := by
      rw [Nat.mod_eq_sub_mod (by omega), Nat.mod_eq_of_lt (by omega)]
    rw [hmod]
    split <;> omega

theorem ahead_inj (hb : base < n) (hi : i < n) (hj : j < n)
    (h : ahead n base i = ahead n base j) : i = j := by
  rw [← add_ahead_mod hb hi, h, add_ahead_mod hb hj]

/-- From a place that is no nearer behind `t` than `i` is, `t` comes before
`i`. -/
theorem ahead_lt_of_le {b t : Nat} (hb : b < n) (ht : t < n) (hbt : b ≠ t) (hit : i ≠ t)
    (h : ahead n t i ≤ ahead n t b) : ahead n b t < ahead n b i := by
  unfold ahead at *
  split at h <;> split at h <;> split <;> split <;> omega

/-- A scan from `base` that stops at `i`, before it comes to `t`, has less
far to go from there. -/
theorem ahead_lt_of_passed {t : Nat} (hb : base < n) (hi : i < n) (ht : t < n) (hit : i ≠ t)
    (h : ahead n base i ≤ ahead n base t) : ahead n i t < ahead n base t := by
  unfold ahead at *
  split at h <;> split at h <;> split <;> omega

/-! ## Scanning from behind a place -/

variable {p : Nat → Bool}

/-- The scan over the offsets `1` to `n` finds something exactly if there is
something to find. -/
theorem find_eq_none_iff (hb : base < n) :
    ((List.range' 1 n).find? fun d => p ((base + d) % n)) = none ↔ ∀ i < n, p i = false := by
  rw [List.find?_range'_eq_none]
  constructor
  · intro h i hi
    have hle := ahead_le base hi
    have hd := h (ahead n base i) (ahead_pos hb) (by omega)
    rw [add_ahead_mod hb hi] at hd
    simpa using hd
  · intro h d _ _
    simpa using h _ (Nat.mod_lt _ (by omega))

/-- What the scan finds passes the test, and nothing that does is nearer. -/
theorem find_spec (hb : base < n)
    (h : ((List.range' 1 n).find? fun d => p ((base + d) % n)) = some d) :
    1 ≤ d ∧ d ≤ n ∧ p ((base + d) % n) = true ∧ ∀ i < n, p i = true → d ≤ ahead n base i := by
  rw [List.find?_range'_eq_some] at h
  obtain ⟨hp, hd, hfirst⟩ := h
  rw [List.mem_range'_1] at hd
  refine ⟨hd.1, by omega, hp, fun i hi hpi => Nat.le_of_not_lt fun hlt => ?_⟩
  have hno := hfirst (ahead n base i) (ahead_pos hb) hlt
  rw [add_ahead_mod hb hi, hpi] at hno
  cases hno

end Cyclic
