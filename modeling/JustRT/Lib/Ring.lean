import Mathlib.Data.Nat.ModEq

/-!
# Ring buffers

A ring of `capacity` slots that holds a queue of items: the oldest one at
`tail`, the following ones in the slots behind it, around the end of the
ring. Storing behind the last item and taking the first one are the two
ends of a list.
-/

namespace Ring

variable {α : Type*} {slots slots' : Nat → α} {capacity tail : Nat} {x : α} {l : List α}

/-- The slots from `tail` on hold the items `l`, oldest first. -/
def Holds (slots : Nat → α) (capacity tail : Nat) (l : List α) : Prop :=
  ∀ i, (h : i < l.length) → slots ((tail + i) % capacity) = l[i]

theorem holds_nil (slots : Nat → α) (capacity tail : Nat) : Holds slots capacity tail [] :=
  fun _ h => absurd h (Nat.not_lt_zero _)

/-- Fewer than `capacity` steps around the ring do not come back. -/
theorem slot_ne {i j : Nat} (hij : i < j) (hj : j < capacity) :
    (tail + i) % capacity ≠ (tail + j) % capacity := by
  intro h
  have hmod : i ≡ j [MOD capacity] := Nat.ModEq.add_left_cancel' tail h
  rw [Nat.ModEq, Nat.mod_eq_of_lt (by omega), Nat.mod_eq_of_lt hj] at hmod
  omega

theorem Holds.congr (h : Holds slots capacity tail l) (hcap : 0 < capacity)
    (hslots : ∀ j < capacity, slots' j = slots j) : Holds slots' capacity tail l := by
  intro i hi
  rw [hslots _ (Nat.mod_lt _ hcap)]
  exact h i hi

theorem Holds.push (h : Holds slots capacity tail l) (hroom : l.length < capacity)
    (hother : ∀ j < capacity, j ≠ (tail + l.length) % capacity → slots' j = slots j)
    (hnew : slots' ((tail + l.length) % capacity) = x) :
    Holds slots' capacity tail (l ++ [x]) := by
  intro i hi
  rw [List.length_append, List.length_singleton] at hi
  by_cases hlast : i = l.length
  · subst hlast
    rw [hnew, List.getElem_append_right (Nat.le_refl _)]
    simp
  · have hlt : i < l.length := by omega
    have hne : (tail + i) % capacity ≠ (tail + l.length) % capacity := slot_ne hlt hroom
    rw [hother _ (Nat.mod_lt _ (by omega)) hne, List.getElem_append_left hlt]
    exact h i hlt

theorem Holds.front (h : Holds slots capacity tail (x :: l)) (htail : tail < capacity) :
    slots tail = x := by
  have hzero := h 0 (by simp)
  rwa [Nat.add_zero, Nat.mod_eq_of_lt htail] at hzero

theorem Holds.pop (h : Holds slots capacity tail (x :: l)) :
    Holds slots capacity ((tail + 1) % capacity) l := by
  intro i hi
  have hnext := h (i + 1) (by simpa using hi)
  have hslot : ((tail + 1) % capacity + i) % capacity = (tail + (i + 1)) % capacity := by
    rw [Nat.mod_add_mod, Nat.add_assoc, Nat.add_comm 1 i]
  rw [hslot]
  exact hnext

/-- The slot behind the last item, where the tail moves on by one. -/
theorem head_pop {head count : Nat} (hhead : head = (tail + (count + 1)) % capacity) :
    head = ((tail + 1) % capacity + count) % capacity := by
  rw [hhead, Nat.mod_add_mod, Nat.add_assoc, Nat.add_comm 1 count]

/-- The slot behind the last item, where an item more is stored. -/
theorem head_push {head count : Nat} (hhead : head = (tail + count) % capacity) :
    (head + 1) % capacity = (tail + (count + 1)) % capacity := by
  rw [hhead, Nat.mod_add_mod, Nat.add_assoc]

end Ring
